import IscServer.DungeonFinding.LFGQueue

/-!
# The Role Check

`LFGMgr::CheckGroupRoles` searches in the map of its caller: it takes one role of a player away,
calls itself on the whole map, and puts the role back when the call fails. A player with one role
left is counted; the loop is left as soon as there are too many of a role.

The map is passed along here, so that what a failed call leaves in it can be asked. The recursion
has a bound on its depth, and every call takes something from the sum of the masks, so any bound
above that sum gives the same result.

## Main definitions

* `checkGroupRoles` — the search, with the map it leaves.
* `Fits` — one of his roles for each player, within the numbers needed.

## Main results

* `checkGroupRoles_exact` — it returns true exactly if the map can be filled, and then has filled it.
-/

namespace IscServer.DungeonFinding

open List

/-- `PLAYER_ROLE_DAMAGE`, `PLAYER_ROLE_HEALER` and `PLAYER_ROLE_TANK`, in the order of the search. -/
inductive LfgRole
  | damage
  | healer
  | tank
  deriving DecidableEq, Repr

instance : Fintype LfgRole := ⟨{.damage, .healer, .tank}, fun role => by cases role <;> simp⟩

namespace LfgRole

/-- The bit of a role in a mask. -/
def flag : LfgRole → ℕ
  | damage => roleDamage
  | healer => roleHealer
  | tank => roleTank

/-- `LFG_DPS_NEEDED`, `LFG_HEALERS_NEEDED` and `LFG_TANKS_NEEDED`. -/
def needed : LfgRole → ℕ
  | damage => 3
  | healer => 1
  | tank => 1

end LfgRole

/-- The player has selected the role. -/
def Selects (mask : ℕ) (role : LfgRole) : Prop := mask &&& role.flag ≠ 0

instance (mask : ℕ) (role : LfgRole) : Decidable (Selects mask role) := instDecidableNot

/-- The only role left to the player. -/
def IsOnly (mask : ℕ) (role : LfgRole) : Prop := withoutLeader mask = role.flag

instance (mask : ℕ) (role : LfgRole) : Decidable (IsOnly mask role) := Nat.decEq _ _

namespace InPlace

/-! ### The search -/

/-- What a call returns, and the map it leaves. -/
abbrev Outcome := Bool × LfgRolesMap

/-- `it->second -= role` and `it->second += role`. -/
def change (groles : LfgRolesMap) (it : ℕ) (f : ℕ → ℕ) : LfgRolesMap :=
  groles.modify it fun entry => (entry.1, f entry.2)

/-- The block of the loop for one role of the player at `it`: the call returns, or the count and
the map go on. -/
def tryRole (self : LfgRolesMap → Option Outcome) (role : LfgRole) (it mask count : ℕ)
    (groles : LfgRolesMap) : Option (Except Outcome (ℕ × LfgRolesMap)) :=
  if mask &&& role.flag ≠ 0 then
    if mask ≠ role.flag then
      match self (change groles it (· - role.flag)) with
      | none => none
      | some (true, groles) => some (.error (true, groles))
      | some (false, groles) => some (.ok (count, change groles it (· + role.flag)))
    else if count = role.needed then some (.error (false, groles))
    else some (.ok (count + 1, groles))
  else some (.ok (count, groles))

/-- The statements after a block are reached if it does not return. -/
def andThen (block : Option (Except Outcome (ℕ × LfgRolesMap)))
    (next : ℕ → LfgRolesMap → Option Outcome) : Option Outcome :=
  match block with
  | none => none
  | some (.error outcome) => some outcome
  | some (.ok (count, groles)) => next count groles

/-- The loop over the players from `it` on, with the number of players still to come. -/
def scan (self : LfgRolesMap → Option Outcome) :
    ℕ → ℕ → ℕ → ℕ → ℕ → LfgRolesMap → Option Outcome
  | 0, _, damage, healer, tank, groles =>
    some (decide (tank + healer + damage = groles.length % 256), groles)
  | left + 1, it, damage, healer, tank, groles =>
    let role := withoutLeader ((groles[it]?.map Prod.snd).getD 0)
    if role = 0 then some (false, groles)
    else
      andThen (tryRole self .damage it role damage groles) fun damage groles =>
      andThen (tryRole self .healer it role healer groles) fun healer groles =>
      andThen (tryRole self .tank it role tank groles) fun tank groles =>
      scan self left (it + 1) damage healer tank groles

/-- `LFGMgr::CheckGroupRoles`. -/
def checkGroupRoles : ℕ → LfgRolesMap → Option Outcome
  | 0, _ => none
  | fuel + 1, groles =>
    if groles = [] then some (false, groles)
    else scan (checkGroupRoles fuel) groles.length 0 0 0 0 groles

end InPlace

/-! ### What the search is for -/

/-- One of his roles for each player, with no more of a role than are needed. -/
structure Fits (groles : LfgRolesMap) (roles : List LfgRole) : Prop where
  selects : List.Forall₂ (fun entry role => Selects entry.2 role) groles roles
  needed : ∀ role, roles.count role ≤ role.needed

/-- Each player can be given one of his roles. -/
def Formable (groles : LfgRolesMap) : Prop := groles ≠ [] ∧ ∃ roles, Fits groles roles

/-- The map with one role for each player, whose leader bit stays. -/
def assign (groles : LfgRolesMap) (roles : List LfgRole) : LfgRolesMap :=
  List.zipWith (fun entry role => (entry.1, entry.2 &&& 1 ||| role.flag)) groles roles

/-! ### Masks -/

variable {mask : ℕ} {role other : LfgRole} {groles before rest : LfgRolesMap} {roles : List LfgRole}
  {guid : Guid}

theorem withoutLeader_and (h : mask < 16) :
    withoutLeader mask &&& role.flag = mask &&& role.flag := by
  cases role <;> revert mask <;> decide

theorem selects_of_isOnly (h : IsOnly mask role) : Selects mask role := by
  intro hnot
  have hzero : mask &&& (0xFE &&& role.flag) = 0 := by
    cases role <;> exact hnot
  rw [← Nat.and_assoc, show mask &&& 0xFE = role.flag from h] at hzero
  cases role <;> exact absurd hzero (by decide)

/-- A player without a role left has not selected any. -/
theorem not_selects_of_withoutLeader (h : withoutLeader mask = 0) : ¬ Selects mask role := by
  intro hsel
  apply hsel
  have hflag : role.flag = 0xFE &&& role.flag := by cases role <;> rfl
  rw [hflag, ← Nat.and_assoc, show mask &&& 0xFE = 0 from h, Nat.zero_and]

/-- The only role left is the only one selected. -/
theorem eq_of_isOnly (h : IsOnly mask role) (hsel : Selects mask other) : other = role := by
  have hother : Selects role.flag other := by
    rw [← show withoutLeader mask = role.flag from h]
    have hflag : other.flag = 0xFE &&& other.flag := by cases other <;> rfl
    rw [Selects, withoutLeader, Nat.and_assoc, ← hflag]
    exact hsel
  cases role <;> cases other <;> first | rfl | exact absurd rfl hother

section

variable (h : mask < 16)
include h

/-- A player with a role left has only one, or has selected another beside each. -/
theorem isOnly_or_two (hrole : withoutLeader mask ≠ 0) :
    (∃ role, IsOnly mask role) ∨
      ∀ role, Selects mask role → ∃ other, Selects mask other ∧ other ≠ role := by
  revert mask
  decide

theorem flag_le (hsel : Selects mask role) : role.flag ≤ mask := by
  revert mask
  cases role <;> decide

/-- Taking a selected role away leaves the leader bit and the other roles. -/
theorem selects_sub_iff (hsel : Selects mask role) :
    Selects (mask - role.flag) other ↔ Selects mask other ∧ other ≠ role := by
  revert mask
  cases role <;> cases other <;> decide

theorem leader_sub (hsel : Selects mask role) : (mask - role.flag) &&& 1 = mask &&& 1 := by
  revert mask
  cases role <;> decide

/-- The mask of a player with one role left. -/
theorem leader_or_flag (honly : IsOnly mask role) : mask &&& 1 ||| role.flag = mask := by
  revert mask
  cases role <;> decide

end

/-! ### Assignments -/

/-- The role given to the player in the middle. -/
theorem forall₂_middle {R : Guid × ℕ → LfgRole → Prop} {entry : Guid × ℕ} :
    List.Forall₂ R (before ++ entry :: rest) roles ↔ ∃ first given last,
      roles = first ++ given :: last ∧ List.Forall₂ R before first ∧ R entry given ∧
        List.Forall₂ R rest last := by
  induction before generalizing roles with
  | nil =>
    rw [nil_append, forall₂_cons_left_iff]
    constructor
    · rintro ⟨given, last, hentry, hlast, rfl⟩
      exact ⟨[], given, last, rfl, .nil, hentry, hlast⟩
    · rintro ⟨first, given, last, rfl, hfirst, hentry, hlast⟩
      rw [forall₂_nil_left_iff.mp hfirst]
      exact ⟨given, last, hentry, hlast, rfl⟩
  | cons player before ih =>
    rw [cons_append, forall₂_cons_left_iff]
    constructor
    · rintro ⟨role, tail, hplayer, htail, rfl⟩
      obtain ⟨first, given, last, rfl, hfirst, hentry, hlast⟩ := ih.mp htail
      exact ⟨role :: first, given, last, rfl, .cons hplayer hfirst, hentry, hlast⟩
    · rintro ⟨first, given, last, rfl, hfirst, hentry, hlast⟩
      obtain ⟨role, tail, hplayer, htail, rfl⟩ := forall₂_cons_left_iff.mp hfirst
      exact ⟨role, tail ++ given :: last, hplayer,
        ih.mpr ⟨tail, given, last, rfl, htail, hentry, hlast⟩, rfl⟩

/-- **One role taken away**: what fits then fits before, with the same masks in the end. -/
theorem Fits.of_sub (h : mask < 16) (hsel : Selects mask role)
    (hfits : Fits (before ++ (guid, mask - role.flag) :: rest) roles) :
    Fits (before ++ (guid, mask) :: rest) roles ∧
      assign (before ++ (guid, mask - role.flag) :: rest) roles =
        assign (before ++ (guid, mask) :: rest) roles := by
  obtain ⟨first, given, last, rfl, hfirst, hgiven, hlast⟩ := forall₂_middle.mp hfits.selects
  refine ⟨⟨forall₂_middle.mpr ⟨first, given, last, rfl, hfirst, ?_, hlast⟩, hfits.needed⟩, ?_⟩
  · exact ((selects_sub_iff h hsel).mp hgiven).1
  · rw [assign, assign, zipWith_append hfirst.length_eq, zipWith_append hfirst.length_eq]
    rw [zipWith_cons_cons, zipWith_cons_cons]
    rw [leader_sub h hsel]

/-- **No role can be taken away** and still all be filled: a player who has selected another role
beside each cannot be given any. -/
theorem not_formable_of_sub (h : mask < 16)
    (htwo : ∀ role, Selects mask role → ∃ other, Selects mask other ∧ other ≠ role)
    (hnone : ∀ role, Selects mask role → ¬ Formable (before ++ (guid, mask - role.flag) :: rest)) :
    ¬ Formable (before ++ (guid, mask) :: rest) := by
  rintro ⟨-, roles, hfits⟩
  obtain ⟨first, given, last, rfl, hfirst, hgiven, hlast⟩ := forall₂_middle.mp hfits.selects
  obtain ⟨other, hother, hne⟩ := htwo given hgiven
  refine hnone other hother ⟨by simp, first ++ given :: last, ?_, hfits.needed⟩
  refine forall₂_middle.mpr ⟨first, given, last, rfl, hfirst, ?_, hlast⟩
  exact (selects_sub_iff h hother).mpr ⟨hgiven, hne.symm⟩

/-- A role that is the only one left to a player is given to him. -/
theorem countP_isOnly_le (h : List.Forall₂ (fun entry role => Selects entry.2 role) groles roles)
    (role : LfgRole) : groles.countP (fun entry => IsOnly entry.2 role) ≤ roles.count role := by
  induction h with
  | nil => exact Nat.le_refl _
  | @cons entry given groles roles hsel hrest ih =>
    rw [countP_cons, count_cons]
    by_cases honly : IsOnly entry.2 role
    · rw [eq_of_isOnly honly hsel]
      simpa [honly] using ih
    · simp only [honly, decide_false, Bool.false_eq_true, if_false]
      omega

/-- More players with only one role than are needed. -/
theorem not_formable_of_countP (h : role.needed < groles.countP fun entry => IsOnly entry.2 role) : ¬ Formable groles := by
  rintro ⟨-, roles, hfits⟩
  have hle := countP_isOnly_le hfits.selects role
  have hneeded := hfits.needed role
  omega

/-- A player without a role left. -/
theorem not_formable_of_none (h : withoutLeader mask = 0) :
    ¬ Formable (before ++ (guid, mask) :: rest) := by
  rintro ⟨-, roles, hfits⟩
  obtain ⟨_, _, _, -, -, hgiven, -⟩ := forall₂_middle.mp hfits.selects
  exact not_selects_of_withoutLeader h hgiven

/-- A player has one role left in one way. -/
theorem isOnly_unique (h : IsOnly mask role) (hother : IsOnly mask other) : other = role :=
  eq_of_isOnly h (selects_of_isOnly hother)

theorem isOnly_indicator (mask : ℕ) :
    (if IsOnly mask .tank then 1 else 0) + (if IsOnly mask .healer then 1 else 0) +
      (if IsOnly mask .damage then 1 else 0) = if ∃ role, IsOnly mask role then 1 else 0 := by
  by_cases hsome : ∃ role, IsOnly mask role
  · obtain ⟨role, honly⟩ := hsome
    have heq : ∀ other, IsOnly mask other ↔ other = role := fun other =>
      ⟨isOnly_unique honly, fun heq => heq ▸ honly⟩
    simp only [heq]
    cases role <;> rfl
  · rw [if_neg hsome]
    have hnone : ∀ role, ¬ IsOnly mask role := fun role honly => hsome ⟨role, honly⟩
    simp only [hnone, if_false]

/-- The players with one role left are counted, and are all of them if the count is full. -/
theorem countP_isOnly (groles : LfgRolesMap) :
    groles.countP (fun entry => IsOnly entry.2 .tank) +
        groles.countP (fun entry => IsOnly entry.2 .healer) +
        groles.countP (fun entry => IsOnly entry.2 .damage) =
      groles.countP fun entry => ∃ role, IsOnly entry.2 role := by
  induction groles with
  | nil => rfl
  | cons entry groles ih =>
    have hone := isOnly_indicator entry.2
    simp only [countP_cons, decide_eq_true_eq]
    omega

/-- **One role left for each**, and no more than are needed: the map is what it is to be. -/
theorem Fits.of_isOnly (hmasks : ∀ entry ∈ groles, entry.2 < 16)
    (honly : ∀ entry ∈ groles, ∃ role, IsOnly entry.2 role)
    (hneeded : ∀ role : LfgRole, groles.countP (fun entry => IsOnly entry.2 role) ≤ role.needed) :
    ∃ roles, Fits groles roles ∧ assign groles roles = groles := by
  have hroles : ∃ roles : List LfgRole, List.Forall₂ (fun entry role => Selects entry.2 role) groles
      roles ∧ assign groles roles = groles ∧
      ∀ role, roles.count role = groles.countP fun entry => IsOnly entry.2 role := by
    clear hneeded
    induction groles with
    | nil => exact ⟨[], .nil, rfl, fun _ => rfl⟩
    | cons entry groles ih =>
      obtain ⟨role, hentry⟩ := honly entry mem_cons_self
      obtain ⟨roles, hsel, hassign, hcount⟩ :=
        ih (fun e he => hmasks e (mem_cons_of_mem _ he)) fun e he => honly e (mem_cons_of_mem _ he)
      refine ⟨role :: roles, .cons (selects_of_isOnly hentry) hsel, ?_, fun other => ?_⟩
      · rw [assign, zipWith_cons_cons, leader_or_flag (hmasks entry mem_cons_self) hentry]
        exact congrArg (entry :: ·) hassign
      · have heq : IsOnly entry.2 other ↔ role = other :=
          ⟨fun hother => isOnly_unique hother hentry, fun heq => heq ▸ hentry⟩
        simp only [count_cons, countP_cons, hcount, heq, beq_iff_eq, decide_eq_true_eq]
  obtain ⟨roles, hsel, hassign, hcount⟩ := hroles
  exact ⟨roles, ⟨hsel, fun role => hcount role ▸ hneeded role⟩, hassign⟩

namespace InPlace

/-! ### The search is exact -/

/-- What `CheckGroupRoles` is for: it returns true exactly if the map can be filled; then it has
filled it, and otherwise the map is as it was. -/
structure Exact (groles : LfgRolesMap) (outcome : Outcome) : Prop where
  returns : outcome.1 = true ↔ Formable groles
  filled : outcome.1 = true → ∃ roles, Fits groles roles ∧ outcome.2 = assign groles roles
  restored : outcome.1 = false → outcome.2 = groles

theorem Exact.refused (h : ¬ Formable groles) : Exact groles (false, groles) :=
  ⟨iff_of_false Bool.false_ne_true h, fun hc => absurd hc Bool.false_ne_true, fun _ => rfl⟩

/-- The map is one of players' masks: four bits each, and no more players than a byte counts. -/
structure Masks (groles : LfgRolesMap) : Prop where
  lt : ∀ entry ∈ groles, entry.2 < 16
  length_le : groles.length ≤ 255

variable {self : LfgRolesMap → Option Outcome} {count : ℕ}

/-- The calls are exact for maps with less in their masks. -/
def ExactBelow (self : LfgRolesMap → Option Outcome) (bound : ℕ) : Prop :=
  ∀ groles, Masks groles → (groles.map Prod.snd).sum < bound →
    ∃ outcome, self groles = some outcome ∧ Exact groles outcome

theorem Masks.middle (h : Masks (before ++ (guid, mask) :: rest)) {other : ℕ} (hlt : other < 16) :
    Masks (before ++ (guid, other) :: rest) := by
  refine ⟨fun entry hmem => ?_, ?_⟩
  · rcases mem_append.mp hmem with hbefore | hafter
    · exact h.lt entry (mem_append_left _ hbefore)
    · rcases mem_cons.mp hafter with rfl | hrest
      · exact hlt
      · exact h.lt entry (mem_append_right _ (mem_cons_of_mem _ hrest))
  · have hlength := h.length_le
    simp only [length_append] at hlength ⊢
    exact hlength

theorem change_middle (f : ℕ → ℕ) :
    change (before ++ (guid, mask) :: rest) before.length f = before ++ (guid, f mask) :: rest := by
  induction before with
  | nil => rfl
  | cons player before ih => exact congrArg (player :: ·) ih

/-- **One block** of the loop returns what the function is to return, or goes on with the map as it
was, having counted a player with this role only or tried in vain without it. -/
theorem tryRole_spec (hmasks : Masks (before ++ (guid, mask) :: rest))
    (hself : ExactBelow self ((before ++ (guid, mask) :: rest).map Prod.snd).sum)
    (hle : count ≤ role.needed) (hcount : count = before.countP fun entry => IsOnly entry.2 role) :
    (∃ outcome, tryRole self role before.length (withoutLeader mask) count
        (before ++ (guid, mask) :: rest) = some (.error outcome) ∧
      Exact (before ++ (guid, mask) :: rest) outcome) ∨
    ∃ count', tryRole self role before.length (withoutLeader mask) count
        (before ++ (guid, mask) :: rest) = some (.ok (count', before ++ (guid, mask) :: rest)) ∧
      count' ≤ role.needed ∧
      count' = (before ++ [(guid, mask)]).countP (fun entry => IsOnly entry.2 role) ∧
      (Selects mask role → ¬ IsOnly mask role →
        ¬ Formable (before ++ (guid, mask - role.flag) :: rest)) := by
  have hmask : mask < 16 := hmasks.lt (guid, mask) (by simp)
  rw [tryRole, withoutLeader_and hmask]
  by_cases hsel : mask &&& role.flag ≠ 0
  · rw [if_pos hsel]
    by_cases honly : IsOnly mask role
    · rw [if_neg (show ¬ withoutLeader mask ≠ role.flag from not_not_intro honly)]
      by_cases hfull : count = role.needed
      · rw [if_pos hfull]
        refine Or.inl ⟨_, rfl, Exact.refused (not_formable_of_countP (show role.needed < _ from ?_))⟩
        rw [countP_append, countP_cons_of_pos (by simpa using honly), ← hcount]
        omega
      · rw [if_neg hfull]
        refine Or.inr ⟨_, rfl, by omega, ?_, fun _ hnot => absurd honly hnot⟩
        rw [countP_append, countP_cons_of_pos (by simpa using honly), ← hcount]
        rfl
    · rw [if_pos (show withoutLeader mask ≠ role.flag from honly), change_middle]
      have hless := flag_le hmask hsel
      have hflag : 0 < role.flag := by cases role <;> decide
      obtain ⟨⟨found, groles⟩, hreturn, hexact⟩ := hself (before ++ (guid, mask - role.flag) :: rest)
        (hmasks.middle (by omega)) (by simp; omega)
      rw [hreturn]
      cases found with
      | true =>
        obtain ⟨roles, hfits, hassign⟩ := hexact.filled rfl
        obtain ⟨hfits', hassign'⟩ := hfits.of_sub hmask hsel
        refine Or.inl ⟨_, rfl, iff_of_true rfl ⟨by simp, roles, hfits'⟩, fun _ => ?_, nofun⟩
        exact ⟨roles, hfits', hassign.trans hassign'⟩
      | false =>
        dsimp only
        have hsame : groles = _ := hexact.restored rfl
        rw [hsame, change_middle, Nat.sub_add_cancel hless]
        refine Or.inr ⟨_, rfl, hle, ?_, fun _ _ hform => ?_⟩
        · rw [countP_append, countP_cons_of_neg (by simpa using honly), ← hcount]
          rfl
        · exact Bool.false_ne_true (hexact.returns.mpr hform)
  · rw [if_neg hsel]
    have honly : ¬ IsOnly mask role := fun honly => hsel (selects_of_isOnly honly)
    refine Or.inr ⟨_, rfl, hle, ?_, fun hyes => absurd hyes hsel⟩
    rw [countP_append, countP_cons_of_neg (by simpa using honly), ← hcount]
    rfl

theorem andThen_ok (next : ℕ → LfgRolesMap → Option Outcome) :
    andThen (some (.ok (count, groles))) next = next count groles := rfl

/-- **The loop** from a player on: the players before him are counted by the role that is the only
one left to them, and if one of them had several, they have been tried in vain. -/
theorem scan_spec (hmasks : Masks (before ++ rest))
    (hself : ExactBelow self ((before ++ rest).map Prod.snd).sum) (hne : before ++ rest ≠ [])
    (counts : LfgRole → ℕ) (hneeded : ∀ role, counts role ≤ role.needed)
    (hcounts : ∀ role, counts role = before.countP fun entry => IsOnly entry.2 role)
    (hbefore : (∀ entry ∈ before, ∃ role, IsOnly entry.2 role) ∨ ¬ Formable (before ++ rest)) :
    ∃ outcome, scan self rest.length before.length (counts .damage) (counts .healer) (counts .tank)
        (before ++ rest) = some outcome ∧ Exact (before ++ rest) outcome := by
  induction rest generalizing before counts with
  | nil =>
    rw [append_nil] at *
    refine ⟨_, rfl, ?_⟩
    rw [Nat.mod_eq_of_lt (by have := hmasks.length_le; omega), hcounts, hcounts, hcounts,
      countP_isOnly]
    by_cases hall : ∀ entry ∈ before, ∃ role, IsOnly entry.2 role
    · obtain ⟨roles, hfits, hassign⟩ :=
        Fits.of_isOnly hmasks.lt hall fun role => hcounts role ▸ hneeded role
      have hfull := countP_eq_length.mpr fun entry hmem => decide_eq_true (hall entry hmem)
      rw [hfull, decide_eq_true rfl]
      exact ⟨iff_of_true rfl ⟨hne, roles, hfits⟩, fun _ => ⟨roles, hfits, hassign.symm⟩, nofun⟩
    · have hnot : (before.countP fun entry => ∃ role, IsOnly entry.2 role) ≠ before.length :=
        fun heq => hall fun entry hmem => of_decide_eq_true (countP_eq_length.mp heq entry hmem)
      rw [decide_eq_false hnot]
      exact Exact.refused (hbefore.resolve_left hall)
  | cons player rest ih =>
    obtain ⟨guid, mask⟩ := player
    have hmask : mask < 16 := hmasks.lt (guid, mask) (by simp)
    rw [length_cons, scan]
    have hget : (((before ++ (guid, mask) :: rest)[before.length]?.map Prod.snd).getD 0) = mask := by
      simp
    rw [hget]
    by_cases hnone : withoutLeader mask = 0
    · rw [if_pos hnone]
      exact ⟨_, rfl, Exact.refused (not_formable_of_none hnone)⟩
    rw [if_neg hnone]
    rcases tryRole_spec hmasks hself (hneeded .damage) (hcounts .damage) with
      ⟨outcome, hblock, hexact⟩ | ⟨damage, hblock, hdamage, hdamage', htriedD⟩
    · rw [hblock]
      exact ⟨outcome, rfl, hexact⟩
    rw [hblock, andThen_ok]
    rcases tryRole_spec hmasks hself (hneeded .healer) (hcounts .healer) with
      ⟨outcome, hblock, hexact⟩ | ⟨healer, hblock, hhealer, hhealer', htriedH⟩
    · rw [hblock]
      exact ⟨outcome, rfl, hexact⟩
    rw [hblock, andThen_ok]
    rcases tryRole_spec hmasks hself (hneeded .tank) (hcounts .tank) with
      ⟨outcome, hblock, hexact⟩ | ⟨tank, hblock, htank, htank', htriedT⟩
    · rw [hblock]
      exact ⟨outcome, rfl, hexact⟩
    rw [hblock, andThen_ok]
    have hshift : before ++ (guid, mask) :: rest = (before ++ [(guid, mask)]) ++ rest := by simp
    have hit : before.length + 1 = (before ++ [(guid, mask)]).length := by simp
    have htried : (∃ role, IsOnly mask role) ∨ ¬ Formable (before ++ (guid, mask) :: rest) := by
      refine (isOnly_or_two hmask hnone).imp_right fun htwo => ?_
      refine not_formable_of_sub hmask htwo fun role hsel => ?_
      have hnot : ∀ other, Selects mask other → ¬ IsOnly mask other := fun other _ honly => by
        obtain ⟨another, hanother, hdiff⟩ := htwo other (selects_of_isOnly honly)
        exact hdiff (eq_of_isOnly honly hanother)
      cases role with
      | damage => exact htriedD hsel (hnot _ hsel)
      | healer => exact htriedH hsel (hnot _ hsel)
      | tank => exact htriedT hsel (hnot _ hsel)
    rw [hshift] at hmasks hself hne hbefore htried ⊢
    rw [hit]
    refine ih hmasks hself hne
      (fun role => match role with | .damage => damage | .healer => healer | .tank => tank)
      (fun role => by cases role <;> assumption) (fun role => by cases role <;> assumption) ?_
    rcases hbefore with hall | hnot
    · refine htried.imp_left fun hlast entry hmem => ?_
      rcases mem_append.mp hmem with hold | hnew
      · exact hall entry hold
      · exact (mem_singleton.mp hnew) ▸ hlast
    · exact Or.inr hnot

/-- With enough depth for the calls the loop is exact. -/
theorem checkGroupRoles_spec (hmasks : Masks groles) (fuel : ℕ)
    (hfuel : (groles.map Prod.snd).sum < fuel) :
    ∃ outcome, checkGroupRoles fuel groles = some outcome ∧ Exact groles outcome := by
  induction fuel generalizing groles with
  | zero => exact absurd hfuel (Nat.not_lt_zero _)
  | succ fuel ih =>
    rw [checkGroupRoles]
    by_cases hempty : groles = []
    · rw [if_pos hempty]
      exact ⟨_, rfl, Exact.refused fun hform => hform.1 hempty⟩
    · rw [if_neg hempty]
      refine scan_spec (show Masks ([] ++ groles) from hmasks) (fun below hbelow hlt => ih hbelow ?_) hempty (fun _ => 0)
        (fun _ => Nat.zero_le _) (fun _ => rfl) (Or.inl nofun)
      have hlt' : (below.map Prod.snd).sum < (groles.map Prod.snd).sum := hlt
      omega

/-! ### The bound does not matter -/

variable {self' : LfgRolesMap → Option Outcome}

theorem tryRole_mono
    (hself : ∀ groles outcome, self groles = some outcome → self' groles = some outcome) {it : ℕ}
    {result : Except Outcome (ℕ × LfgRolesMap)}
    (h : tryRole self role it mask count groles = some result) :
    tryRole self' role it mask count groles = some result := by
  rw [tryRole] at h ⊢
  by_cases hsel : mask &&& role.flag ≠ 0
  · rw [if_pos hsel] at h ⊢
    by_cases honly : mask ≠ role.flag
    · rw [if_pos honly] at h ⊢
      cases hcall : self (change groles it (· - role.flag)) with
      | none => rw [hcall] at h; exact nomatch h
      | some outcome =>
        rw [hcall] at h
        rw [hself _ _ hcall]
        exact h
    · rw [if_neg honly] at h ⊢
      exact h
  · rw [if_neg hsel] at h ⊢
    exact h

variable {outcome : Outcome}

theorem andThen_mono {block block' : Option (Except Outcome (ℕ × LfgRolesMap))}
    {next next' : ℕ → LfgRolesMap → Option Outcome}
    (hblock : ∀ result, block = some result → block' = some result)
    (hnext : ∀ count groles, next count groles = some outcome → next' count groles = some outcome)
    (h : andThen block next = some outcome) : andThen block' next' = some outcome := by
  cases hresult : block with
  | none => rw [hresult] at h; exact nomatch h
  | some result =>
    rw [hresult] at h
    rw [hblock result hresult]
    cases result with
    | error early => exact h
    | ok going => exact hnext _ _ h

theorem scan_mono
    (hself : ∀ groles outcome, self groles = some outcome → self' groles = some outcome)
    (left it damage healer tank : ℕ)
    (h : scan self left it damage healer tank groles = some outcome) :
    scan self' left it damage healer tank groles = some outcome := by
  induction left generalizing it damage healer tank groles with
  | zero => exact h
  | succ left ih =>
    rw [scan] at h ⊢
    split_ifs at h ⊢ with hnone
    · exact h
    · refine andThen_mono (fun _ => tryRole_mono hself) (fun damage _ h => ?_) h
      refine andThen_mono (fun _ => tryRole_mono hself) (fun healer _ h => ?_) h
      exact andThen_mono (fun _ => tryRole_mono hself) (fun tank _ h => ih _ _ _ _ h) h

/-- More depth gives the same result. -/
theorem checkGroupRoles_mono {fuel more : ℕ} (h : checkGroupRoles fuel groles = some outcome)
    (hle : fuel ≤ more) : checkGroupRoles more groles = some outcome := by
  induction fuel generalizing groles outcome more with
  | zero => exact nomatch h
  | succ fuel ih =>
    obtain ⟨more, rfl⟩ : ∃ m, more = m + 1 := ⟨more - 1, by omega⟩
    rw [checkGroupRoles] at h ⊢
    split_ifs at h ⊢ with hempty
    · exact h
    · exact scan_mono (fun _ _ hcall => ih hcall (Nat.le_of_succ_le_succ hle)) _ _ _ _ _ h

/-- **Exactness**: with any bound above the sum of the masks the search returns the same, and it is
exact. -/
theorem checkGroupRoles_exact (hmasks : Masks groles) :
    ∃ outcome, (∀ fuel, (groles.map Prod.snd).sum < fuel →
        checkGroupRoles fuel groles = some outcome) ∧ Exact groles outcome := by
  obtain ⟨outcome, hreturn, hexact⟩ := checkGroupRoles_spec hmasks _ (Nat.lt_succ_self _)
  exact ⟨outcome, fun fuel hfuel => checkGroupRoles_mono hreturn hfuel, hexact⟩

/-- The theorem at a group of a leader who can tank or heal, a healer and three others. -/
theorem checkGroupRoles_exact_five :
    ∃ outcome, (∀ fuel, ([(1, 7), (2, 4), (3, 8), (4, 8), (5, 10)].map Prod.snd).sum < fuel →
        checkGroupRoles fuel [(1, 7), (2, 4), (3, 8), (4, 8), (5, 10)] = some outcome) ∧
      Exact [(1, 7), (2, 4), (3, 8), (4, 8), (5, 10)] outcome :=
  checkGroupRoles_exact ⟨by decide, by decide⟩

end InPlace

end IscServer.DungeonFinding
