import IscServer.Combat.CombatRuns
import IscServer.Combat.ThreatOrder

/-!
# The Choice of a Victim

`ReselectVictim` looks at the sorted threat list from the top and stops early: at the first entry
that is not above 110% of the current victim, and at the current victim. `Chosen` is the rule that it
is to follow, in terms of the whole list. Entries that compare equal may be in any order.

## Main results

* `searchVictim_eq` — the loop finds the first entry in melee range above 110%.
* `selectVictim_chosen` — the choice from a sorted list follows the rule.
* `reselectVictim_chosen` — and so does `ReselectVictim`, which does not reach its `ABORT`.
-/

namespace IscServer

open List Bool

namespace Combat

namespace World

open ThreatReference

variable {U : Type} {melee : U → Bool} {fixate current : Option (ℕ × ThreatReference U)}
  {list : List (ℕ × ThreatReference U)} {old e : ℕ × ThreatReference U}

/-! ### The rule -/

/-- No entry is above this one. -/
def isTop (list : List (ℕ × ThreatReference U)) (e : ℕ × ThreatReference U) : Bool :=
  list.all fun other => !e.2.compareReferencesLT other.2 1

/-- The entry takes the place of the current victim: above 110% in melee range, or above 130% at the
top. -/
def beats (melee : U → Bool) (list : List (ℕ × ThreatReference U)) (old e : ℕ × ThreatReference U) :
    Bool :=
  old.2.compareReferencesLT e.2 (11 / 10) &&
    (melee e.2.victim || (isTop list e && old.2.compareReferencesLT e.2 (13 / 10)))

/-- **The rule** of 110% and 130%. -/
structure Chosen (melee : U → Bool) (fixate current : Option (ℕ × ThreatReference U))
    (list : List (ℕ × ThreatReference U)) (result : Option ℕ) : Prop where
  none_iff : result = none ↔ ∀ e ∈ list, e.2.isAvailable = false
  fixated : ∀ f, fixate = some f → f.2.isAvailable = true → result = some f.1
  top : (∀ f, fixate = some f → f.2.isAvailable = false) → (∃ e ∈ list, e.2.isAvailable = true) →
    (∀ c, current = some c → c.2.isOffline = true) → result = list.head?.map Prod.fst
  kept : (∀ f, fixate = some f → f.2.isAvailable = false) → (∃ e ∈ list, e.2.isAvailable = true) →
    ∀ old, current = some old → old.2.isOffline = false →
      result = some ((list.find? (beats melee list old)).getD old).1
  no_abort : ∀ old, current = some old → old.2.isOffline = false →
    searchVictim melee old list ≠ none

/-- The list is sorted: no entry is below one that comes after it. -/
def Sorted (list : List (ℕ × ThreatReference U)) : Prop :=
  list.Pairwise fun e later => e.2.compareReferencesLT later.2 1 = false

/-! ### The search -/

theorem compareReferencesLT_eq_false {a b : ThreatReference U} :
    a.compareReferencesLT b 1 = false ↔ b.sortKey ≤ a.sortKey := by
  rw [← not_eq_true, compareReferencesLT_iff, not_lt]
  rfl

variable {weight : ℚ} {a b : ThreatReference U}

/-- Below an entry that does not beat the current victim, none does. -/
theorem not_above_of_le {c : ThreatReference U} (h : c.sortKey ≤ b.sortKey)
    (hnot : a.compareReferencesLT b weight = false) : a.compareReferencesLT c weight = false := by
  rw [← not_eq_true, compareReferencesLT_iff] at hnot ⊢
  exact fun hlt => hnot (hlt.trans_le h)

/-- Nothing that is not above the current victim is above 110% of it. -/
theorem not_above_of_not_above (hweight : 1 ≤ weight) (h : b.sortKey ≤ a.sortKey) :
    a.compareReferencesLT b weight = false := by
  rw [← not_eq_true, compareReferencesLT_iff, not_lt]
  exact h.trans (weightedKey_mono hweight a)

/-- **The loop** of `ReselectVictim` finds the first entry in melee range above 110% of the current
victim, which it meets if there is none. -/
theorem searchVictim_eq (hsorted : Sorted list) (hold : old ∈ list)
    (hid : ∀ e ∈ list, e.1 = old.1 → e = old) :
    searchVictim melee old list = some ((list.find? fun e =>
      old.2.compareReferencesLT e.2 (11 / 10) && melee e.2.victim).getD old).1 := by
  induction list with
  | nil => exact absurd hold not_mem_nil
  | cons next rest ih =>
    obtain ⟨hnext, hrest⟩ := pairwise_cons.mp hsorted
    have hbelow : ∀ e ∈ next :: rest, e.2.sortKey ≤ next.2.sortKey := by
      intro e hmem
      rcases mem_cons.mp hmem with rfl | hlater
      · exact le_refl _
      · exact compareReferencesLT_eq_false.mp (hnext e hlater)
    rw [searchVictim]
    by_cases hfound : next.1 = old.1
    · rw [if_pos hfound]
      obtain rfl := hid next mem_cons_self hfound
      rw [List.find?_eq_none.mpr fun e hmem => ?_]
      · rfl
      · rw [not_above_of_not_above (by norm_num) (hbelow e hmem)]
        exact Bool.false_ne_true
    rw [if_neg hfound]
    by_cases habove : old.2.compareReferencesLT next.2 (11 / 10) = true
    · rw [habove, Bool.not_true, if_neg Bool.false_ne_true]
      by_cases hmelee : melee next.2.victim = true
      · rw [if_pos hmelee, List.find?_cons_of_pos (by rw [habove, hmelee]; rfl)]
        rfl
      · rw [if_neg hmelee, List.find?_cons_of_neg (by rw [habove]; exact hmelee)]
        have hold' : old ∈ rest := (mem_cons.mp hold).resolve_left fun heq =>
          hfound (congrArg Prod.fst heq.symm)
        exact ih hrest hold' fun e hmem => hid e (mem_cons_of_mem _ hmem)
    · rw [Bool.not_eq_true] at habove
      rw [habove, Bool.not_false, if_pos rfl, List.find?_eq_none.mpr fun e hmem => ?_]
      · rfl
      · rw [not_above_of_le (hbelow e hmem) habove]
        exact Bool.false_ne_true

/-! ### The choice -/

variable {highest : ℕ × ThreatReference U} {rest : List (ℕ × ThreatReference U)}

section

variable (hsorted : Sorted (highest :: rest))
include hsorted

theorem Sorted.le_head : ∀ e ∈ highest :: rest, e.2.sortKey ≤ highest.2.sortKey := by
  intro e hmem
  rcases mem_cons.mp hmem with rfl | hlater
  · exact le_refl _
  · exact compareReferencesLT_eq_false.mp ((pairwise_cons.mp hsorted).1 e hlater)

/-- The first entry is at the top. -/
theorem Sorted.isTop_head : isTop (highest :: rest) highest = true := by
  rw [isTop, all_eq_true]
  intro e hmem
  rw [compareReferencesLT_eq_false.mpr (hsorted.le_head e hmem)]
  rfl

/-- An entry at the top compares with others as the first one does. -/
theorem sortKey_eq_of_isTop (hmem : e ∈ highest :: rest) (htop : isTop (highest :: rest) e = true) : e.2.sortKey = highest.2.sortKey := by
  refine le_antisymm (hsorted.le_head e hmem) ?_
  have hhead := all_eq_true.mp htop highest mem_cons_self
  rw [not_eq_true'] at hhead
  exact compareReferencesLT_eq_false.mp hhead

end

/-- Entries that do not beat the current victim because they are not above it. -/
theorem beats_eq_false (h : old.2.compareReferencesLT e.2 (11 / 10) = false) :
    beats melee list old e = false := by
  rw [beats, h, Bool.false_and]

/-- Below 130% at the top, only entries in melee range beat the current victim. -/
theorem beats_eq_of_not_above (hsorted : Sorted (highest :: rest))
    (hnot : old.2.compareReferencesLT highest.2 (13 / 10) = false) (hmem : e ∈ highest :: rest) :
    beats melee (highest :: rest) old e =
      (old.2.compareReferencesLT e.2 (11 / 10) && melee e.2.victim) := by
  rw [beats]
  by_cases htop : isTop (highest :: rest) e = true
  · have hkey := sortKey_eq_of_isTop hsorted hmem htop
    rw [not_above_of_le hkey.le hnot, Bool.and_false, Bool.or_false]
  · rw [Bool.not_eq_true] at htop
    rw [htop, Bool.false_and, Bool.or_false]

/-- With a current victim that is not offline. -/
theorem selectVictim_kept (hsorted : Sorted (highest :: rest)) (hold : old ∈ highest :: rest)
    (hid : ∀ e ∈ highest :: rest, e.1 = old.1 → e = old)
    (hfixate : fixate.filter (fun f => f.2.isAvailable) = none)
    (hcurrent : current.filter (fun c => !c.2.isOffline) = some old)
    (havailable : highest.2.isAvailable = true) :
    selectVictim melee fixate current (highest :: rest) =
      some (((highest :: rest).find? (beats melee (highest :: rest) old)).getD old).1 := by
  have hhead : highest ∈ highest :: rest := mem_cons_self
  rw [selectVictim, hfixate]
  rw [havailable, Bool.not_true, if_neg Bool.false_ne_true, hcurrent]
  dsimp only
  by_cases hsame : highest.1 = old.1
  · rw [if_pos hsame]
    obtain rfl := hid highest hhead hsame
    rw [List.find?_eq_none.mpr fun e hmem => ?_]
    · rfl
    · rw [beats_eq_false (not_above_of_not_above (by norm_num) (hsorted.le_head e hmem))]
      exact Bool.false_ne_true
  rw [if_neg hsame]
  by_cases habove : old.2.compareReferencesLT highest.2 (11 / 10) = true
  · rw [habove, Bool.not_true, if_neg Bool.false_ne_true]
    by_cases hfar : old.2.compareReferencesLT highest.2 (13 / 10) = true
    · rw [if_pos hfar, List.find?_cons_of_pos]
      · rfl
      · rw [beats, habove, hfar, hsorted.isTop_head, Bool.and_true, Bool.or_true, Bool.and_true]
    rw [if_neg hfar]
    by_cases hmelee : melee highest.2.victim = true
    · rw [if_pos hmelee, List.find?_cons_of_pos]
      · rfl
      · rw [beats, habove, hmelee, Bool.true_or, Bool.and_true]
    · rw [if_neg hmelee, searchVictim_eq hsorted hold hid]
      rw [Bool.not_eq_true] at hfar
      rw [List.find?_congr fun e hmem => (beats_eq_of_not_above hsorted hfar hmem).symm]
  · rw [Bool.not_eq_true] at habove
    rw [habove, Bool.not_false, if_pos rfl, List.find?_eq_none.mpr fun e hmem => ?_]
    · rfl
    · rw [beats_eq_false (not_above_of_le (hsorted.le_head e hmem) habove)]
      exact Bool.false_ne_true

/-- **The choice from a sorted list** follows the rule. -/
theorem selectVictim_chosen (hsorted : Sorted list) (hfixate : ∀ f, fixate = some f → f ∈ list)
    (hcurrent : ∀ c, current = some c → c ∈ list)
    (hid : ∀ e ∈ list, ∀ e' ∈ list, e.1 = e'.1 → e = e') :
    Chosen melee fixate current list (selectVictim melee fixate current list) := by
  have habort : ∀ old, current = some old → old.2.isOffline = false →
      searchVictim melee old list ≠ none := by
    intro old hold _
    have hmem := hcurrent old hold
    rw [searchVictim_eq hsorted hmem fun e he => hid e he old hmem]
    exact Option.some_ne_none _
  cases hfilter : fixate.filter fun f => f.2.isAvailable with
  | some f =>
    obtain ⟨hf, havailable⟩ := Option.filter_eq_some_iff.mp hfilter
    have hresult : selectVictim melee fixate current list = some f.1 := by
      rw [selectVictim.eq_def, hfilter]
    have hnot : ¬ ∀ f, fixate = some f → f.2.isAvailable = false := fun hall =>
      false_ne_true ((hall f hf).symm.trans havailable)
    refine ⟨?_, fun g hg _ => ?_, fun hall => absurd hall hnot, fun hall => absurd hall hnot, habort⟩
    · rw [hresult]
      refine iff_of_false (Option.some_ne_none _) fun hall => ?_
      exact false_ne_true ((hall f (hfixate f hf)).symm.trans havailable)
    · rw [hresult, Option.some.inj (hf.symm.trans hg)]
  | none =>
    have hnone : ∀ f, fixate = some f → f.2.isAvailable = true → False := fun f hf havailable =>
      Option.some_ne_none f ((Option.filter_eq_some_iff.mpr ⟨hf, havailable⟩).symm.trans hfilter)
    cases hlist : list with
    | nil =>
      have hresult : selectVictim melee fixate current [] = none := by rw [selectVictim, hfilter]
      refine ⟨iff_of_true hresult nofun, fun f hf hyes => (hnone f hf hyes).elim, ?_, ?_,
        hlist ▸ habort⟩
      · rintro - ⟨e, hmem, -⟩
        exact absurd hmem not_mem_nil
      · rintro - ⟨e, hmem, -⟩
        exact absurd hmem not_mem_nil
    | cons highest rest =>
      rw [hlist] at hsorted hfixate hcurrent hid habort
      cases havailable : highest.2.isAvailable with
      | false =>
        have hall : ∀ e ∈ highest :: rest, e.2.isAvailable = false := fun e hmem => by
          rw [← not_eq_true]
          intro hyes
          have hhead := isAvailable_mono (hsorted.le_head e hmem) hyes
          exact false_ne_true (havailable.symm.trans hhead)
        have hnot : ¬ ∃ e ∈ highest :: rest, e.2.isAvailable = true := by
          rintro ⟨e, hmem, hyes⟩
          exact false_ne_true ((hall e hmem).symm.trans hyes)
        have hresult : selectVictim melee fixate current (highest :: rest) = none := by
          rw [selectVictim, hfilter]
          rw [havailable]
          rfl
        exact ⟨iff_of_true hresult hall, fun f hf hyes => (hnone f hf hyes).elim,
          fun _ hex => absurd hex hnot, fun _ hex => absurd hex hnot, habort⟩
      | true =>
        have hsome : ¬ ∀ e ∈ highest :: rest, e.2.isAvailable = false := fun hall =>
          false_ne_true ((hall highest mem_cons_self).symm.trans havailable)
        cases hfilter' : current.filter fun c => !c.2.isOffline with
        | none =>
          have hresult : selectVictim melee fixate current (highest :: rest) =
              some highest.1 := by
            rw [selectVictim, hfilter]
            rw [havailable, hfilter']
            rfl
          refine ⟨?_, fun f hf hyes => (hnone f hf hyes).elim, fun _ _ _ => hresult, ?_, habort⟩
          · rw [hresult]
            exact iff_of_false (Option.some_ne_none _) hsome
          · intro _ _ old hold honline
            have hyes : current.filter (fun c => !c.2.isOffline) = some old :=
              Option.filter_eq_some_iff.mpr ⟨hold, by rw [honline]; rfl⟩
            exact absurd (hyes.symm.trans hfilter') (Option.some_ne_none _)
        | some old =>
          obtain ⟨hold, honline⟩ := Option.filter_eq_some_iff.mp hfilter'
          have hmem := hcurrent old hold
          have hresult := @selectVictim_kept U melee _ _ _ _ _ hsorted hmem
            (fun e he => hid e he old hmem) hfilter hfilter' havailable
          refine ⟨?_, fun f hf hyes => (hnone f hf hyes).elim, fun _ _ hoff => ?_, ?_, habort⟩
          · rw [hresult]
            exact iff_of_false (Option.some_ne_none _) hsome
          · rw [hoff old hold] at honline
            exact absurd honline false_ne_true
          · intro _ _ old' hold' _
            obtain rfl := Option.some.inj (hold.symm.trans hold')
            exact hresult

/-! ### `ReselectVictim` -/

/-- The references that a manager points to are in its list, and exist. -/
def Listed (w : World U) (o : U) : Prop :=
  ∀ id, w.Refers o id → id ∈ (w.threat o).sortedThreatList ∧ ∃ v, w.threatKey id = some (o, v)

variable {w : World U} {o : U}

theorem Listed.quiet {w' : World U} (h : w.Listed o) (hq : Quiet w w') : w'.Listed o := by
  intro id hrefers
  obtain ⟨hmem, v, hkey⟩ := h id (hq.refers o id hrefers)
  exact ⟨hq.sorted o ▸ hmem, v, (hq.key id).trans hkey⟩

variable (E : Env U)

/-- An entry that is pointed to is in the threat list. -/
theorem Listed.lookup_mem (h : w.Listed o) (t : ℕ) {ref : Option ℕ}
    (hrefers : ∀ id, ref = some id → w.Refers o id) (hlookup : ref.bind w.lookup = some e) :
    e ∈ w.threatList E t o := by
  obtain ⟨id, hid, hlookup⟩ := Option.bind_eq_some_iff.mp hlookup
  have hmem := (h id (hrefers id hid)).1
  exact mem_filterMap.mpr ⟨id, (E.heapOrder_perm t _).mem_iff.mpr hmem, hlookup⟩

variable [DecidableEq U]

/-- A reference is in the threat list once. -/
theorem eq_of_mem_threatList {t : ℕ} {e e' : ℕ × ThreatReference U} (h : e ∈ w.threatList E t o)
    (h' : e' ∈ w.threatList E t o) (hid : e.1 = e'.1) : e = e' := by
  obtain ⟨id, -, hlookup⟩ := mem_filterMap.mp h
  obtain ⟨id', -, hlookup'⟩ := mem_filterMap.mp h'
  rw [fst_of_lookup hlookup, fst_of_lookup hlookup'] at hid
  rw [hid] at hlookup
  exact Option.some.inj (hlookup.symm.trans hlookup')

theorem registerForAIUpdate_victims (w : World U) (o guid u : U) :
    ((w.registerForAIUpdate o guid).threat u).currentVictimRef = (w.threat u).currentVictimRef ∧
      ((w.registerForAIUpdate o guid).threat u).fixateRef = (w.threat u).fixateRef := by
  rw [registerForAIUpdate, setThreat]
  dsimp only
  by_cases howner : u = o
  · subst howner
    rw [Function.update_self]
    exact ⟨rfl, rfl⟩
  · rw [Function.update_of_ne howner]
    exact ⟨rfl, rfl⟩

/-- The update of the online states leaves the choices of the managers as they are. -/
theorem updateOffline_victims (t : ℕ) (w : World U) (id : ℕ) (o : U) :
    ((w.updateOffline E t id).threat o).currentVictimRef = (w.threat o).currentVictimRef ∧
      ((w.updateOffline E t id).threat o).fixateRef = (w.threat o).fixateRef := by
  rw [updateOffline]
  cases hr : w.threatRefs id with
  | none => exact ⟨rfl, rfl⟩
  | some r =>
    dsimp only
    split_ifs
    · exact ⟨rfl, rfl⟩
    · exact ⟨rfl, rfl⟩
    all_goals exact registerForAIUpdate_victims _ _ _ _

theorem foldl_updateOffline_victims (t : ℕ) (ids : List ℕ) (w : World U) (o : U) :
    ((ids.foldl (updateOffline E t) w).threat o).currentVictimRef =
        (w.threat o).currentVictimRef ∧
      ((ids.foldl (updateOffline E t) w).threat o).fixateRef = (w.threat o).fixateRef := by
  induction ids generalizing w with
  | nil => exact ⟨rfl, rfl⟩
  | cons id ids ih =>
    obtain ⟨hcurrent, hfixate⟩ := updateOffline_victims E t w id o
    obtain ⟨hcurrent', hfixate'⟩ := ih (updateOffline E t w id)
    exact ⟨hcurrent'.trans hcurrent, hfixate'.trans hfixate⟩

/-- **`ReselectVictim`** follows the rule for every sorted threat list. -/
theorem reselectVictim_chosen (t : ℕ) (w : World U) (o : U) (h : w.Listed o)
    (hsorted : Sorted ((w.reselectVictim E t o).2.threatList E t o)) :
    Chosen (E.isWithinMeleeRange t o)
      ((w.threat o).fixateRef.bind (w.reselectVictim E t o).2.lookup)
      ((w.threat o).currentVictimRef.bind (w.reselectVictim E t o).2.lookup)
      ((w.reselectVictim E t o).2.threatList E t o) (w.reselectVictim E t o).1 := by
  have hquiet := (reselectVictim_spec E t w o).1
  have hlisted := h.quiet hquiet
  have hresult : (w.reselectVictim E t o).1 = selectVictim (E.isWithinMeleeRange t o)
      ((w.threat o).fixateRef.bind (w.reselectVictim E t o).2.lookup)
      ((w.threat o).currentVictimRef.bind (w.reselectVictim E t o).2.lookup)
      ((w.reselectVictim E t o).2.threatList E t o) ∧
      ((w.reselectVictim E t o).2.threat o).currentVictimRef = (w.threat o).currentVictimRef ∧
      ((w.reselectVictim E t o).2.threat o).fixateRef = (w.threat o).fixateRef := by
    rw [reselectVictim]
    by_cases hempty : (w.threat o).sortedThreatList = []
    · rw [if_pos hempty]
      refine ⟨?_, rfl, rfl⟩
      have hlist : w.threatList E t o = [] := by
        rw [threatList, hempty, (E.heapOrder_perm t []).eq_nil, filterMap_nil]
      have hnone : ∀ ref : Option ℕ, (∀ id, ref = some id → w.Refers o id) → ref = none :=
        fun ref hrefers => Option.eq_none_iff_forall_ne_some.mpr fun id hid =>
          not_mem_nil (hempty ▸ (h id (hrefers id hid)).1)
      rw [hlist, hnone (w.threat o).fixateRef fun id hid => Or.inr (Or.inl hid)]
      rfl
    · rw [if_neg hempty]
      dsimp only
      obtain ⟨hcurrent, hfixate⟩ := foldl_updateOffline_victims E t
        (entriesOf (E.order t) (w.threat o).myThreatListEntries) w o
      rw [hcurrent, hfixate]
      exact ⟨rfl, rfl, rfl⟩
  obtain ⟨hselect, hcurrent, hfixate⟩ := hresult
  rw [hselect]
  refine selectVictim_chosen hsorted (fun f hf => ?_) (fun c hc => ?_) fun e he e' he' =>
    eq_of_mem_threatList E he he'
  · exact hlisted.lookup_mem E t (fun id hid => Or.inr (Or.inl (hfixate.trans hid))) hf
  · exact hlisted.lookup_mem E t (fun id hid => Or.inl (hcurrent.trans hid)) hc

local instance : NeZero 3 := ⟨by decide⟩

/-- A creature that threatens two players and attacks the second, who is immune to it. -/
def threatened : World (Fin 3) where
  threatRefs id := if id = 0 then some { owner := 0, victim := 1, online := .online, baseAmount := 10 }
    else if id = 1 then some { owner := 0, victim := 2, online := .suppressed, baseAmount := 90 }
    else none
  nextRef := 2
  threat u := if u = 0 then
      { ownerCanHaveThreatList := true
        sortedThreatList := [0, 1]
        myThreatListEntries := fun v => if v = 1 then some 0 else if v = 2 then some 1 else none
        currentVictimRef := some 1 }
    else {}

theorem listed_threatened : threatened.Listed 0 := by
  have hids : ∀ id, threatened.Refers 0 id → id = 0 ∨ id = 1 := by
    rintro id (hcurrent | hfixate | hsorted | ⟨v, hentry⟩)
    · exact Or.inr (Option.some.inj hcurrent).symm
    · exact absurd hfixate (Option.some_ne_none _).symm
    · simpa [threatened] using hsorted
    · have hentry' : (if v = 1 then some 0 else if v = 2 then some 1 else none) = some id := hentry
      split_ifs at hentry'
      · exact Or.inl (Option.some.inj hentry').symm
      · exact Or.inr (Option.some.inj hentry').symm
  intro id hrefers
  rcases hids id hrefers with rfl | rfl
  · exact ⟨by decide, 1, rfl⟩
  · exact ⟨by decide, 2, rfl⟩

/-- The theorem there. -/
theorem reselectVictim_chosen_threatened :
    Chosen (Execution.threeUnits.isWithinMeleeRange 9 0)
      ((threatened.threat 0).fixateRef.bind
        (threatened.reselectVictim Execution.threeUnits 9 0).2.lookup)
      ((threatened.threat 0).currentVictimRef.bind
        (threatened.reselectVictim Execution.threeUnits 9 0).2.lookup)
      ((threatened.reselectVictim Execution.threeUnits 9 0).2.threatList Execution.threeUnits 9 0)
      (threatened.reselectVictim Execution.threeUnits 9 0).1 := by
  refine reselectVictim_chosen Execution.threeUnits 9 threatened 0 listed_threatened ?_
  rw [Sorted]
  decide +kernel

end World

end Combat

end IscServer
