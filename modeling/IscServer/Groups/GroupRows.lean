import IscServer.Groups.GroupSound

/-!
# Raid Roles in the Table

The rows of `group_member` should hold the flags and the subgroup that each member has in memory,
so that `LoadMemberFromDB` restores them after a restart. `AddMember`, `RemoveMember`,
`ChangeMembersGroup` and `SetGroupMemberFlag` write the row of the member they are about. What they
change of other members stays in memory: `RemoveUniqueGroupMemberFlag` takes the role of main tank
or main assist from whoever has it, and `ChangeLeader` the flag of an assistant from the new
leader.

## Main results

* `restored_iff` — in every run the table can restore the group after every step exactly when no
  step takes a role from a member whose row it does not write.
* `mainTank_not_restored` — a second main tank is named, and both rows have the flag.
-/

namespace IscServer.Groups

open List Function

variable {guid : Guid} {slots : List MemberSlot} {s : State} {g : Group}

/-! ### Restoring a group -/

/-- The row that holds a slot. -/
def MemberSlot.row (slot : MemberSlot) : MemberRow := ⟨slot.flags, slot.group⟩

/-- `Group::LoadMemberFromDB`: a character that no longer exists is skipped. -/
def loadMemberFromDB (known : Guid → Bool) (guid : Guid) (row : MemberRow) (g : Group) : Group :=
  if known guid then
    { g with
      memberSlots := g.memberSlots ++ [⟨guid, row.subgroup, row.memberFlags⟩]
      subGroupsCounts := g.subGroupsCounts.map fun counts =>
        subGroupCounterIncrease counts row.subgroup }
  else g

/-- `GroupMgr::LoadGroups` for the members of one group: the rows in the order in which the
database gives them. -/
def loadMembers (known : Guid → Bool) (rows : Guid → Option MemberRow) (keys : List Guid)
    (g : Group) : Group :=
  keys.foldl (fun g guid => (rows guid).elim g fun row => loadMemberFromDB known guid row g) g

/-- The group as `LoadGroupFromDB` leaves it. -/
def loadGroup (g : Group) : Group :=
  { g with
    memberSlots := []
    subGroupsCounts := if g.raid then some (initRaidSubGroupsCounter []) else none }

/-- The keys of a table, each once. -/
structure Enumerates (keys : List Guid) (rows : Guid → Option MemberRow) : Prop where
  nodup : keys.Nodup
  mem_iff : ∀ guid, guid ∈ keys ↔ (rows guid).isSome

/-- **Roles that survive a restart**: at most one main tank and one main assist, the rows are
those of the slots, and loading them in any order gives every member its slot back. -/
structure Restorable (s : State) : Prop where
  unique : ∀ flag, flag ≠ .assistant →
    (s.group.memberSlots.countP fun slot => slot.flags flag) ≤ 1
  rows : ∀ guid, s.rows guid = (getMemberSlot guid s.group.memberSlots).map MemberSlot.row
  reload : ∀ known keys, Enumerates keys s.rows → ∀ guid, known guid = true →
    getMemberSlot guid (loadMembers known s.rows keys (loadGroup s.group)).memberSlots =
      getMemberSlot guid s.group.memberSlots

/-- What is asked of a step. -/
def Restored (s : State) (event : Event) : Prop :=
  (step s event).alive = true → Restorable (step s event)

/-- The events that occur: a player who joins is not in the group. -/
def Joining (s : State) : Event → Prop
  | .addMember guid => s.alive = true → guid ∉ s.group.guids
  | _ => True

/-- The group goes on after `RemoveMember` has taken the member out. -/
def Survives (guid : Guid) (kick outside : Bool) (online : Guid → Bool) (s : State) : Prop :=
  ¬ (s.group.lfg ∧ kick) ∧ s.group.removeThreshold < s.group.memberSlots.length ∧
    ¬ (s.group.lfg ∧ (remaining guid online s).memberSlots.length = 1 ∧
      (¬ online (remaining guid online s).leaderGuid ∨ outside)) ∧
    s.group.disbandThreshold ≤ (remaining guid online s).onlineCount online

instance decidableSurvives (guid : Guid) (kick outside : Bool) (online : Guid → Bool) (s : State) :
    Decidable (Survives guid kick outside online s) := inferInstanceAs (Decidable (_ ∧ _))

/-- The steps that write what they change: the lead does not pass to an assistant, and nobody but
the member whose flag is set has the role of main tank or main assist that is given. -/
def Written (s : State) : Event → Prop
  | .removeMember guid kick outside online => s.alive = true →
      Survives guid kick outside online s → s.group.leaderGuid = guid →
      ∀ slot ∈ (removeSlot guid s).group.memberSlots.find? fun slot => online slot.guid,
        slot.flags .assistant = false
  | .changeLeader guid online => s.alive = true → online guid = true →
      ∀ slot ∈ getMemberSlot guid s.group.memberSlots, slot.flags .assistant = false
  | .setGroupMemberFlag guid _ flag => s.alive = true → s.group.raid = true →
      guid ∈ s.group.guids → flag ≠ .assistant →
      ∀ slot ∈ s.group.memberSlots, slot.flags flag = true → slot.guid = guid
  | .partyAssignment guid _ flag => s.alive = true →
      ∀ slot ∈ s.group.memberSlots, slot.flags flag = true → s.group.raid = true ∧ slot.guid = guid
  | _ => True

instance decidableJoining (s : State) : (event : Event) → Decidable (Joining s event)
  | .addMember _ => inferInstanceAs (Decidable (_ → _))
  | .removeMember .. | .changeMembersGroup .. | .convertToRaid | .changeLeader .. | .disband
  | .setGroupMemberFlag .. | .partyAssignment .. => isTrue trivial

instance decidableWritten (s : State) : (event : Event) → Decidable (Written s event)
  | .removeMember .. | .changeLeader .. | .setGroupMemberFlag .. | .partyAssignment .. =>
    inferInstanceAs (Decidable (_ → _))
  | .addMember .. | .changeMembersGroup .. | .convertToRaid | .disband => isTrue trivial

/-! ### Looking up slots -/

theorem getMemberSlot_append (first last : List MemberSlot) :
    getMemberSlot guid (first ++ last) =
      (getMemberSlot guid first).or (getMemberSlot guid last) := List.find?_append

theorem getMemberSlot_singleton (slot : MemberSlot) :
    getMemberSlot guid [slot] = if slot.guid = guid then some slot else none := by
  rw [getMemberSlot, List.find?_singleton]
  simp only [decide_eq_true_eq]

theorem getMemberSlot_eq_none : getMemberSlot guid slots = none ↔
    guid ∉ slots.map MemberSlot.guid := by
  rw [← getMemberSlot_isSome, Option.not_isSome_iff_eq_none]

variable {change : MemberSlot → MemberSlot}

/-- A change of one slot. -/
theorem getMemberSlot_modifySlot (hchange : ∀ slot, (change slot).guid = slot.guid) (other : Guid) :
    getMemberSlot other (modifySlot guid change slots) =
      if other = guid then (getMemberSlot other slots).map change else getMemberSlot other slots := by
  induction slots with
  | nil => split_ifs <;> rfl
  | cons slot slots ih =>
    rw [modifySlot]
    by_cases hguid : slot.guid = guid
    · rw [if_pos hguid]
      simp only [getMemberSlot, List.find?_cons, hchange]
      by_cases hother : slot.guid = other
      · rw [decide_eq_true hother, if_pos (hother.symm.trans hguid)]
        rfl
      · rw [decide_eq_false hother, if_neg fun h => hother (hguid.trans h.symm)]
    · rw [if_neg hguid]
      simp only [getMemberSlot, List.find?_cons]
      by_cases hother : slot.guid = other
      · rw [decide_eq_true hother, if_neg fun h => hguid (hother.trans h)]
      · rw [decide_eq_false hother]
        exact ih

/-- A change of all slots. -/
theorem getMemberSlot_map (hchange : ∀ slot, (change slot).guid = slot.guid) :
    getMemberSlot guid (slots.map change) = (getMemberSlot guid slots).map change := by
  rw [getMemberSlot, List.find?_map]
  simp only [Function.comp_def, hchange]
  rfl

/-- The member that leaves has no slot any more, the others keep theirs. -/
theorem getMemberSlot_eraseP (hnodup : (slots.map MemberSlot.guid).Nodup) (other : Guid) :
    getMemberSlot other (slots.eraseP fun slot => slot.guid = guid) =
      if other = guid then none else getMemberSlot other slots := by
  split_ifs with heq
  · rw [getMemberSlot_eq_none, guids_eraseP, heq]
    exact hnodup.not_mem_erase
  · clear hnodup
    induction slots with
    | nil => rfl
    | cons slot slots ih =>
      rw [eraseP_cons, getMemberSlot, getMemberSlot, List.find?_cons]
      by_cases hguid : slot.guid = guid
      · have hother : ¬ slot.guid = other := fun h => heq (h.symm.trans hguid)
        rw [decide_eq_true hguid, decide_eq_false hother]
        rfl
      · rw [decide_eq_false hguid, cond_false, List.find?_cons]
        by_cases hother : slot.guid = other
        · rw [decide_eq_true hother]
        · rw [decide_eq_false hother]
          exact ih

/-! ### Reloading -/

/-- A row that is loaded gives its slot. -/
theorem memberSlots_loadMembers (known : Guid → Bool) (rows : Guid → Option MemberRow)
    (keys : List Guid) (g : Group) :
    (loadMembers known rows keys g).memberSlots = g.memberSlots ++ keys.filterMap fun guid =>
      if known guid then (rows guid).map fun row => ⟨guid, row.subgroup, row.memberFlags⟩
      else none := by
  induction keys generalizing g with
  | nil => exact (append_nil _).symm
  | cons guid keys ih =>
    rw [loadMembers, foldl_cons, ← loadMembers, ih, filterMap_cons]
    cases hrow : rows guid with
    | none =>
      rw [Option.elim_none, Option.map_none, ite_self]
    | some row =>
      rw [Option.elim_some, loadMemberFromDB]
      cases known guid with
      | false => rfl
      | true =>
        simp only [if_true, Option.map_some, append_assoc, singleton_append]

/-- A slot is found in a list of slots that are made from their guids. -/
theorem getMemberSlot_filterMap {make : Guid → Option MemberSlot}
    (hmake : ∀ guid slot, make guid = some slot → slot.guid = guid) (keys : List Guid) :
    getMemberSlot guid (keys.filterMap make) = if guid ∈ keys then make guid else none := by
  induction keys with
  | nil => rfl
  | cons key keys ih =>
    rw [filterMap_cons]
    by_cases hkey : guid = key
    · subst hkey
      rw [if_pos mem_cons_self]
      cases hslot : make guid with
      | none =>
        rw [hslot, ite_self] at ih
        exact ih
      | some slot =>
        simp only [getMemberSlot, List.find?_cons, hmake guid slot hslot, decide_true]
    · have hmem : guid ∈ key :: keys ↔ guid ∈ keys := by
        rw [mem_cons]
        exact or_iff_right hkey
      simp only [hmem]
      cases hslot : make key with
      | none => exact ih
      | some slot =>
        have hne : ¬ slot.guid = guid := fun h => hkey (h.symm.trans (hmake key slot hslot))
        rw [getMemberSlot, List.find?_cons, decide_eq_false hne]
        exact ih

/-- Rows that hold the slots restore them, whatever the order. -/
theorem getMemberSlot_loadMembers {g : Group} {rows : Guid → Option MemberRow}
    (h : ∀ guid, rows guid = (getMemberSlot guid g.memberSlots).map MemberSlot.row)
    {known : Guid → Bool} {keys : List Guid} (hkeys : Enumerates keys rows)
    (hknown : known guid = true) :
    getMemberSlot guid (loadMembers known rows keys (loadGroup g)).memberSlots =
      getMemberSlot guid g.memberSlots := by
  rw [memberSlots_loadMembers]
  have hmake : ∀ key slot, (if known key = true then
      (rows key).map fun row => (⟨key, row.subgroup, row.memberFlags⟩ : MemberSlot) else none) =
        some slot → slot.guid = key := by
    intro key slot hslot
    split_ifs at hslot
    obtain ⟨row, -, rfl⟩ := Option.map_eq_some_iff.mp hslot
    rfl
  have hfound := @getMemberSlot_filterMap guid _ hmake keys
  refine hfound.trans ?_
  rw [if_pos hknown]
  simp only [hkeys.mem_iff, h guid]
  cases hslot : getMemberSlot guid g.memberSlots with
  | none => rfl
  | some slot =>
    obtain rfl := guid_of_getMemberSlot hslot
    rfl

/-! ### Roles -/

/-- How many members have a flag. -/
def holders (flag : GroupMemberFlags) (slots : List MemberSlot) : ℕ :=
  slots.countP fun slot => slot.flags flag

variable (flag : GroupMemberFlags)

theorem holders_cons (slot : MemberSlot) :
    holders flag (slot :: slots) = holders flag slots + if slot.flags flag then 1 else 0 :=
  countP_cons

/-- A change of one slot gives the flag to one more member at most. -/
theorem holders_modifySlot_le (change : MemberSlot → MemberSlot) :
    holders flag (modifySlot guid change slots) ≤ holders flag slots + 1 := by
  induction slots with
  | nil => exact Nat.zero_le _
  | cons slot slots ih =>
    rw [modifySlot]
    split_ifs
    · rw [holders_cons, holders_cons]
      split_ifs <;> omega
    · rw [holders_cons, holders_cons]
      omega

/-- A change that leaves the flag as it is. -/
theorem holders_modifySlot {flag : GroupMemberFlags}
    (hchange : ∀ slot, (change slot).flags flag = slot.flags flag) :
    holders flag (modifySlot guid change slots) = holders flag slots := by
  induction slots with
  | nil => rfl
  | cons slot slots ih =>
    rw [modifySlot]
    split_ifs
    · rw [holders_cons, holders_cons, hchange]
    · rw [holders_cons, holders_cons, ih]

theorem toggle_guid (apply : Bool) (slot : MemberSlot) :
    (toggleGroupMemberFlag flag apply slot).guid = slot.guid := rfl

variable {other : GroupMemberFlags}

theorem toggle_flags_of_ne {flag : GroupMemberFlags} (h : other ≠ flag) (apply : Bool)
    (slot : MemberSlot) : (toggleGroupMemberFlag flag apply slot).flags other = slot.flags other :=
  update_of_ne h _ _

theorem toggle_flags_self (apply : Bool) (slot : MemberSlot) :
    (toggleGroupMemberFlag flag apply slot).flags flag = apply := update_self _ _ _

theorem holders_removeUnique_self :
    holders flag (slots.map (toggleGroupMemberFlag flag false)) = 0 := by
  rw [holders, countP_map, countP_eq_zero]
  intro slot _
  rw [Function.comp_apply, toggle_flags_self]
  exact Bool.false_ne_true

theorem holders_removeUnique_of_ne {flag : GroupMemberFlags} (h : other ≠ flag) :
    holders other (slots.map (toggleGroupMemberFlag flag false)) = holders other slots := by
  rw [holders, countP_map, holders]
  congr 1
  funext slot
  exact toggle_flags_of_ne h false slot

/-- What the operations keep whatever they write: nobody has two slots, the group is a stored one,
and there is one main tank and one main assist at most. -/
structure Roles (g : Group) : Prop where
  nodup : g.guids.Nodup
  stored : g.stored = true
  unique : ∀ flag, flag ≠ .assistant → holders flag g.memberSlots ≤ 1

/-- The rows hold the slots. -/
def Agrees (s : State) : Prop :=
  ∀ guid, s.rows guid = (getMemberSlot guid s.group.memberSlots).map MemberSlot.row

theorem restorable_iff (h : Roles s.group) : Restorable s ↔ Agrees s :=
  ⟨fun hs => hs.rows, fun hs => ⟨h.unique, hs, fun _ _ hkeys _ hknown =>
    getMemberSlot_loadMembers hs hkeys hknown⟩⟩

/-! ### Each operation -/

theorem Roles.addMember (h : Roles s.group) (hnew : guid ∉ s.group.guids) :
    Roles (addMember guid s).2.group := by
  rw [Groups.addMember]
  split
  · exact h
  · refine ⟨?_, h.stored, fun flag hflag => ?_⟩
    · rw [Group.guids]
      rw [map_append, map_singleton, nodup_append]
      refine ⟨h.nodup, nodup_singleton _, fun other hother last hlast => ?_⟩
      rintro rfl
      have heq : other = guid := mem_singleton.mp hlast
      exact hnew (heq ▸ hother)
    · rw [holders, countP_append]
      exact h.unique flag hflag

theorem Agrees.addMember (h : Agrees s) (hstored : s.group.stored = true)
    (hnew : guid ∉ s.group.guids) : Agrees (addMember guid s).2 := by
  have hnone : getMemberSlot guid s.group.memberSlots = none := getMemberSlot_eq_none.mpr hnew
  have hrow : (s.rows guid).isNone = true := by
    rw [h guid, hnone]
    rfl
  rw [Groups.addMember]
  split
  · exact h
  · intro other
    dsimp only
    rw [if_pos ⟨hstored, hrow⟩, getMemberSlot_append, getMemberSlot_singleton, update_apply]
    by_cases hother : other = guid
    · subst hother
      rw [if_pos rfl, if_pos rfl, hnone]
      rfl
    · rw [if_neg hother, if_neg (Ne.symm hother), Option.or_none]
      exact h other

theorem Roles.removeSlot (h : Roles s.group) : Roles (removeSlot guid s).group := by
  refine ⟨?_, h.stored, fun flag hflag => ?_⟩
  · rw [Group.guids, Groups.removeSlot]
    rw [guids_eraseP]
    exact h.nodup.erase guid
  · exact (eraseP_sublist.countP_le).trans (h.unique flag hflag)

theorem Agrees.removeSlot (h : Agrees s) (hroles : Roles s.group) : Agrees (removeSlot guid s) := by
  intro other
  rw [Groups.removeSlot]
  dsimp only
  rw [if_pos hroles.stored, getMemberSlot_eraseP hroles.nodup, update_apply]
  split_ifs
  · rfl
  · exact h other

theorem Roles.toggle (h : Roles g) (leader : Guid) (apply : Bool) :
    Roles { g with
      leaderGuid := leader
      memberSlots := modifySlot guid (toggleGroupMemberFlag .assistant apply) g.memberSlots } := by
  refine ⟨?_, h.stored, fun flag hflag => ?_⟩
  · rw [Group.guids, guids_toggle]
    exact h.nodup
  · rw [holders_modifySlot (toggle_flags_of_ne hflag apply)]
    exact h.unique flag hflag

/-- A flag that is taken away leaves the row as it is only if it was not there. -/
theorem row_toggle_iff (slot : MemberSlot) :
    slot.row = (toggleGroupMemberFlag flag false slot).row ↔ slot.flags flag = false := by
  rw [MemberSlot.row, MemberSlot.row, toggleGroupMemberFlag, MemberRow.mk.injEq,
    and_iff_left rfl, eq_comm, update_eq_self_iff, eq_comm]

theorem Roles.changeLeader (h : Roles s.group) (online : Guid → Bool) :
    Roles (changeLeader online guid s).group := by
  rw [Groups.changeLeader]
  split_ifs
  · exact h.toggle guid false
  · exact h

/-- The new leader loses the flag of an assistant, which is not written. -/
theorem agrees_changeLeader (h : Agrees s) (online : Guid → Bool) :
    Agrees (changeLeader online guid s) ↔ (online guid = true →
      ∀ slot ∈ getMemberSlot guid s.group.memberSlots, slot.flags .assistant = false) := by
  rw [changeLeader]
  split_ifs with hmember
  · obtain ⟨hsome, honline⟩ := hmember
    obtain ⟨slot, hslot⟩ := Option.isSome_iff_exists.mp hsome
    simp only [honline, true_implies, hslot, Option.mem_some_iff, forall_eq']
    rw [← row_toggle_iff]
    constructor
    · intro hagrees
      have hrow := hagrees guid
      rw [h guid, getMemberSlot_modifySlot (toggle_guid .assistant false), if_pos rfl, hslot] at hrow
      exact Option.some.inj hrow
    · intro hrow other
      rw [h other, getMemberSlot_modifySlot (toggle_guid .assistant false)]
      split_ifs with hother
      · rw [hother, hslot, Option.map_some, Option.map_some, Option.map_some, hrow]
      · rfl
  · refine iff_of_true h fun honline slot hslot => absurd ⟨?_, honline⟩ hmember
    rw [hslot]
    rfl

theorem getMemberSlot_of_mem (hnodup : (slots.map MemberSlot.guid).Nodup) {slot : MemberSlot}
    (h : slot ∈ slots) : getMemberSlot slot.guid slots = some slot := by
  induction slots with
  | nil => exact absurd h not_mem_nil
  | cons first slots ih =>
    rw [map_cons, nodup_cons] at hnodup
    rw [getMemberSlot, List.find?_cons]
    rcases mem_cons.mp h with rfl | h
    · rw [decide_eq_true rfl]
    · have hne : ¬ first.guid = slot.guid := fun heq =>
        hnodup.1 (heq ▸ mem_map_of_mem h)
      rw [decide_eq_false hne]
      exact ih hnodup.2 h

theorem Roles.pickNewLeader (h : Roles s.group) (online : Guid → Bool) :
    Roles (pickNewLeader online guid s).group := by
  rw [Groups.pickNewLeader]
  split_ifs
  · split
    · exact h
    · exact h.changeLeader online
  · exact h

theorem agrees_pickNewLeader (h : Agrees s) (hroles : Roles s.group) (online : Guid → Bool) :
    Agrees (pickNewLeader online guid s) ↔ (s.group.leaderGuid = guid →
      ∀ slot ∈ s.group.memberSlots.find? fun slot => online slot.guid,
        slot.flags .assistant = false) := by
  rw [pickNewLeader]
  split_ifs with hleader
  · cases hfind : s.group.memberSlots.find? fun slot => online slot.guid with
    | none => exact iff_of_true h fun _ slot hslot => absurd hslot (Option.not_mem_none slot)
    | some slot =>
      have honline : online slot.guid = true := by simpa using List.find?_some hfind
      have hslot := getMemberSlot_of_mem hroles.nodup (mem_of_find?_eq_some hfind)
      rw [agrees_changeLeader h, hslot]
      exact ⟨fun hyes _ => hyes honline, fun hyes _ => hyes hleader⟩
  · exact iff_of_true h fun hyes => absurd hyes hleader

/-- `ChangeMembersGroup` writes the row of the member. -/
theorem Roles.changeMembersGroup (h : Roles s.group) (hagrees : Agrees s) (group : ℕ) :
    Roles (changeMembersGroup guid group s).group ∧ Agrees (changeMembersGroup guid group s) := by
  have hguids := (changeMembersGroup_guids guid group s).1
  rw [Groups.changeMembersGroup] at hguids ⊢
  cases hslot : getMemberSlot guid s.group.memberSlots with
  | none => exact ⟨h, hagrees⟩
  | some slot =>
    rw [hslot] at hguids
    dsimp only at hguids ⊢
    by_cases hsame : ¬ s.group.raid = true ∨ slot.group = group
    · rw [if_pos hsame]
      exact ⟨h, hagrees⟩
    · rw [if_neg hsame] at hguids ⊢
      refine ⟨⟨hguids ▸ h.nodup, h.stored, fun flag hflag => ?_⟩, fun other => ?_⟩
      · rw [holders_modifySlot (fun _ => by rfl)]
        exact h.unique flag hflag
      · dsimp only
        rw [if_pos h.stored, getMemberSlot_modifySlot (fun _ => by rfl), update_apply]
        split_ifs with hother
        · rw [hother, hagrees guid, hslot]
          rfl
        · exact hagrees other

/-- `RemoveUniqueGroupMemberFlag` writes no row. -/
theorem Roles.removeUnique (h : Roles s.group) (flag : GroupMemberFlags) :
    Roles (removeUniqueGroupMemberFlag flag s).group := by
  refine ⟨?_, h.stored, fun other hother => ?_⟩
  · rw [Group.guids, removeUniqueGroupMemberFlag, map_map]
    exact h.nodup
  · change holders other (s.group.memberSlots.map (toggleGroupMemberFlag flag false)) ≤ 1
    by_cases heq : other = flag
    · rw [heq, holders_removeUnique_self]
      exact Nat.zero_le 1
    · rw [holders_removeUnique_of_ne heq]
      exact h.unique other hother

/-- The rows of the members that `p` selects hold their slots without the flag exactly when these
members do not have it. -/
theorem Agrees.without_iff (h : Agrees s) (hnodup : s.group.guids.Nodup) (flag : GroupMemberFlags)
    (p : Guid → Prop) :
    (∀ other, p other → s.rows other = (getMemberSlot other s.group.memberSlots).map
        fun slot => (toggleGroupMemberFlag flag false slot).row) ↔
      ∀ slot ∈ s.group.memberSlots, slot.flags flag = true → ¬ p slot.guid := by
  constructor
  · intro hrows slot hslot hflag hp
    have hrow := hrows slot.guid hp
    rw [h slot.guid, getMemberSlot_of_mem hnodup hslot] at hrow
    rw [(row_toggle_iff flag slot).mp (Option.some.inj hrow)] at hflag
    exact absurd hflag Bool.false_ne_true
  · intro hslots other hp
    rw [h other]
    cases hslot : getMemberSlot other s.group.memberSlots with
    | none => rfl
    | some slot =>
      have hguid := guid_of_getMemberSlot hslot
      have hflag : slot.flags flag = false := by
        rw [← Bool.not_eq_true]
        intro hflag
        exact hslots slot (mem_of_getMemberSlot hslot) hflag (hguid ▸ hp)
      rw [Option.map_some, Option.map_some, (row_toggle_iff flag slot).mpr hflag]

/-- What `SetGroupMemberFlag` does to every member first. -/
def clearUnique (flag : GroupMemberFlags) (slot : MemberSlot) : MemberSlot :=
  if flag = .assistant then slot else toggleGroupMemberFlag flag false slot

theorem clearUnique_guid (slot : MemberSlot) : (clearUnique flag slot).guid = slot.guid := by
  rw [clearUnique]
  split_ifs <;> rfl

theorem clearUnique_group (slot : MemberSlot) : (clearUnique flag slot).group = slot.group := by
  rw [clearUnique]
  split_ifs <;> rfl

/-- `SetGroupMemberFlag` for a member of a raid. -/
theorem setGroupMemberFlag_eq (hraid : s.group.raid = true) (hmember : guid ∈ s.group.guids)
    (apply : Bool) (flag : GroupMemberFlags) :
    (setGroupMemberFlag guid apply flag s).group =
        { s.group with
          memberSlots := modifySlot guid (toggleGroupMemberFlag flag apply)
            (s.group.memberSlots.map (clearUnique flag)) } ∧
      (setGroupMemberFlag guid apply flag s).rows = Function.update s.rows guid
        ((s.rows guid).map fun row => { row with
          memberFlags := (setGroupMemberFlag guid apply flag s).group.getMemberFlags guid }) := by
  have hid : s.group.memberSlots.map (clearUnique .assistant) = s.group.memberSlots := map_id _
  rw [setGroupMemberFlag.eq_def, if_pos ⟨hraid, getMemberSlot_isSome.mpr hmember⟩]
  cases flag with
  | assistant =>
    rw [hid]
    exact ⟨rfl, rfl⟩
  | mainTank => exact ⟨rfl, rfl⟩
  | mainAssist => exact ⟨rfl, rfl⟩

/-- The row of the member is written, those of the others stay. -/
theorem agrees_setGroupMemberFlag (hraid : s.group.raid = true) (hmember : guid ∈ s.group.guids)
    (hgroups : ∀ other, (s.rows other).map MemberRow.subgroup =
      (getMemberSlot other s.group.memberSlots).map MemberSlot.group)
    (apply : Bool) (flag : GroupMemberFlags) :
    Agrees (setGroupMemberFlag guid apply flag s) ↔
      ∀ other, other ≠ guid → s.rows other = (getMemberSlot other s.group.memberSlots).map
        fun slot => (clearUnique flag slot).row := by
  obtain ⟨hgroup, hrows⟩ := setGroupMemberFlag_eq hraid hmember apply flag
  have hslot : ∀ other, getMemberSlot other (setGroupMemberFlag guid apply flag s).group.memberSlots =
      if other = guid then ((getMemberSlot other s.group.memberSlots).map (clearUnique flag)).map
        (toggleGroupMemberFlag flag apply)
      else (getMemberSlot other s.group.memberSlots).map (clearUnique flag) := by
    intro other
    rw [hgroup, getMemberSlot_modifySlot (toggle_guid flag apply),
      getMemberSlot_map (clearUnique_guid flag)]
  constructor
  · intro hagrees other hother
    have hrow := hagrees other
    rw [hrows, update_of_ne hother, hslot, if_neg hother, Option.map_map] at hrow
    exact hrow
  · intro hothers other
    rw [hrows, hslot, update_apply]
    split_ifs with heq
    · obtain ⟨slot, hmem⟩ := Option.isSome_iff_exists.mp (getMemberSlot_isSome.mpr hmember)
      have hsub := hgroups guid
      rw [hmem] at hsub
      obtain ⟨row, hrow, hsub⟩ := Option.map_eq_some_iff.mp hsub
      have hflags : (setGroupMemberFlag guid apply flag s).group.getMemberFlags guid =
          (toggleGroupMemberFlag flag apply (clearUnique flag slot)).flags := by
        rw [Group.getMemberFlags, hslot, if_pos rfl, hmem]
        rfl
      rw [heq, hmem, hrow, hflags, Option.map_some, Option.map_some, Option.map_some,
        Option.map_some, hsub, MemberSlot.row]
      congr 2
      exact (clearUnique_group flag slot).symm
    · rw [hothers other heq, Option.map_map]
      rfl

theorem setGroupMemberFlag_of_not (h : ¬ (s.group.raid = true ∧ guid ∈ s.group.guids))
    (apply : Bool) (flag : GroupMemberFlags) : setGroupMemberFlag guid apply flag s = s := by
  exact if_neg fun hno => h ⟨hno.1, getMemberSlot_isSome.mp hno.2⟩

theorem setGroupMemberFlag_alive (apply : Bool) (flag : GroupMemberFlags) :
    (setGroupMemberFlag guid apply flag s).alive = s.alive := by
  rw [setGroupMemberFlag.eq_def]
  split_ifs
  · cases flag <;> rfl
  · rfl

section

variable (h : Agrees s) (hnodup : s.group.guids.Nodup) (guid : Guid) (apply : Bool)
  (flag : GroupMemberFlags)
include h hnodup

/-- `SetGroupMemberFlag` takes the role from the others without writing it. -/
theorem Agrees.setGroupMemberFlag :
    Agrees (setGroupMemberFlag guid apply flag s) ↔ (s.group.raid = true → guid ∈ s.group.guids →
      flag ≠ .assistant → ∀ slot ∈ s.group.memberSlots, slot.flags flag = true → slot.guid = guid) := by
  by_cases hmember : s.group.raid = true ∧ guid ∈ s.group.guids
  swap
  · rw [setGroupMemberFlag_of_not hmember]
    exact iff_of_true h fun hraid hguid => absurd ⟨hraid, hguid⟩ hmember
  obtain ⟨hraid, hguid⟩ := hmember
  have hgroups : ∀ other, (s.rows other).map MemberRow.subgroup =
      (getMemberSlot other s.group.memberSlots).map MemberSlot.group := by
    intro other
    rw [h other, Option.map_map]
    rfl
  rw [agrees_setGroupMemberFlag hraid hguid hgroups]
  by_cases hflag : flag = .assistant
  · subst hflag
    exact iff_of_true (fun other _ => h other) fun _ _ hno => absurd rfl hno
  · have hclear : clearUnique flag = toggleGroupMemberFlag flag false := by
      funext slot
      exact if_neg hflag
    rw [hclear, h.without_iff hnodup flag fun other => other ≠ guid]
    constructor
    · exact fun hyes _ _ _ slot hslot hset => not_not.mp (hyes slot hslot hset)
    · exact fun hyes slot hslot hset => not_not.mpr (hyes hraid hguid hflag slot hslot hset)

/-- The handler takes the role from everyone before it gives it to a member. -/
theorem Agrees.partyAssignment :
    Agrees (Groups.setGroupMemberFlag guid apply flag (removeUniqueGroupMemberFlag flag s)) ↔
      ∀ slot ∈ s.group.memberSlots, slot.flags flag = true →
        s.group.raid = true ∧ slot.guid = guid := by
  have hguids : (removeUniqueGroupMemberFlag flag s).group.guids = s.group.guids := by
    rw [Group.guids, removeUniqueGroupMemberFlag, map_map]
    rfl
  have hslot : ∀ other, getMemberSlot other (removeUniqueGroupMemberFlag flag s).group.memberSlots =
      (getMemberSlot other s.group.memberSlots).map (toggleGroupMemberFlag flag false) := fun _ =>
    getMemberSlot_map (toggle_guid flag false)
  by_cases hmember : s.group.raid = true ∧ guid ∈ s.group.guids
  · obtain ⟨hraid, hguid⟩ := hmember
    have hgroups : ∀ other, ((removeUniqueGroupMemberFlag flag s).rows other).map
        MemberRow.subgroup = (getMemberSlot other
          (removeUniqueGroupMemberFlag flag s).group.memberSlots).map MemberSlot.group := by
      intro other
      rw [hslot, removeUniqueGroupMemberFlag]
      rw [h other, Option.map_map, Option.map_map]
      rfl
    have hclear : ∀ slot, (clearUnique flag (toggleGroupMemberFlag flag false slot)).row =
        (toggleGroupMemberFlag flag false slot).row := by
      intro slot
      rw [clearUnique]
      split_ifs
      · rfl
      · exact ((row_toggle_iff flag _).mpr (toggle_flags_self flag false slot)).symm
    have hraid' : (removeUniqueGroupMemberFlag flag s).group.raid = true := hraid
    rw [agrees_setGroupMemberFlag hraid' (hguids ▸ hguid) hgroups]
    simp only [hslot, Option.map_map, Function.comp_def, hclear]
    refine (h.without_iff hnodup flag fun other => other ≠ guid).trans ?_
    constructor
    · exact fun hyes slot hslot hset => ⟨hraid, not_not.mp (hyes slot hslot hset)⟩
    · exact fun hyes slot hslot hset => not_not.mpr (hyes slot hslot hset).2
  · rw [setGroupMemberFlag_of_not (by rw [hguids]; exact hmember)]
    have hagrees : Agrees (removeUniqueGroupMemberFlag flag s) ↔
        ∀ other, True → s.rows other = (getMemberSlot other s.group.memberSlots).map
          fun slot => (toggleGroupMemberFlag flag false slot).row := by
      refine forall_congr' fun other => ?_
      rw [hslot, Option.map_map]
      exact ⟨fun hrow _ => hrow, fun hrow => hrow trivial⟩
    rw [hagrees, h.without_iff hnodup flag fun _ => True]
    constructor
    · exact fun hyes slot hslot hset => absurd trivial (hyes slot hslot hset)
    · intro hyes slot hslot hset _
      obtain ⟨hraid, hguid⟩ := hyes slot hslot hset
      exact hmember ⟨hraid, hguid ▸ mem_map_of_mem hslot⟩

end

theorem Roles.setGroupMemberFlag (h : Roles s.group) (apply : Bool) (flag : GroupMemberFlags) :
    Roles (setGroupMemberFlag guid apply flag s).group := by
  by_cases hmember : s.group.raid = true ∧ guid ∈ s.group.guids
  · obtain ⟨hraid, hmember⟩ := hmember
    rw [(setGroupMemberFlag_eq hraid hmember apply flag).1]
    refine ⟨?_, h.stored, fun other hother => ?_⟩
    · have hguids : (s.group.memberSlots.map (clearUnique flag)).map MemberSlot.guid =
          s.group.guids := by
        rw [map_map, Group.guids]
        congr 1
        funext slot
        exact clearUnique_guid flag slot
      rw [Group.guids, guids_toggle, hguids]
      exact h.nodup
    · by_cases heq : other = flag
      · subst heq
        have hclear : clearUnique other = toggleGroupMemberFlag other false := by
          funext slot
          exact if_neg hother
        rw [hclear]
        refine (holders_modifySlot_le other _).trans ?_
        rw [holders_removeUnique_self]
      · rw [holders_modifySlot (toggle_flags_of_ne heq apply)]
        refine le_trans (le_of_eq ?_) (h.unique other hother)
        rw [holders, countP_map, holders]
        congr 1
        funext slot
        rw [Function.comp_apply, clearUnique]
        split_ifs
        · rfl
        · exact toggle_flags_of_ne heq false slot
  · rw [setGroupMemberFlag_of_not hmember]
    exact h

/-! ### Runs -/

/-- **The invariant**: while the group exists, its roles are in order and its rows hold them. -/
structure Recorded (s : State) : Prop where
  roles : s.alive = true → Roles s.group
  rows : s.alive = true → Agrees s

variable {event : Event}

/-- A step that keeps the roles in order. -/
theorem Recorded.of_step (hroles : (step s event).alive = true → Roles (step s event).group)
    (hiff : ((step s event).alive = true → Agrees (step s event)) ↔ Written s event) :
    (Restored s event ↔ Written s event) ∧ (Written s event → Recorded (step s event)) := by
  refine ⟨Iff.trans ⟨fun h halive => ?_, fun h halive => ?_⟩ hiff, fun h => ⟨hroles, hiff.mpr h⟩⟩
  · exact (restorable_iff (hroles halive)).mp (h halive)
  · exact (restorable_iff (hroles halive)).mpr (h halive)

/-- A step that disbands the group. -/
theorem Recorded.of_disbanded {left : State} (hstep : step s event = disband left)
    (hwritten : Written s event) :
    (Restored s event ↔ Written s event) ∧ (Written s event → Recorded (step s event)) := by
  apply Recorded.of_step
  · rw [hstep]
    exact fun hno => Bool.noConfusion hno
  · rw [hstep]
    exact iff_of_true (fun hno => Bool.noConfusion hno) hwritten

/-- `RemoveMember` deletes the row of the member. -/
theorem Recorded.removeMember (hroles : Roles s.group) (hagrees : Agrees s)
    (halive : s.alive = true) (kick outside : Bool) (online : Guid → Bool) :
    (Restored s (.removeMember guid kick outside online) ↔
        Written s (.removeMember guid kick outside online)) ∧
      (Written s (.removeMember guid kick outside online) →
        Recorded (step s (.removeMember guid kick outside online))) := by
  have hstep : step s (.removeMember guid kick outside online) =
      (Groups.removeMember guid kick outside online s).2 := by
    rw [step, if_pos halive, perform]
  have hgone : ¬ Survives guid kick outside online s →
      Written s (.removeMember guid kick outside online) := fun hno _ hyes => absurd hyes hno
  rcases removeMember_cases guid kick outside online s with ⟨hkick, heq⟩ | ⟨hkick, hcases⟩
  · apply Recorded.of_step
    · rw [hstep, heq]
      exact fun _ => hroles
    · rw [hstep, heq]
      exact iff_of_true (fun _ => hagrees) (hgone fun hyes => hyes.1 hkick)
  rcases hcases with ⟨hmany, heq⟩ | ⟨hmany, ⟨hlast, heq⟩ | ⟨hlast, ⟨hfew, heq⟩ | ⟨henough, heq⟩⟩⟩
  · exact Recorded.of_disbanded (hstep.trans (congrArg Prod.snd heq))
      (hgone fun hyes => hmany hyes.2.1)
  · exact Recorded.of_disbanded (hstep.trans (congrArg Prod.snd heq))
      (hgone fun hyes => hyes.2.2.1 hlast)
  · exact Recorded.of_disbanded (hstep.trans (congrArg Prod.snd heq))
      (hgone fun hyes => Nat.not_le.mpr hfew hyes.2.2.2)
  · have hremoved : Agrees (removeSlot guid s) := hagrees.removeSlot hroles
    have halive' := (pickNewLeader_kind online guid (removeSlot guid s)).1.trans halive
    apply Recorded.of_step
    · rw [hstep, heq]
      exact fun _ => hroles.removeSlot.pickNewLeader online
    · rw [hstep, heq]
      have hiff := @agrees_pickNewLeader guid _ hremoved hroles.removeSlot online
      constructor
      · exact fun hyes _ _ => hiff.mp (hyes halive')
      · exact fun hyes _ => hiff.mpr (hyes halive ⟨hkick, hmany, hlast, henough⟩)

/-- One step: the table can restore the group exactly when the step writes what it changes. -/
theorem Recorded.step (h : Recorded s) (hjoining : Joining s event) :
    (Restored s event ↔ Written s event) ∧ (Written s event → Recorded (step s event)) := by
  cases halive : s.alive with
  | false =>
    have hstep : Groups.step s event = s := by rw [Groups.step, halive]; rfl
    have hdead : ¬ s.alive = true := by rw [halive]; exact Bool.false_ne_true
    apply Recorded.of_step
    · rw [hstep]
      exact fun hyes => absurd hyes hdead
    · rw [hstep]
      refine iff_of_true (fun hyes => absurd hyes hdead) ?_
      cases event with
      | addMember guid => trivial
      | changeMembersGroup guid group => trivial
      | convertToRaid => trivial
      | disband => trivial
      | _ => exact fun hyes => absurd hyes hdead
  | true =>
    have hroles := h.roles halive
    have hagrees := h.rows halive
    have hstep : Groups.step s event = perform s event := by rw [Groups.step, if_pos halive]
    cases event with
    | addMember guid =>
      apply Recorded.of_step
      · rw [hstep]
        exact fun _ => hroles.addMember (hjoining halive)
      · rw [hstep]
        exact iff_of_true (fun _ => hagrees.addMember hroles.stored (hjoining halive)) trivial
    | removeMember guid kick outside online =>
      exact Recorded.removeMember hroles hagrees halive kick outside online
    | changeMembersGroup guid group =>
      obtain ⟨hmoved, hwritten⟩ := @Roles.changeMembersGroup guid s hroles hagrees group
      apply Recorded.of_step
      · rw [hstep]
        exact fun _ => hmoved
      · rw [hstep]
        exact iff_of_true (fun _ => hwritten) trivial
    | convertToRaid =>
      apply Recorded.of_step
      · rw [hstep]
        exact fun _ => ⟨hroles.nodup, hroles.stored, hroles.unique⟩
      · rw [hstep]
        exact iff_of_true (fun _ => hagrees) trivial
    | changeLeader guid online =>
      apply Recorded.of_step
      · rw [hstep]
        exact fun _ => hroles.changeLeader online
      · have halive' : (changeLeader online guid s).alive = true := by
          rw [changeLeader]
          split_ifs <;> exact halive
        rw [hstep, perform, halive', Written, halive, ← agrees_changeLeader hagrees online]
    | disband =>
      exact Recorded.of_disbanded hstep trivial
    | setGroupMemberFlag guid apply flag =>
      have halive' : (Groups.setGroupMemberFlag guid apply flag s).alive = true := by
        rw [setGroupMemberFlag_alive, halive]
      have hiff := hagrees.setGroupMemberFlag hroles.nodup guid apply flag
      apply Recorded.of_step
      · rw [hstep]
        exact fun _ => hroles.setGroupMemberFlag apply flag
      · rw [hstep]
        exact ⟨fun hyes _ => hiff.mp (hyes halive'), fun hyes _ => hiff.mpr (hyes halive)⟩
    | partyAssignment guid apply flag =>
      have halive' : (Groups.setGroupMemberFlag guid apply flag
          (removeUniqueGroupMemberFlag flag s)).alive = true := by
        rw [setGroupMemberFlag_alive]
        exact halive
      have hiff := hagrees.partyAssignment hroles.nodup guid apply flag
      apply Recorded.of_step
      · rw [hstep]
        exact fun _ => (hroles.removeUnique flag).setGroupMemberFlag apply flag
      · rw [hstep]
        exact ⟨fun hyes _ => hiff.mp (hyes halive'), fun hyes _ => hiff.mpr (hyes halive)⟩

/-- Parties and groups of the dungeon finder are recorded when they are created. -/
theorem recorded_create {kind : GroupKind} (hkind : kind = .party ∨ kind = .dungeonFinder)
    (leader : Guid) : Recorded (create kind leader) := by
  have hroles : Roles (newGroup kind leader).group := by
    refine ⟨nodup_nil, ?_, fun _ _ => Nat.zero_le 1⟩
    rcases hkind with rfl | rfl <;> rfl
  have hagrees : Agrees (newGroup kind leader) := fun _ => rfl
  exact ⟨fun _ => hroles.addMember not_mem_nil,
    fun _ => hagrees.addMember hroles.stored not_mem_nil⟩

/-- **Roles survive a restart exactly in the runs that write them.** For every stored group whose
rows hold its members and every sequence of events: after every step while the group exists there
is one main tank and one main assist at most, the rows are those of the slots and loading them gives
every member its flags and its subgroup back, if and only if the lead never passes to an assistant
in a group that goes on, and a role of main tank or main assist is never taken from a member other
than the one it is set for. -/
theorem restored_iff (s : State) (events : List Event) (hs : Recorded s)
    (h : Run.Along step Joining s events) :
    Run.Along step Restored s events ↔ Run.Along step Written s events :=
  Run.along_iff_of_along Recorded (fun _ _ hs hjoining => (hs.step hjoining).1)
    (fun _ _ hs hjoining => (hs.step hjoining).2) hs h

/-- In a raid of three an assistant and a main tank are named, a member changes its subgroup, and
the leader passes the lead to the main tank. -/
theorem restored_of_written_run :
    Run.Along step Restored (create .party 1)
      [.addMember 2, .addMember 3, .convertToRaid, .setGroupMemberFlag 2 true .assistant,
        .partyAssignment 3 true .mainTank, .changeMembersGroup 2 4,
        .changeLeader 3 fun _ => true] := by
  refine (restored_iff _ _ (recorded_create (Or.inl rfl) 1) ?_).mpr ?_
  · decide +kernel
  · decide +kernel

/-- The role of main tank passes from one member of a raid to another: the row of the first keeps
the flag, and a restart gives the raid two main tanks. -/
theorem mainTank_not_restored :
    Run.Along step Joining (create .party 1)
        [.addMember 2, .addMember 3, .convertToRaid, .setGroupMemberFlag 2 true .mainTank,
          .setGroupMemberFlag 3 true .mainTank] ∧
      ¬ Run.Along step Restored (create .party 1)
        [.addMember 2, .addMember 3, .convertToRaid, .setGroupMemberFlag 2 true .mainTank,
          .setGroupMemberFlag 3 true .mainTank] := by
  refine ⟨by decide +kernel, fun hrestored => ?_⟩
  have hrow := (hrestored.2.2.2.2.1 (by decide +kernel)).rows 2
  have hflag := congrArg (Option.map fun row => row.memberFlags .mainTank) hrow
  revert hflag
  decide +kernel

end IscServer.Groups
