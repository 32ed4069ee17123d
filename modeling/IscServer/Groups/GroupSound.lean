import Mathlib.Algebra.BigOperators.Intervals
import Mathlib.Algebra.Order.BigOperators.Group.Finset
import IscServer.Groups.Group

/-!
# Membership of Groups

While a group exists, its slots, its leader and its counters should agree (`Consistent`), and
`RemoveMember` should report whether the group survived. Two kinds of steps break this. A player
who is a member is added again: `AddMember` does not look. And `RemoveMember` disbands a group that
is left with too few members online, and reports all the same that it is still there; the caller
that goes by the answer (`Battleground::RemovePlayerAtLeave`) keeps a pointer to it.

## Main results

* `right_iff` — in every run the membership is right at every step exactly when no step is of
  these two kinds.
* `removeMember_not_right` — a party of three, two of them offline.
-/

namespace IscServer.Groups

open List

variable {guid : Guid} {slots : List MemberSlot} {s : State} {g : Group}

/-! ### Slots -/

theorem getMemberSlot_isSome :
    (getMemberSlot guid slots).isSome ↔ guid ∈ slots.map MemberSlot.guid := by
  rw [getMemberSlot, List.find?_isSome, mem_map]
  simp only [decide_eq_true_eq]

theorem guid_of_getMemberSlot {slot : MemberSlot} (h : getMemberSlot guid slots = some slot) :
    slot.guid = guid := by simpa using List.find?_some h

theorem mem_of_getMemberSlot {slot : MemberSlot} (h : getMemberSlot guid slots = some slot) :
    slot ∈ slots := mem_of_find?_eq_some h

/-- A change that keeps the guid keeps the members. -/
theorem guids_modifySlot {change : MemberSlot → MemberSlot}
    (hchange : ∀ slot, (change slot).guid = slot.guid) :
    (modifySlot guid change slots).map MemberSlot.guid = slots.map MemberSlot.guid := by
  induction slots with
  | nil => rfl
  | cons slot slots ih =>
    rw [modifySlot]
    split_ifs
    · rw [map_cons, hchange, map_cons]
    · rw [map_cons, ih, map_cons]

theorem length_modifySlot (change : MemberSlot → MemberSlot) :
    (modifySlot guid change slots).length = slots.length := by
  induction slots with
  | nil => rfl
  | cons slot slots ih =>
    rw [modifySlot]
    split_ifs
    · rfl
    · rw [length_cons, ih, length_cons]

theorem slotsIn_cons (slot : MemberSlot) (i : ℕ) :
    slotsIn (slot :: slots) i = slotsIn slots i + if slot.group = i then 1 else 0 := by
  rw [slotsIn, countP_cons, ← slotsIn]
  simp only [decide_eq_true_eq]

/-- A member that changes its subgroup leaves one and enters another. -/
theorem slotsIn_modifySlot {slot : MemberSlot} {change : MemberSlot → MemberSlot}
    (h : getMemberSlot guid slots = some slot) (i : ℕ) :
    slotsIn (modifySlot guid change slots) i + (if slot.group = i then 1 else 0) =
      slotsIn slots i + if (change slot).group = i then 1 else 0 := by
  induction slots with
  | nil => exact absurd h (Option.some_ne_none _).symm
  | cons first slots ih =>
    rw [getMemberSlot, List.find?_cons] at h
    rw [modifySlot]
    by_cases heq : first.guid = guid
    · rw [decide_eq_true heq] at h
      obtain rfl := Option.some.inj h
      rw [if_pos heq, slotsIn_cons, slotsIn_cons]
      omega
    · rw [decide_eq_false heq] at h
      rw [if_neg heq, slotsIn_cons, slotsIn_cons]
      have hrest := ih h
      omega

/-- A change that keeps the subgroup keeps the numbers. -/
theorem slotsIn_modifySlot_of_group {change : MemberSlot → MemberSlot}
    (hchange : ∀ slot, (change slot).group = slot.group) (i : ℕ) :
    slotsIn (modifySlot guid change slots) i = slotsIn slots i := by
  induction slots with
  | nil => rfl
  | cons slot slots ih =>
    rw [modifySlot]
    split_ifs
    · rw [slotsIn_cons, slotsIn_cons, hchange]
    · rw [slotsIn_cons, slotsIn_cons, ih]

/-- A slot that is erased leaves its subgroup. -/
theorem slotsIn_eraseP {slot : MemberSlot} (h : getMemberSlot guid slots = some slot) (i : ℕ) :
    slotsIn (slots.eraseP fun slot => slot.guid = guid) i + (if slot.group = i then 1 else 0) =
      slotsIn slots i := by
  induction slots with
  | nil => exact absurd h (Option.some_ne_none _).symm
  | cons first slots ih =>
    rw [getMemberSlot, List.find?_cons] at h
    rw [eraseP_cons]
    by_cases heq : first.guid = guid
    · rw [decide_eq_true heq] at h ⊢
      obtain rfl := Option.some.inj h
      rw [slotsIn_cons]
      rfl
    · rw [decide_eq_false heq] at h ⊢
      have hrest := ih h
      simp only [cond_false, slotsIn_cons]
      omega

theorem guids_eraseP :
    (slots.eraseP fun slot => slot.guid = guid).map MemberSlot.guid =
      (slots.map MemberSlot.guid).erase guid := by
  induction slots with
  | nil => rfl
  | cons slot slots ih =>
    rw [eraseP_cons, map_cons, erase_cons]
    by_cases heq : slot.guid = guid
    · rw [decide_eq_true heq, heq]
      simp
    · simp [heq, ih]

/-- All slots are in some subgroup. -/
theorem sum_slotsIn (h : ∀ slot ∈ slots, slot.group < maxRaidSubgroups) :
    ∑ i ∈ Finset.range maxRaidSubgroups, slotsIn slots i = slots.length := by
  induction slots with
  | nil => rfl
  | cons slot slots ih =>
    obtain ⟨hslot, hslots⟩ := forall_mem_cons.mp h
    simp only [slotsIn_cons]
    rw [Finset.sum_add_distrib, ih hslots, Finset.sum_ite_eq, if_pos (Finset.mem_range.mpr hslot),
      length_cons]

/-! ### What is asked of a group -/

/-- The counters are the numbers of the slots, and no subgroup has more than five. -/
def Counted (slots : List MemberSlot) (counts : ℕ → ℕ) : Prop :=
  ∀ i < maxRaidSubgroups, counts i = slotsIn slots i ∧ counts i ≤ maxGroupSize

/-- **Consistent membership**: nobody has two slots, a raid counts its subgroups and none has more
than five members, the group is not too large, and the leader is a member. -/
structure Consistent (g : Group) : Prop where
  nodup : g.guids.Nodup
  counted : g.raid = true →
    ∃ counts, g.subGroupsCounts = some counts ∧ Counted g.memberSlots counts
  size : g.memberSlots.length ≤ if g.raid then maxRaidSize else maxGroupSize
  leader : g.leaderGuid ∈ g.guids

/-- What is asked of a step: the group is consistent while it exists, and `RemoveMember` reports
whether it does. -/
def Right (s : State) (event : Event) : Prop :=
  ((step s event).alive = true → Consistent (step s event).group) ∧
    match event with
    | .removeMember guid kick outside online => s.alive = true →
        (removeMember guid kick outside online s).1 = (step s event).alive
    | _ => True

/-- The events that occur: nobody is added to a full group, and members change to subgroups that
have a free slot. -/
def Allowed (s : State) : Event → Prop
  | .addMember _ => s.group.isFull = false
  | .changeMembersGroup _ group =>
    group < maxRaidSubgroups ∧ s.group.hasFreeSlotSubGroup group = true
  | _ => True

instance decidableAllowed (s : State) : (event : Event) → Decidable (Allowed s event)
  | .addMember _ => inferInstanceAs (Decidable (_ = false))
  | .changeMembersGroup _ _ => inferInstanceAs (Decidable (_ ∧ _))
  | .removeMember .. | .convertToRaid | .changeLeader .. | .disband | .setGroupMemberFlag ..
  | .partyAssignment .. => isTrue trivial

/-- The group that `RemoveMember` leaves behind before it looks who is online. -/
def remaining (guid : Guid) (online : Guid → Bool) (s : State) : Group :=
  (pickNewLeader online guid (removeSlot guid s)).group

/-- The steps that keep the membership right: nobody is added twice, and when `RemoveMember` comes
to its last check, enough members are online. -/
def Safe (s : State) : Event → Prop
  | .addMember guid => s.alive = true → guid ∉ s.group.guids
  | .removeMember guid kick outside online => s.alive = true →
      ¬ (s.group.lfg ∧ kick) → s.group.removeThreshold < s.group.memberSlots.length →
      ¬ (s.group.lfg ∧ (remaining guid online s).memberSlots.length = 1 ∧
        (¬ online (remaining guid online s).leaderGuid ∨ outside)) →
      s.group.disbandThreshold ≤ (remaining guid online s).onlineCount online
  | _ => True

instance decidableSafe (s : State) : (event : Event) → Decidable (Safe s event)
  | .addMember _ => inferInstanceAs (Decidable (_ → _))
  | .removeMember .. => inferInstanceAs (Decidable (_ → _))
  | .changeMembersGroup .. | .convertToRaid | .changeLeader .. | .disband | .setGroupMemberFlag ..
  | .partyAssignment .. => isTrue trivial

/-- The invariant without the leader: consistent slots, no counters in a party, and subgroups in
range. -/
structure Membership (g : Group) : Prop where
  nodup : g.guids.Nodup
  counted : g.raid = true →
    ∃ counts, g.subGroupsCounts = some counts ∧ Counted g.memberSlots counts
  size : g.memberSlots.length ≤ if g.raid then maxRaidSize else maxGroupSize
  party : g.raid = false → g.subGroupsCounts = none
  groups : ∀ slot ∈ g.memberSlots, slot.group < maxRaidSubgroups

/-- **The invariant.** -/
structure Sound (s : State) : Prop where
  membership : s.alive = true → Membership s.group
  leader : s.alive = true → s.group.leaderGuid ∈ s.group.guids

theorem Membership.consistent (h : Membership g) (hleader : g.leaderGuid ∈ g.guids) :
    Consistent g := ⟨h.nodup, h.counted, h.size, hleader⟩

/-! ### The counters -/

variable {counts : ℕ → ℕ}

theorem slotsIn_append_singleton (slot : MemberSlot) (i : ℕ) :
    slotsIn (slots ++ [slot]) i = slotsIn slots i + if slot.group = i then 1 else 0 := by
  rw [slotsIn, countP_append, ← slotsIn, countP_singleton]
  simp only [decide_eq_true_eq]

section

variable (h : Counted slots counts)
include h

theorem Counted.add {slot : MemberSlot} (hfree : counts slot.group < maxGroupSize) :
    Counted (slots ++ [slot]) (subGroupCounterIncrease counts slot.group) := by
  intro i hi
  obtain ⟨hcount, hle⟩ := h i hi
  rw [slotsIn_append_singleton, subGroupCounterIncrease, Function.update_apply]
  unfold maxGroupSize at *
  by_cases heq : i = slot.group
  · rw [if_pos heq, if_pos heq.symm, ← heq]
    rw [← heq] at hfree
    omega
  · rw [if_neg heq, if_neg (Ne.symm heq)]
    omega

theorem Counted.erase {slot : MemberSlot}
    (hslot : getMemberSlot guid slots = some slot) (hgroup : slot.group < maxRaidSubgroups) :
    Counted (slots.eraseP fun slot => slot.guid = guid)
      (subGroupCounterDecrease counts slot.group) := by
  intro i hi
  obtain ⟨hcount, hle⟩ := h i hi
  have herase := slotsIn_eraseP hslot i
  rw [subGroupCounterDecrease, Function.update_apply]
  unfold maxGroupSize at *
  by_cases heq : i = slot.group
  · rw [if_pos heq.symm] at herase
    rw [if_pos heq, ← heq]
    omega
  · rw [if_neg (Ne.symm heq)] at herase
    rw [if_neg heq]
    omega

theorem Counted.move {slot : MemberSlot} {group : ℕ} (hslot : getMemberSlot guid slots = some slot)
    (hne : slot.group ≠ group) (hfree : counts group < maxGroupSize) :
    Counted (modifySlot guid (fun slot => { slot with group := group }) slots)
      (subGroupCounterDecrease (subGroupCounterIncrease counts group) slot.group) := by
  intro i hi
  obtain ⟨hcount, hle⟩ := h i hi
  have hmove := @slotsIn_modifySlot guid slots slot (fun slot => { slot with group := group })
    hslot i
  simp only [subGroupCounterDecrease, subGroupCounterIncrease, Function.update_apply]
  unfold maxGroupSize at *
  by_cases hfrom : i = slot.group
  · rw [if_pos hfrom.symm, if_neg fun h => hne (hfrom.symm.trans h.symm)] at hmove
    rw [if_pos hfrom, if_neg hne, ← hfrom]
    omega
  · rw [if_neg (Ne.symm hfrom)] at hmove
    rw [if_neg hfrom]
    by_cases hto : i = group
    · subst hto
      rw [if_pos rfl] at hmove
      rw [if_pos rfl]
      omega
    · rw [if_neg (Ne.symm hto)] at hmove
      rw [if_neg hto]
      omega

end

theorem slotsIn_le_length (i : ℕ) : slotsIn slots i ≤ slots.length := countP_le_length

/-! ### Each operation -/

/-- A group that is not full has a free place. -/
theorem Membership.firstFree (h : Membership g) (hfull : g.isFull = false) :
    ∃ i < maxRaidSubgroups, g.firstFree = some i ∧
      ∀ counts, g.subGroupsCounts = some counts → counts i < maxGroupSize := by
  rw [Group.firstFree]
  cases hraid : g.raid with
  | false =>
    rw [h.party hraid]
    exact ⟨0, by decide, rfl, fun _ hnone => absurd hnone (Option.some_ne_none _).symm⟩
  | true =>
    obtain ⟨counts, hcounts, hcounted⟩ := h.counted hraid
    have hsome : ((List.range maxRaidSubgroups).find? g.hasFreeSlotSubGroup).isSome := by
      rw [List.find?_isSome]
      by_contra hnone
      -- otherwise all eight subgroups have five members
      have hfive : ∀ i ∈ Finset.range maxRaidSubgroups, 5 ≤ slotsIn g.memberSlots i := by
        intro i hi
        have hrange := Finset.mem_range.mp hi
        have hfree : ¬ g.hasFreeSlotSubGroup i = true := fun hfree =>
          hnone ⟨i, mem_range.mpr hrange, hfree⟩
        rw [Group.hasFreeSlotSubGroup, hcounts, Option.any_some, decide_eq_true_eq, Nat.not_lt,
          (hcounted i hrange).1] at hfree
        exact hfree
      have hsum := Finset.card_nsmul_le_sum (Finset.range maxRaidSubgroups) _ 5 hfive
      rw [sum_slotsIn h.groups, Finset.card_range] at hsum
      rw [Group.isFull, hraid, if_pos rfl, decide_eq_false_iff_not] at hfull
      exact hfull hsum
    obtain ⟨i, hi⟩ := Option.isSome_iff_exists.mp hsome
    have hfree := List.find?_some hi
    rw [Group.hasFreeSlotSubGroup, hcounts, Option.any_some, decide_eq_true_eq] at hfree
    rw [hcounts]
    refine ⟨i, mem_range.mp (mem_of_find?_eq_some hi), hi, ?_⟩
    intro other hother
    rw [← Option.some.inj hother]
    exact hfree

/-- A player is added to a group that is not full. -/
theorem Membership.addMember (h : Membership s.group) (hfull : s.group.isFull = false) :
    (addMember guid s).2.alive = s.alive ∧
      (addMember guid s).2.group.leaderGuid = s.group.leaderGuid ∧
      (addMember guid s).2.group.guids = s.group.guids ++ [guid] ∧
      (guid ∉ s.group.guids → Membership (addMember guid s).2.group) := by
  obtain ⟨i, hi, hfirst, hfree⟩ := h.firstFree hfull
  rw [Groups.addMember, hfirst]
  refine ⟨rfl, rfl, map_append, fun hnew => ⟨?_, ?_, ?_, ?_, ?_⟩⟩
  · have hguids : (s.group.guids ++ [guid]).Nodup :=
      nodup_append.mpr ⟨h.nodup, nodup_singleton guid, fun other hother last hlast => by
        rintro rfl
        exact hnew (mem_singleton.mp hlast ▸ hother)⟩
    rw [Group.guids, map_append]
    exact hguids
  · intro hraid
    obtain ⟨counts, hcounts, hcounted⟩ := h.counted hraid
    refine ⟨subGroupCounterIncrease counts i, ?_, ?_⟩
    · rw [hcounts]
      rfl
    · exact @Counted.add _ _ hcounted ⟨guid, i, fun _ => false⟩ (hfree counts hcounts)
  · rw [Group.isFull] at hfull
    rw [length_append, length_singleton]
    cases hraid : s.group.raid with
    | false =>
      rw [hraid] at hfull
      simp only [Bool.false_eq_true, if_false, decide_eq_false_iff_not, Nat.not_le] at hfull ⊢
      exact hfull
    | true =>
      rw [hraid] at hfull
      simp only [if_true, decide_eq_false_iff_not, Nat.not_le] at hfull ⊢
      exact hfull
  · intro hraid
    rw [h.party hraid]
    rfl
  · intro slot hslot
    rcases mem_append.mp hslot with hslot | hslot
    · exact h.groups slot hslot
    · rw [mem_singleton.mp hslot]
      exact hi

theorem Membership.convertToRaid (h : Membership s.group) : Membership (convertToRaid s).group := by
  have hsmall : ∀ i < maxRaidSubgroups, slotsIn s.group.memberSlots i ≤ maxGroupSize := by
    intro i hi
    cases hraid : s.group.raid with
    | false =>
      have hsize := h.size
      rw [hraid] at hsize
      exact (slotsIn_le_length i).trans hsize
    | true =>
      obtain ⟨counts, -, hcounted⟩ := h.counted hraid
      obtain ⟨hcount, hle⟩ := hcounted i hi
      rwa [hcount] at hle
  refine ⟨h.nodup, fun _ => ⟨_, rfl, fun i hi => ?_⟩, ?_, fun hraid => ?_, h.groups⟩
  · have hle := hsmall i hi
    unfold maxGroupSize at *
    have hmod : initRaidSubGroupsCounter s.group.memberSlots i = slotsIn s.group.memberSlots i :=
      Nat.mod_eq_of_lt (by omega)
    exact ⟨hmod, hmod.trans_le hle⟩
  · have hsize := h.size
    change s.group.memberSlots.length ≤ maxRaidSize
    unfold maxRaidSize maxGroupSize at *
    split_ifs at hsize <;> omega
  · cases hraid

/-- Two groups with the same guids, numbers, kind and counters. -/
theorem Membership.congr {g' : Group} (h : Membership g) (hraid : g'.raid = g.raid)
    (hguids : g'.guids = g.guids) (hcounts : g'.subGroupsCounts = g.subGroupsCounts)
    (hslots : ∀ i, slotsIn g'.memberSlots i = slotsIn g.memberSlots i)
    (hgroups : ∀ slot ∈ g'.memberSlots, slot.group < maxRaidSubgroups) : Membership g' := by
  have hlength : g'.memberSlots.length = g.memberSlots.length := by
    have := congrArg List.length hguids
    rwa [Group.guids, Group.guids, length_map, length_map] at this
  refine ⟨hguids ▸ h.nodup, fun hr => ?_, ?_, fun hr => ?_, hgroups⟩
  · obtain ⟨counts, hsome, hcounted⟩ := h.counted (hraid ▸ hr)
    refine ⟨counts, hcounts.trans hsome, fun i hi => ?_⟩
    rw [hslots]
    exact hcounted i hi
  · rw [hlength, hraid]
    exact h.size
  · rw [hcounts]
    exact h.party (hraid ▸ hr)

/-- A change of flags. -/
theorem group_of_mem_modifySlot {change : MemberSlot → MemberSlot} {slot : MemberSlot}
    (h : slot ∈ modifySlot guid change slots) : slot ∈ slots ∨ ∃ old ∈ slots, slot = change old := by
  induction slots with
  | nil => exact absurd h not_mem_nil
  | cons first slots ih =>
    rw [modifySlot] at h
    split_ifs at h
    · rcases mem_cons.mp h with rfl | h
      · exact Or.inr ⟨first, mem_cons_self, rfl⟩
      · exact Or.inl (mem_cons_of_mem _ h)
    · rcases mem_cons.mp h with rfl | h
      · exact Or.inl mem_cons_self
      · rcases ih h with h | ⟨old, hold, rfl⟩
        · exact Or.inl (mem_cons_of_mem _ h)
        · exact Or.inr ⟨old, mem_cons_of_mem _ hold, rfl⟩

theorem guids_toggle (flag : GroupMemberFlags) (apply : Bool) (slots : List MemberSlot) :
    (modifySlot guid (toggleGroupMemberFlag flag apply) slots).map MemberSlot.guid =
      slots.map MemberSlot.guid := guids_modifySlot fun _ => rfl

/-- Flags do not matter for the membership. -/
theorem Membership.toggle (h : Membership g) (flag : GroupMemberFlags) (apply : Bool)
    (leader : Guid) :
    Membership { g with
      leaderGuid := leader
      memberSlots := modifySlot guid (toggleGroupMemberFlag flag apply) g.memberSlots } := by
  refine h.congr rfl (guids_modifySlot fun _ => rfl) rfl
    (slotsIn_modifySlot_of_group fun _ => rfl) fun slot hslot => ?_
  rcases group_of_mem_modifySlot hslot with hslot | ⟨old, hold, rfl⟩
  · exact h.groups slot hslot
  · exact h.groups old hold

theorem Membership.toggleAll (h : Membership g) (flag : GroupMemberFlags) :
    Membership { g with memberSlots := g.memberSlots.map (toggleGroupMemberFlag flag false) } := by
  refine h.congr rfl ?_ rfl (fun i => ?_) fun slot hslot => ?_
  · rw [Group.guids, map_map]
    rfl
  · rw [slotsIn, countP_map]
    rfl
  · obtain ⟨old, hold, rfl⟩ := mem_map.mp hslot
    exact h.groups old hold

section

variable (h : Membership s.group)
include h

theorem Membership.removeSlot : Membership (removeSlot guid s).group := by
  have hnone : getMemberSlot guid s.group.memberSlots = none →
      s.group.memberSlots.eraseP (fun slot => slot.guid = guid) = s.group.memberSlots := by
    intro hslot
    exact eraseP_of_forall_not (List.find?_eq_none.mp hslot)
  refine ⟨?_, fun hraid => ?_, ?_, fun hraid => ?_, fun slot hslot => ?_⟩
  · rw [Group.guids, Groups.removeSlot]
    rw [guids_eraseP]
    exact h.nodup.erase guid
  · obtain ⟨counts, hcounts, hcounted⟩ := h.counted hraid
    rw [Groups.removeSlot]
    rw [hcounts]
    cases hslot : getMemberSlot guid s.group.memberSlots with
    | none =>
      rw [hnone hslot]
      exact ⟨counts, rfl, hcounted⟩
    | some slot =>
      have hgroup := h.groups slot (mem_of_getMemberSlot hslot)
      exact ⟨_, rfl, hcounted.erase hslot hgroup⟩
  · exact (length_eraseP_le).trans h.size
  · rw [Groups.removeSlot]
    rw [h.party hraid]
    split <;> rfl
  · exact h.groups slot (mem_of_mem_eraseP hslot)

omit h in
theorem onlineCount_eq (online : Guid → Bool) (g : Group) :
    g.onlineCount online = g.guids.countP online := by
  rw [Group.guids, countP_map]
  rfl

/-- Another leader is chosen: the members stay, and if one of them is online, the leader is one of
them. -/
theorem Membership.pickNewLeader (online : Guid → Bool)
    (hleader : s.group.leaderGuid ≠ guid → s.group.leaderGuid ∈ s.group.guids) :
    Membership (pickNewLeader online guid s).group ∧
      (pickNewLeader online guid s).group.guids = s.group.guids ∧
      (0 < s.group.onlineCount online →
        (pickNewLeader online guid s).group.leaderGuid ∈ s.group.guids) := by
  rw [Groups.pickNewLeader]
  split_ifs with hguid
  · cases hfind : s.group.memberSlots.find? fun slot => online slot.guid with
    | none =>
      refine ⟨h, rfl, fun hpos => ?_⟩
      obtain ⟨slot, hslot, honline⟩ := countP_pos_iff.mp hpos
      exact absurd honline (List.find?_eq_none.mp hfind slot hslot)
    | some slot =>
      have hslot : slot.guid ∈ s.group.guids := mem_map_of_mem (mem_of_find?_eq_some hfind)
      have honline : online slot.guid = true := by simpa using List.find?_some hfind
      dsimp only
      rw [changeLeader, if_pos ⟨getMemberSlot_isSome.mpr hslot, honline⟩]
      exact ⟨h.toggle .assistant false slot.guid, guids_modifySlot fun _ => rfl, fun _ => hslot⟩
  · exact ⟨h, rfl, fun _ => hleader hguid⟩

theorem Membership.changeMembersGroup {group : ℕ}
    (hgroup : group < maxRaidSubgroups) (hfree : s.group.hasFreeSlotSubGroup group = true) :
    Membership (changeMembersGroup guid group s).group := by
  rw [Groups.changeMembersGroup]
  cases hslot : getMemberSlot guid s.group.memberSlots with
  | none => exact h
  | some slot =>
    dsimp only
    by_cases hsame : ¬ s.group.raid = true ∨ slot.group = group
    · rw [if_pos hsame]
      exact h
    · rw [if_neg hsame]
      obtain ⟨hraid, hne⟩ := not_or.mp hsame
      obtain ⟨counts, hcounts, hcounted⟩ := h.counted (not_not.mp hraid)
      rw [Group.hasFreeSlotSubGroup, hcounts, Option.any_some, decide_eq_true_eq] at hfree
      have hguids := @guids_modifySlot guid s.group.memberSlots
        (fun slot => { slot with group := group }) fun _ => rfl
      refine ⟨?_, fun _ => ?_, ?_, fun hparty => absurd hparty (by rw [not_not.mp hraid]; decide),
        fun moved hmoved => ?_⟩
      · rw [Group.guids, hguids]
        exact h.nodup
      · rw [hcounts]
        exact ⟨_, rfl, hcounted.move hslot hne hfree⟩
      · rw [length_modifySlot]
        exact h.size
      · rcases group_of_mem_modifySlot hmoved with hmoved | ⟨old, -, rfl⟩
        · exact h.groups moved hmoved
        · exact hgroup

omit h in
theorem changeMembersGroup_guids (guid : Guid) (group : ℕ) (s : State) :
    (changeMembersGroup guid group s).group.guids = s.group.guids ∧
      (changeMembersGroup guid group s).group.leaderGuid = s.group.leaderGuid := by
  rw [changeMembersGroup]
  cases getMemberSlot guid s.group.memberSlots with
  | none => exact ⟨rfl, rfl⟩
  | some slot =>
    dsimp only
    by_cases hsame : ¬ s.group.raid = true ∨ slot.group = group
    · rw [if_pos hsame]
      exact ⟨rfl, rfl⟩
    · rw [if_neg hsame]
      exact ⟨guids_modifySlot fun _ => rfl, rfl⟩

theorem Membership.changeLeader (online : Guid → Bool)
    (hleader : s.group.leaderGuid ∈ s.group.guids) :
    Membership (changeLeader online guid s).group ∧
      (changeLeader online guid s).group.leaderGuid ∈ (changeLeader online guid s).group.guids := by
  rw [Groups.changeLeader]
  split_ifs with hmember
  · have hnew : guid ∈ (modifySlot guid (toggleGroupMemberFlag .assistant false)
        s.group.memberSlots).map MemberSlot.guid := by
      rw [guids_toggle]
      exact getMemberSlot_isSome.mp hmember.1
    exact ⟨h.toggle .assistant false guid, hnew⟩
  · exact ⟨h, hleader⟩

theorem Membership.setGroupMemberFlag (apply : Bool) (flag : GroupMemberFlags) :
    Membership (setGroupMemberFlag guid apply flag s).group ∧
      (setGroupMemberFlag guid apply flag s).group.guids = s.group.guids ∧
      (setGroupMemberFlag guid apply flag s).group.leaderGuid = s.group.leaderGuid ∧
      (setGroupMemberFlag guid apply flag s).alive = s.alive := by
  have hall : ∀ flag, (removeUniqueGroupMemberFlag flag s).group.guids = s.group.guids := by
    intro flag
    rw [Group.guids, removeUniqueGroupMemberFlag, map_map]
    rfl
  rw [Groups.setGroupMemberFlag.eq_def]
  split_ifs
  · cases flag with
    | assistant =>
      exact ⟨h.toggle .assistant apply s.group.leaderGuid, guids_toggle _ apply _, rfl, rfl⟩
    | mainTank =>
      exact ⟨(h.toggleAll .mainTank).toggle .mainTank apply s.group.leaderGuid,
        (guids_toggle _ apply _).trans (hall _), rfl, rfl⟩
    | mainAssist =>
      exact ⟨(h.toggleAll .mainAssist).toggle .mainAssist apply s.group.leaderGuid,
        (guids_toggle _ apply _).trans (hall _), rfl, rfl⟩
  · exact ⟨h, rfl, rfl, rfl⟩

end

/-- The lead does not change what kind of group it is. -/
theorem pickNewLeader_kind (online : Guid → Bool) (guid : Guid) (s : State) :
    (pickNewLeader online guid s).alive = s.alive ∧
      (pickNewLeader online guid s).group.lfg = s.group.lfg ∧
      (pickNewLeader online guid s).group.bg = s.group.bg := by
  rw [pickNewLeader]
  split_ifs
  · split
    · exact ⟨rfl, rfl, rfl⟩
    · rw [changeLeader]
      split_ifs <;> exact ⟨rfl, rfl, rfl⟩
  · exact ⟨rfl, rfl, rfl⟩

/-- The ways `RemoveMember` ends: members of a dungeon finder group are kicked by vote, a small
group is disbanded at once, the last member of a dungeon finder group has nothing to stay for, too
few members are online, or the group goes on. -/
theorem removeMember_cases (guid : Guid) (kick outside : Bool) (online : Guid → Bool) (s : State) :
    (s.group.lfg = true ∧ kick = true) ∧
        removeMember guid kick outside online s = (!s.group.memberSlots.isEmpty, s) ∨
      ¬ (s.group.lfg = true ∧ kick = true) ∧
        (¬ s.group.removeThreshold < s.group.memberSlots.length ∧
            removeMember guid kick outside online s = (false, disband s) ∨
          s.group.removeThreshold < s.group.memberSlots.length ∧
            ((s.group.lfg = true ∧ (remaining guid online s).memberSlots.length = 1 ∧
                (¬ online (remaining guid online s).leaderGuid = true ∨ outside = true)) ∧
                removeMember guid kick outside online s =
                  (false, disband (pickNewLeader online guid (removeSlot guid s))) ∨
              ¬ (s.group.lfg = true ∧ (remaining guid online s).memberSlots.length = 1 ∧
                (¬ online (remaining guid online s).leaderGuid = true ∨ outside = true)) ∧
                ((remaining guid online s).onlineCount online < s.group.disbandThreshold ∧
                    removeMember guid kick outside online s =
                      (true, disband (pickNewLeader online guid (removeSlot guid s))) ∨
                  s.group.disbandThreshold ≤ (remaining guid online s).onlineCount online ∧
                    removeMember guid kick outside online s =
                      (true, pickNewLeader online guid (removeSlot guid s))))) := by
  obtain ⟨-, hlfg, hbg⟩ := pickNewLeader_kind online guid (removeSlot guid s)
  have hthreshold : (pickNewLeader online guid (removeSlot guid s)).group.disbandThreshold =
      s.group.disbandThreshold := by
    rw [Group.disbandThreshold, hlfg, hbg]
    rfl
  rw [removeMember, remaining]
  dsimp only
  rw [hlfg, hthreshold]
  by_cases hkick : s.group.lfg = true ∧ kick = true
  · exact Or.inl ⟨hkick, if_pos hkick⟩
  refine Or.inr ⟨hkick, ?_⟩
  rw [if_neg hkick]
  by_cases hmany : s.group.removeThreshold < s.group.memberSlots.length
  swap
  · exact Or.inl ⟨hmany, if_neg hmany⟩
  refine Or.inr ⟨hmany, ?_⟩
  split_ifs with hlast hfew
  · exact Or.inl ⟨hlast, rfl⟩
  · exact Or.inr ⟨hlast, Or.inl ⟨hfew, rfl⟩⟩
  · exact Or.inr ⟨hlast, Or.inr ⟨Nat.not_lt.mp hfew, rfl⟩⟩

/-! ### Runs -/

/-- A group that goes on has its members and a leader among them. -/
theorem Membership.remaining (h : Membership s.group) (hleader : s.group.leaderGuid ∈ s.group.guids)
    (online : Guid → Bool)
    (henough : s.group.disbandThreshold ≤ (remaining guid online s).onlineCount online) :
    Membership (remaining guid online s) ∧
      (remaining guid online s).leaderGuid ∈ (remaining guid online s).guids := by
  have hslots : Membership (Groups.removeSlot guid s).group := h.removeSlot
  have hstays : (Groups.removeSlot guid s).group.leaderGuid ≠ guid →
      (Groups.removeSlot guid s).group.leaderGuid ∈ (Groups.removeSlot guid s).group.guids := by
    intro hne
    rw [Group.guids, Groups.removeSlot]
    rw [guids_eraseP]
    exact (mem_erase_of_ne hne).mpr hleader
  obtain ⟨hleft, hguids, hnew⟩ := hslots.pickNewLeader online hstays
  have hpositive : 0 < s.group.disbandThreshold := by
    rw [Group.disbandThreshold]
    split_ifs
    · exact Nat.one_pos
    · exact Nat.two_pos
  have honline : 0 < (Groups.removeSlot guid s).group.onlineCount online := by
    rw [onlineCount_eq, ← hguids, ← onlineCount_eq]
    exact hpositive.trans_le henough
  refine ⟨hleft, ?_⟩
  rw [Groups.remaining, hguids]
  exact hnew honline

/-- The outcome of `RemoveMember`. -/
theorem Sound.removeMember (h : Sound s) (halive : s.alive = true) (kick outside : Bool)
    (online : Guid → Bool) :
    (Right s (.removeMember guid kick outside online) ↔
        Safe s (.removeMember guid kick outside online)) ∧
      (Safe s (.removeMember guid kick outside online) →
        Sound (Groups.removeMember guid kick outside online s).2) := by
  have hmembership := h.membership halive
  have hleader := h.leader halive
  have hstep : step s (.removeMember guid kick outside online) =
      (Groups.removeMember guid kick outside online s).2 := by
    rw [step, if_pos halive, perform]
  have hgone : ∀ left : State, Sound (disband left) := fun _ =>
    ⟨fun hno => Bool.noConfusion hno, fun hno => Bool.noConfusion hno⟩
  simp only [Right, Safe, hstep, halive, true_implies]
  rcases removeMember_cases guid kick outside online s with ⟨hkick, heq⟩ | ⟨hkick, hcases⟩
  · rw [heq]
    have hsome : (!s.group.memberSlots.isEmpty) = true := by
      obtain ⟨slot, hslot, -⟩ := mem_map.mp hleader
      rw [Bool.not_eq_true', isEmpty_eq_false_iff]
      exact ne_nil_of_mem hslot
    exact ⟨iff_of_true ⟨fun _ => hmembership.consistent hleader, hsome.trans halive.symm⟩
      fun hno => absurd hkick hno, fun _ => h⟩
  rcases hcases with ⟨hmany, heq⟩ | ⟨hmany, ⟨hlast, heq⟩ | ⟨hlast, ⟨hfew, heq⟩ | ⟨henough, heq⟩⟩⟩
  · rw [heq]
    exact ⟨iff_of_true ⟨fun hno => Bool.noConfusion hno, rfl⟩ fun _ hmore => absurd hmore hmany,
      fun _ => hgone s⟩
  · rw [heq]
    exact ⟨iff_of_true ⟨fun hno => Bool.noConfusion hno, rfl⟩ fun _ _ hno => absurd hlast hno,
      fun _ => hgone _⟩
  · rw [heq]
    refine ⟨iff_of_false (fun hright => Bool.noConfusion hright.2) fun hsafe => ?_, fun hsafe => ?_⟩
    · exact absurd (hsafe hkick hmany hlast) (Nat.not_le.mpr hfew)
    · exact absurd (hsafe hkick hmany hlast) (Nat.not_le.mpr hfew)
  · rw [heq]
    obtain ⟨hleft, hnewLeader⟩ := hmembership.remaining hleader online henough
    have halive' := (pickNewLeader_kind online guid (removeSlot guid s)).1.trans halive
    exact ⟨iff_of_true ⟨fun _ => hleft.consistent hnewLeader, halive'.symm⟩
      fun _ _ _ => henough, fun _ => ⟨fun _ => hleft, fun _ => hnewLeader⟩⟩

/-- A step that keeps the membership and the leader. -/
theorem Sound.keeps {event : Event} (hplain : ∀ s, Safe s event) (hanswer : ∀ s, Right s event ↔
      ((step s event).alive = true → Consistent (step s event).group))
    (halive : s.alive = true) (hmembership : Membership (perform s event).group)
    (hleader : (perform s event).group.leaderGuid ∈ (perform s event).group.guids) :
    (Right s event ↔ Safe s event) ∧ (Safe s event → Sound (step s event)) := by
  have hstep : step s event = perform s event := by rw [step, if_pos halive]
  rw [hanswer s, hstep]
  exact ⟨iff_of_true (fun _ => hmembership.consistent hleader) (hplain s),
    fun _ => ⟨fun _ => hmembership, fun _ => hleader⟩⟩

/-- One step: it is right exactly when it is safe, and a safe step keeps the invariant. -/
theorem Sound.step (h : Sound s) {event : Event} (hallowed : Allowed s event) :
    (Right s event ↔ Safe s event) ∧ (Safe s event → Sound (step s event)) := by
  cases halive : s.alive with
  | false =>
    have hstep : Groups.step s event = s := by rw [Groups.step, halive]; rfl
    have hdead : ¬ s.alive = true := by rw [halive]; exact Bool.false_ne_true
    have hsafe : Safe s event := by
      cases event with
      | addMember guid => exact fun hyes => absurd hyes hdead
      | removeMember guid kick outside online => exact fun hyes => absurd hyes hdead
      | _ => trivial
    have hright : Right s event := by
      refine ⟨fun hyes => absurd (hstep ▸ hyes) hdead, ?_⟩
      cases event with
      | removeMember guid kick outside online => exact fun hyes => absurd hyes hdead
      | _ => trivial
    rw [hstep]
    exact ⟨iff_of_true hright hsafe, fun _ => h⟩
  | true =>
    have hmembership := h.membership halive
    have hleader := h.leader halive
    have hstep : Groups.step s event = perform s event := by rw [Groups.step, if_pos halive]
    cases event with
    | addMember guid =>
      obtain ⟨halive', hleader', hguids, hadd⟩ := @Membership.addMember guid s hmembership hallowed
      have hiff : Consistent (Groups.addMember guid s).2.group ↔ guid ∉ s.group.guids := by
        constructor
        · intro hright hmem
          have hnodup := hright.nodup
          rw [hguids, nodup_append] at hnodup
          exact hnodup.2.2 guid hmem guid (mem_singleton_self guid) rfl
        · intro hnew
          refine (hadd hnew).consistent ?_
          rw [hleader', hguids]
          exact mem_append_left _ hleader
      have hright : Right s (.addMember guid) ↔ guid ∉ s.group.guids := by
        refine (and_iff_left trivial).trans ?_
        rw [hstep, ← hiff, perform, halive', halive]
        exact ⟨fun hyes => hyes rfl, fun hyes _ => hyes⟩
      have hsafe : Safe s (.addMember guid) ↔ guid ∉ s.group.guids :=
        ⟨fun hyes => hyes halive, fun hyes _ => hyes⟩
      rw [hright, hsafe, hstep]
      exact ⟨Iff.rfl, fun hnew => ⟨fun _ => hadd hnew, fun _ => (hiff.mpr hnew).leader⟩⟩
    | removeMember guid kick outside online =>
      rw [hstep]
      exact h.removeMember halive kick outside online
    | changeMembersGroup guid group =>
      refine Sound.keeps (fun _ => trivial) (fun _ => and_iff_left trivial) halive
        (hmembership.changeMembersGroup hallowed.1 hallowed.2) ?_
      obtain ⟨hguids, hsame⟩ := changeMembersGroup_guids guid group s
      rw [perform, hguids, hsame]
      exact hleader
    | convertToRaid =>
      exact Sound.keeps (fun _ => trivial) (fun _ => and_iff_left trivial) halive
        hmembership.convertToRaid hleader
    | changeLeader guid online =>
      obtain ⟨hchanged, hnew⟩ := @Membership.changeLeader guid s hmembership online hleader
      exact Sound.keeps (fun _ => trivial) (fun _ => and_iff_left trivial) halive hchanged hnew
    | disband =>
      rw [hstep]
      refine ⟨iff_of_true ⟨fun hno => ?_, trivial⟩ trivial, fun _ => ⟨fun hno => ?_, fun hno => ?_⟩⟩
      · rw [hstep] at hno
        cases hno
      · cases hno
      · cases hno
    | setGroupMemberFlag guid apply flag =>
      obtain ⟨hset, hguids, hsame, -⟩ :=
        @Membership.setGroupMemberFlag guid s hmembership apply flag
      refine Sound.keeps (fun _ => trivial) (fun _ => and_iff_left trivial) halive hset ?_
      rw [perform, hguids, hsame]
      exact hleader
    | partyAssignment guid apply flag =>
      obtain ⟨hset, hguids, hsame, -⟩ := @Membership.setGroupMemberFlag guid
        (removeUniqueGroupMemberFlag flag s) (hmembership.toggleAll flag) apply flag
      refine Sound.keeps (fun _ => trivial) (fun _ => and_iff_left trivial) halive hset ?_
      rw [perform, hguids, hsame, Group.guids, removeUniqueGroupMemberFlag, map_map]
      exact hleader

/-- A new group has its leader as the only member. -/
theorem sound_create (kind : GroupKind) (leader : Guid) : Sound (create kind leader) := by
  have hempty : Membership (newGroup kind leader).group := by
    refine ⟨nodup_nil, fun hraid => ?_, Nat.zero_le _, fun hraid => ?_,
      fun slot hslot => absurd hslot not_mem_nil⟩
    · refine ⟨initRaidSubGroupsCounter [], if_pos (of_decide_eq_true hraid), fun i _ => ?_⟩
      exact ⟨rfl, Nat.zero_le _⟩
    · exact if_neg (of_decide_eq_false hraid)
  have hfull : (newGroup kind leader).group.isFull = false := by cases kind <;> rfl
  obtain ⟨-, hleader, hguids, hadd⟩ := @Membership.addMember leader _ hempty hfull
  refine ⟨fun _ => hadd not_mem_nil, fun _ => ?_⟩
  rw [create, hguids, hleader]
  exact mem_append_right _ (mem_singleton_self leader)

/-- **Membership is right exactly in the safe runs.** For every group that is created and every
sequence of events that can occur: the slots, the counters and the leader agree after every step
while the group exists and every answer of `RemoveMember` tells whether it does, if and only if no
member is added again and no `RemoveMember` comes to its last check with too few members online. -/
theorem right_iff (kind : GroupKind) (leader : Guid) (events : List Event)
    (h : Run.Along step Allowed (create kind leader) events) :
    Run.Along step Right (create kind leader) events ↔
      Run.Along step Safe (create kind leader) events :=
  Run.along_iff_of_along Sound (fun _ _ hs hallowed => (hs.step hallowed).1)
    (fun _ _ hs hallowed => (hs.step hallowed).2) (sound_create kind leader) h

/-- A party of three becomes a raid, a member moves to another subgroup, and the leader leaves. -/
theorem right_of_safe_run :
    Run.Along step Allowed (create .party 1)
        [.addMember 2, .addMember 3, .convertToRaid, .changeMembersGroup 2 4,
          .removeMember 1 false false fun _ => true] ∧
      Run.Along step Right (create .party 1)
        [.addMember 2, .addMember 3, .convertToRaid, .changeMembersGroup 2 4,
          .removeMember 1 false false fun _ => true] := by
  have hallowed : Run.Along step Allowed (create .party 1)
      [.addMember 2, .addMember 3, .convertToRaid, .changeMembersGroup 2 4,
        .removeMember 1 false false fun _ => true] := by decide +kernel
  exact ⟨hallowed, (right_iff _ _ _ hallowed).mpr (by decide +kernel)⟩

/-- A party of three, two of them offline: the third is removed, which disbands the party, and
`RemoveMember` answers that it is still there. -/
theorem removeMember_not_right :
    Run.Along step Allowed (create .party 1)
        [.addMember 2, .addMember 3, .removeMember 2 false false fun guid => guid = 1] ∧
      ¬ Run.Along step Right (create .party 1)
        [.addMember 2, .addMember 3, .removeMember 2 false false fun guid => guid = 1] := by
  refine ⟨by decide +kernel, fun hright => ?_⟩
  have hanswer := hright.2.2.1.2 (by decide +kernel)
  revert hanswer
  decide +kernel

end IscServer.Groups
