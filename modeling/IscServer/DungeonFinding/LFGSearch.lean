import IscServer.DungeonFinding.LFGKeys

/-!
# The Steps of a Search

What `FindGroups` writes, read off its control flow: a combination is cached with less players
only when all its entries have data, a compatibility stored by itself never says so, and nothing
is added to the new entries. `emits_findGroups` collects these facts for the log of a whole search.

## Main results

* `emits_findGroups` — the steps of a search.
* `newToQueueStore_findGroups` — a search ends with no new entries left.
-/

namespace IscServer.DungeonFinding

open List

open Traced

variable {check : List Guid} {guid : Guid} {answers : Answers} {q : LFGQueue} {oracle : Oracle}
  {s : Finder}

/-! ### Entries with data -/

variable {numPlayers numLfgGroups : ℕ}

/-- The count of the members that reaches the end has seen data for all entries. -/
theorem isSome_of_countMembers {numPlayers' numLfgGroups' : ℕ}
    (h : countMembers answers q check numPlayers numLfgGroups = .ok (numPlayers', numLfgGroups'))
    (hplayers : numPlayers' ≤ 5) (hgroups : numLfgGroups' < 2) :
    ∀ guid ∈ check, (q.queueDataStore guid).isSome := by
  induction check generalizing numPlayers numLfgGroups with
  | nil => exact fun _ h => absurd h not_mem_nil
  | cons first check ih =>
    rw [countMembers] at h
    by_cases hgo : numLfgGroups < 2 ∧ numPlayers ≤ 5
    · rw [if_pos hgo] at h
      cases hdata : q.queueDataStore first with
      | none =>
        rw [hdata] at h
        cases h
      | some data =>
        rw [hdata] at h
        intro guid hguid
        rcases mem_cons.mp hguid with rfl | hguid
        · rw [hdata]
          rfl
        · exact ih h guid hguid
    · -- the loop stopped early, so one of the numbers is too high
      rw [if_neg hgo] at h
      cases h
      exact absurd ⟨hgroups, hplayers⟩ hgo

/-- A single entry that could be counted has data. -/
theorem isSome_of_countMembers_single
    (h : countMembers answers q [guid] 0 0 = .ok (numPlayers, numLfgGroups)) :
    (q.queueDataStore guid).isSome := by
  cases hdata : q.queueDataStore guid with
  | none =>
    rw [countMembers, if_pos ⟨by decide, by decide⟩, hdata] at h
    cases h
  | some data => rfl

/-- **Less players**: a combination that has a place left consists of entries with data. -/
theorem judge_withLess {roles : LfgRolesMap} (h : judge answers q check = .withLess roles) :
    ∀ guid ∈ check, (q.queueDataStore guid).isSome := by
  rw [judge] at h
  split at h
  case h_1 => cases h
  case h_2 numPlayers numLfgGroups hcount =>
    by_cases hsingle : check.length = 1 ∧ numPlayers ≠ 5
    · obtain ⟨only, rfl⟩ := length_eq_one_iff.mp hsingle.1
      intro guid hguid
      rw [mem_singleton.mp hguid]
      exact isSome_of_countMembers_single hcount
    · rw [if_neg hsingle] at h
      by_cases hgroups : numLfgGroups > 1
      · rw [if_pos hgroups] at h
        cases h
      · rw [if_neg hgroups] at h
        by_cases hplayers : numPlayers > 5
        · rw [if_pos hplayers] at h
          cases h
        · exact isSome_of_countMembers hcount (Nat.not_lt.mp hplayers)
            (Nat.lt_succ_of_le (Nat.not_lt.mp hgroups))

/-! ### What is written -/

/-- The steps that a search can make. -/
def Searching (s : QueueState) : QueueOp → Prop
  | .removeFromNewQueue _ | .addToCurrentQueue _ | .addProposal _ _ | .assumeMatch _ => True
  | .removeFromQueue guid => s.queueDataStore guid = none
  | .setCompatibles _ compatibles => compatibles ≠ .withLessPlayers
  | .setWithLess check _ => check ≠ [] ∧ ∀ guid ∈ check, (s.queueDataStore guid).isSome
  | _ => False

theorem emits_decideCompatibility (hcheck : check ≠ []) :
    Emits applyOp Searching s (decideCompatibility oracle s check).2 := by
  rw [decideCompatibility]
  cases hverdict : judge (oracle s.trace) s.core.toLFGQueue check with
  | missing guid => exact Emits.emit (judge_missing hverdict).2
  | incompatible compatibles =>
    refine Emits.emit fun heq => ?_
    have hfalse := judge_incompatible hverdict
    rw [heq] at hfalse
    cases hfalse
  | withLess roles => exact Emits.emit ⟨hcheck, judge_withLess hverdict⟩
  | badStates => exact Emits.emit fun h => by cases h
  | proposal players => exact Emits.emit trivial

theorem emits_checkCompatibility :
    Emits applyOp Searching s (checkCompatibility oracle s check).2 := by
  induction check generalizing s with
  | nil => exact Emits.refl
  | cons guid rest ih =>
    rw [checkCompatibility]
    dsimp only
    split_ifs with hlong hchild hcompatible
    · exact Emits.refl
    · exact ih.trans (emits_decideCompatibility (cons_ne_nil _ _))
    · refine ih.trans (Emits.emit fun heq => ?_)
      rw [heq] at hcompatible
      exact hcompatible rfl
    · exact emits_decideCompatibility (cons_ne_nil _ _)

theorem emits_evaluate : Emits applyOp Searching s (evaluate oracle s check).2 := by
  have hlookUp : Emits applyOp Searching s (lookUpOrCheck oracle s check).2 := by
    rw [lookUpOrCheck]
    split_ifs
    · exact emits_checkCompatibility
    · exact Emits.refl
  rw [evaluate]
  split_ifs
  · exact hlookUp.trans (Emits.emit trivial)
  · exact hlookUp

variable {all : List Guid}

theorem emits_tryWaiting : Emits applyOp Searching s (tryWaiting oracle s check all).2 := by
  induction all generalizing s check with
  | nil => exact Emits.refl
  | cons guid all ih =>
    rw [tryWaiting]
    split_ifs
    · exact emits_evaluate
    · exact emits_evaluate.trans ih
    · exact emits_evaluate.trans ih

theorem emits_findNewGroups : Emits applyOp Searching s (findNewGroups oracle s check all).2 := by
  rw [findNewGroups]
  split_ifs
  · exact emits_evaluate
  · exact emits_evaluate.trans emits_tryWaiting
  · exact emits_evaluate

/-- One round of `FindGroups` for a new entry. -/
def findGroup (oracle : Oracle) (s : Finder) (front : Guid) : Finder :=
  let taken := s.write (.removeFromNewQueue front)
  let found := findNewGroups oracle taken [front] taken.core.currentQueueStore
  if found.1 then found.2 else found.2.write (.addToCurrentQueue front)

variable (fuel : ℕ) {front : Guid} {rest : List Guid}

theorem findGroupsLoop_succ (h : s.core.newToQueueStore = front :: rest) :
    findGroupsLoop oracle (fuel + 1) s =
      findGroupsLoop oracle fuel (findGroup oracle s front) := by
  rw [findGroupsLoop, h]
  rfl

theorem findGroupsLoop_nil (h : s.core.newToQueueStore = []) :
    findGroupsLoop oracle fuel s = s := by
  cases fuel with
  | zero => rfl
  | succ fuel => rw [findGroupsLoop, h]

theorem emits_findGroup : Emits applyOp Searching s (findGroup oracle s front) := by
  rw [findGroup]
  have htaken : Emits applyOp Searching s (s.write (.removeFromNewQueue front)) :=
    Emits.emit trivial
  split_ifs
  · exact htaken.trans emits_findNewGroups
  · exact (htaken.trans emits_findNewGroups).trans (Emits.emit trivial)

theorem emits_findGroupsLoop : Emits applyOp Searching s (findGroupsLoop oracle fuel s) := by
  induction fuel generalizing s with
  | zero => exact Emits.refl
  | succ fuel ih =>
    cases hnew : s.core.newToQueueStore with
    | nil =>
      rw [findGroupsLoop_nil _ hnew]
      exact Emits.refl
    | cons front rest =>
      rw [findGroupsLoop_succ fuel hnew]
      exact emits_findGroup.trans ih

/-- **The steps of a search.** -/
theorem emits_findGroups : Emits applyOp Searching s (findGroups oracle s) :=
  emits_findGroupsLoop _

variable {op : QueueOp}

/-- A search adds no entries. -/
theorem queueDataStore_of_searching {s : QueueState} (h : Searching s op)
    (hnone : s.queueDataStore guid = none) : (applyOp s op).queueDataStore guid = none := by
  cases op with
  | removeFromQueue other =>
    change (if guid = other then none else _ : Option LfgQueueData) = none
    split_ifs
    · rfl
    · rw [hnone]
      rfl
  | setWithLess check roles =>
    change (if guid ∈ check then _ else _ : Option LfgQueueData) = none
    split_ifs
    · rw [hnone]
      rfl
    · exact hnone
  | removeFromNewQueue _ => exact hnone
  | addToCurrentQueue _ => exact hnone
  | setCompatibles _ _ => exact hnone
  | addProposal _ _ => exact hnone
  | assumeMatch _ => exact hnone
  | setQueueData _ _ _ _ => exact h.elim
  | addToNewQueue _ => exact h.elim
  | addToFrontCurrentQueue _ => exact h.elim
  | updateQueueTimers => exact h.elim
  | eraseProposal _ => exact h.elim

theorem queueDataStore_findGroups (hnone : s.core.queueDataStore guid = none) :
    (findGroups oracle s).core.queueDataStore guid = none :=
  emits_findGroups.keeps (fun core => core.queueDataStore guid = none)
    (fun _ _ hnone hop => queueDataStore_of_searching hop hnone) hnone

/-! ### The new entries -/

/-- A search adds nothing to the new entries. -/
theorem length_newToQueueStore_of_searching {s : QueueState} (h : Searching s op) :
    (applyOp s op).newToQueueStore.length ≤ s.newToQueueStore.length := by
  cases op with
  | removeFromNewQueue _ => exact length_filter_le _ _
  | removeFromQueue _ => exact length_filter_le _ _
  | addProposal _ _ => exact length_filter_le _ _
  | addToCurrentQueue _ => exact le_rfl
  | setCompatibles _ _ => exact le_rfl
  | setWithLess _ _ => exact le_rfl
  | assumeMatch _ => exact le_rfl
  | setQueueData _ _ _ _ => exact h.elim
  | addToNewQueue _ => exact h.elim
  | addToFrontCurrentQueue _ => exact h.elim
  | updateQueueTimers => exact h.elim
  | eraseProposal _ => exact h.elim

theorem length_newToQueueStore_of_emits {s' : Finder} (h : Emits applyOp Searching s s') :
    s'.core.newToQueueStore.length ≤ s.core.newToQueueStore.length :=
  h.keeps (fun core => core.newToQueueStore.length ≤ s.core.newToQueueStore.length)
    (fun _ _ hle hop => (length_newToQueueStore_of_searching hop).trans hle) le_rfl

/-- A round takes its entry from the new ones. -/
theorem length_newToQueueStore_findGroup (h : s.core.newToQueueStore = front :: rest) :
    (findGroup oracle s front).core.newToQueueStore.length ≤ rest.length := by
  have htaken : (s.write (.removeFromNewQueue front)).core.newToQueueStore.length ≤
      rest.length := by
    change (s.core.newToQueueStore.filter (· ≠ front)).length ≤ rest.length
    rw [h, filter_cons_of_neg (by simp)]
    exact length_filter_le _ _
  refine le_trans ?_ htaken
  rw [findGroup]
  split_ifs
  · exact length_newToQueueStore_of_emits emits_findNewGroups
  · exact length_newToQueueStore_of_emits (emits_findNewGroups.trans (Emits.emit trivial))

theorem newToQueueStore_findGroupsLoop (h : s.core.newToQueueStore.length ≤ fuel) :
    (findGroupsLoop oracle fuel s).core.newToQueueStore = [] := by
  induction fuel generalizing s with
  | zero => exact length_eq_zero_iff.mp (Nat.le_zero.mp h)
  | succ fuel ih =>
    cases hnew : s.core.newToQueueStore with
    | nil => rw [findGroupsLoop_nil _ hnew, hnew]
    | cons front rest =>
      rw [findGroupsLoop_succ fuel hnew]
      refine ih ((length_newToQueueStore_findGroup hnew).trans ?_)
      rw [hnew, length_cons] at h
      exact Nat.le_of_succ_le_succ h

/-- **A search ends** with no new entries left: the bound on its rounds is not reached before. -/
theorem newToQueueStore_findGroups : (findGroups oracle s).core.newToQueueStore = [] :=
  newToQueueStore_findGroupsLoop _ le_rfl

end IscServer.DungeonFinding
