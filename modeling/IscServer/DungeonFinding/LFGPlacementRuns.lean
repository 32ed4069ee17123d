import IscServer.DungeonFinding.LFGPlacement

/-!
# Nobody Is Lost or Duplicated in Orderly Runs

The events of a queue, from the empty one on: entries are added and removed, searches run,
proposals succeed and fail. A proposal that ends takes at least one of its entries out of the
queue, and with it every cached combination that contains its decimal form; so the cache keeps no
match of a proposal that is gone.

An entry can be removed while it belongs to a live proposal: it stays there. With the three points
at which a search goes wrong (`Orderly`) this is the fourth; `Undisturbed` excludes them, and
`placed_of_run` says that all other runs lose and duplicate nobody.

## Main results

* `placed_of_run` — the runs without the four steps.
* `not_placed` — a search that proposes an entry twice.
-/

namespace IscServer.DungeonFinding

open List

open Traced

variable {guids : List Guid} {guid : Guid} {known : Guid → Bool} {s s' s'' : QueueState}

/-! ### Entries that leave the queue -/

/-- `s'` is `s` without the entries `guids`, seen from the places. -/
structure Removed (guids : List Guid) (s s' : QueueState) : Prop where
  new : ∀ guid, s'.newToQueueStore.count guid =
    if guid ∈ guids then 0 else s.newToQueueStore.count guid
  current : ∀ guid, s'.currentQueueStore.count guid =
    if guid ∈ guids then 0 else s.currentQueueStore.count guid
  proposals : s'.proposalsStore = s.proposalsStore
  data : ∀ guid, (s'.queueDataStore guid).isSome =
    if guid ∈ guids then false else (s.queueDataStore guid).isSome
  cache : ∀ key stored, s'.compatibleMapStore.lookup key = some stored →
    s.compatibleMapStore.lookup key = some stored ∧ ∀ guid ∈ guids, ¬ sguid guid <:+: key

theorem Removed.refl : Removed [] s s where
  new _ := rfl
  current _ := rfl
  proposals := rfl
  data _ := rfl
  cache _ _ h := ⟨h, fun _ hmem => absurd hmem not_mem_nil⟩

/-- One entry leaves. -/
theorem removed_removeFromQueue : Removed [guid] s (removeFromQueue guid s) where
  new other := by
    change (s.newToQueueStore.filter (· ≠ guid)).count other = _
    rw [count_filter_ite]
    by_cases h : other = guid <;> simp [h]
  current other := by
    change (s.currentQueueStore.filter (· ≠ guid)).count other = _
    rw [count_filter_ite]
    by_cases h : other = guid <;> simp [h]
  proposals := rfl
  data other := by
    change (if other = guid then none else _ : Option LfgQueueData).isSome = _
    by_cases h : other = guid
    · rw [if_pos h, if_pos (mem_singleton.mpr h)]
      rfl
    · rw [if_neg h, if_neg fun hmem => h (mem_singleton.mp hmem), Option.isSome_map]
  cache key stored h := by
    have hlookup : (removeFromCompatibles guid s.compatibleMapStore).lookup key = some stored := h
    rw [lookup_removeFromCompatibles] at hlookup
    split_ifs at hlookup with hinfix
    exact ⟨hlookup, fun other hmem => by rwa [mem_singleton.mp hmem]⟩

theorem Removed.cons (h : Removed [guid] s s') (h' : Removed guids s' s'') :
    Removed (guid :: guids) s s'' where
  new other := by
    rw [h'.new, h.new]
    by_cases h1 : other = guid <;> by_cases h2 : other ∈ guids <;> simp [h1]
  current other := by
    rw [h'.current, h.current]
    by_cases h1 : other = guid <;> by_cases h2 : other ∈ guids <;> simp [h1]
  proposals := h'.proposals.trans h.proposals
  data other := by
    rw [h'.data, h.data]
    by_cases h1 : other = guid <;> by_cases h2 : other ∈ guids <;> simp [h1]
  cache key stored hstored := by
    obtain ⟨hstored', hguids⟩ := h'.cache key stored hstored
    obtain ⟨hstored'', hguid⟩ := h.cache key stored hstored'
    refine ⟨hstored'', forall_mem_cons.mpr ⟨?_, hguids⟩⟩
    exact hguid guid (mem_singleton_self guid)

/-- Entries that leave one after the other. -/
theorem removed_removeAllFromQueue (f : Finder) :
    Removed guids f.core (removeAllFromQueue f guids).core := by
  induction guids generalizing f with
  | nil => exact Removed.refl
  | cons guid guids ih => exact removed_removeFromQueue.cons (ih (f.write (.removeFromQueue guid)))

theorem Removed.matchLive (h : Removed guids s s') (hlive : MatchLive s) : MatchLive s' := by
  intro key stored hstored hmatched
  rw [h.proposals]
  exact hlive key stored (h.cache key stored hstored).1 hmatched

theorem Removed.inProposals (h : Removed guids s s') : s'.inProposals = s.inProposals := by
  rw [QueueState.inProposals, h.proposals]
  rfl

/-- **An entry outside the proposals** leaves the queue. -/
theorem Sound.removed (h : Sound known [] s) (hremoved : Removed guids s s')
    (hout : ∀ guid ∈ guids, guid ∉ s.inProposals) :
    Sound (fun guid => if guid ∈ guids then false else known guid) [] s' := by
  refine ⟨fun guid => ?_, fun guid => ?_, hremoved.matchLive h.live⟩
  · rw [hremoved.data, h.data]
  · have honce := h.once guid
    rw [QueueState.occurrences] at honce ⊢
    rw [hremoved.new, hremoved.current, hremoved.inProposals]
    by_cases hmem : guid ∈ guids
    · rw [if_pos hmem, if_pos hmem, if_pos hmem, count_eq_zero.mpr (hout guid hmem)]
      rfl
    · rw [if_neg hmem, if_neg hmem, if_neg hmem]
      exact honce

/-! ### Entries that come back -/

/-- The entries come back to the front of the waiting list. -/
theorem core_readdAllToQueue {f : Finder}
    (h : ∀ guid ∈ guids, (f.core.queueDataStore guid).isSome) :
    (readdAllToQueue f guids).core =
      { f.core with currentQueueStore := guids.reverse ++ f.core.currentQueueStore } := by
  induction guids generalizing f with
  | nil => rfl
  | cons guid guids ih =>
    obtain ⟨hguid, hguids⟩ := forall_mem_cons.mp h
    have hfirst : readdToQueue f guid = f.write (.addToFrontCurrentQueue guid) := by
      rw [readdToQueue, if_pos hguid]
    rw [readdAllToQueue, foldl_cons, hfirst]
    refine (@ih (f.write (.addToFrontCurrentQueue guid)) hguids).trans ?_
    rw [reverse_cons, append_assoc]
    rfl

/-! ### Proposals that end -/

variable {proposal : LfgProposal} {id : ℕ}

/-- A match stays live when a proposal ends whose key is cached no more. -/
theorem matchLive_eraseProposal
    (hid : s.proposalsStore.lookup id = some proposal) (hlive : MatchLive s)
    (hcache : proposal.queues ≠ [] →
      s.compatibleMapStore.lookup (concatenateGuids proposal.queues) = none) :
    MatchLive (applyOp s (.eraseProposal id)) := by
  intro key stored hstored hmatched
  obtain ⟨entry, hentry, hqueues, hkey⟩ := hlive key stored hstored hmatched
  have hlookup : s.proposalsStore.lookup entry.1 = some entry.2 := AList.mem_lookup_iff.mpr hentry
  have hne : entry.1 ≠ id := by
    intro heq
    rw [heq, hid] at hlookup
    rw [← Option.some.inj hlookup] at hkey hqueues
    rw [hkey] at hstored
    exact absurd ((hcache hqueues).symm.trans hstored) (Option.some_ne_none _).symm
  have hkept : (s.proposalsStore.erase id).lookup entry.1 = some entry.2 := by
    rw [AList.lookup_erase_ne hne]
    exact hlookup
  exact ⟨entry, AList.mem_lookup_iff.mp hkept, hqueues, hkey⟩

/-- **The end of a proposal**: some of its entries leave the queue, at least one, and the others
are back in the waiting list. -/
theorem Sound.proposalEnds {removed : List Guid} (h : Sound known [] s)
    (hid : s.proposalsStore.lookup id = some proposal) (hne : proposal.queues ≠ [] → removed ≠ [])
    (hsub : removed ⊆ proposal.queues) (hremoved : Removed removed s s') :
    Sound (fun guid => if guid ∈ removed then false else known guid) []
      (applyOp { s' with
          currentQueueStore :=
            (proposal.queues.filter (· ∉ removed)).reverse ++ s'.currentQueueStore }
        (.eraseProposal id)) := by
  have hid' : s'.proposalsStore.lookup id = some proposal := by rw [hremoved.proposals, hid]
  refine ⟨fun guid => ?_, fun guid => ?_, ?_⟩
  · change (s'.queueDataStore guid).isSome = _
    rw [hremoved.data, h.data]
  · have honce := h.once guid
    have hcount := count_inProposals_erase hid' guid
    rw [hremoved.inProposals] at hcount
    rw [QueueState.occurrences] at honce ⊢
    change [].count guid + (s'.newToQueueStore.count guid +
      ((proposal.queues.filter (· ∉ removed)).reverse ++ s'.currentQueueStore).count guid +
      ({ s' with proposalsStore := s'.proposalsStore.erase id } : QueueState).inProposals.count
        guid) = _
    rw [count_append, count_reverse, count_filter_ite, hremoved.new, hremoved.current]
    simp only [decide_eq_true_eq] at honce ⊢
    by_cases hmem : guid ∈ removed
    · -- the entry stood in this proposal only
      have hpos : 0 < proposal.queues.count guid := count_pos_iff.mpr (hsub hmem)
      have hle : (known guid).toNat ≤ 1 := by cases known guid <;> decide
      simp only [if_pos hmem, if_neg (not_not.mpr hmem), Bool.toNat_false]
      omega
    · simp only [if_neg hmem, if_pos hmem]
      omega
  · refine matchLive_eraseProposal hid' (hremoved.matchLive h.live) fun hqueues => ?_
    obtain ⟨guid, hguid⟩ := exists_mem_of_ne_nil removed (hne hqueues)
    cases hlookup : s'.compatibleMapStore.lookup (concatenateGuids proposal.queues) with
    | none => rfl
    | some stored =>
      have hinfix := sguid_infix_concatenateGuids (hsub hguid)
      exact absurd hinfix ((hremoved.cache _ stored hlookup).2 guid hguid)

/-! ### Runs -/

/-- The events as `LFGMgr` makes them: an entry is added only if it is neither queued nor in a
live proposal, and a proposal that fails takes at least one of its own entries out of the queue. -/
def Allowed (s : QueueState) : Event → Prop
  | .addQueueData guid _ _ _ => s.queueDataStore guid = none ∧ guid ∉ s.inProposals
  | .proposalFailed id removed =>
    removed ≠ [] ∧ ∀ proposal ∈ s.proposalsStore.lookup id, removed ⊆ proposal.queues
  | _ => True

instance decidableAllowed (s : QueueState) : (event : Event) → Decidable (Allowed s event)
  | .addQueueData _ _ _ _ => inferInstanceAs (Decidable (_ ∧ _))
  | .proposalFailed _ _ => inferInstanceAs (Decidable (_ ∧ _))
  | .removeFromQueue _ | .findGroups _ | .updateQueueTimers | .proposalSucceeded _ =>
    inferInstanceAs (Decidable True)

/-- An entry that is removed is in no live proposal, and the steps of a search are orderly. -/
def Undisturbed (s : QueueState) : Event → Prop
  | .removeFromQueue guid => guid ∉ s.inProposals
  | .findGroups oracle =>
    Run.Along applyOp Orderly s (perform s (.findGroups oracle)).trace
  | _ => True

instance decidableUndisturbed (s : QueueState) : (event : Event) → Decidable (Undisturbed s event)
  | .removeFromQueue guid => inferInstanceAs (Decidable (guid ∉ s.inProposals))
  | .findGroups _ => inferInstanceAs (Decidable (Run.Along _ _ _ _))
  | .addQueueData _ _ _ _ | .updateQueueTimers | .proposalSucceeded _ | .proposalFailed _ _ =>
    inferInstanceAs (Decidable True)

section

variable (h : Sound known [] s)
include h

/-- A new entry. -/
theorem Sound.addQueueData (hnone : s.queueDataStore guid = none)
    (joinTime : ℕ) (dungeons : List ℕ) (roles : LfgRolesMap) :
    Sound (fun other => if other = guid then true else known other) []
      (step s (.addQueueData guid joinTime dungeons roles)) := by
  refine ⟨fun other => ?_, fun other => ?_, h.live⟩
  · change (if other = guid then _ else _ : Option LfgQueueData).isSome = _
    split_ifs
    · rfl
    · exact h.data other
  · have honce := h.once other
    rw [QueueState.occurrences] at honce ⊢
    change [].count other + ((s.newToQueueStore ++ [guid]).count other +
      s.currentQueueStore.count other + s.inProposals.count other) = _
    rw [count_append]
    by_cases heq : other = guid
    · subst heq
      have hunknown : known other = false := by rw [← h.data other, hnone]; rfl
      rw [hunknown] at honce
      rw [if_pos rfl, count_singleton_self]
      simp only [Bool.toNat_false, Bool.toNat_true] at honce ⊢
      omega
    · have hzero : [guid].count other = 0 :=
        count_eq_zero.mpr fun hmem => heq (mem_singleton.mp hmem)
      rw [if_neg heq, hzero]
      exact honce

/-- The timers do not touch the places. -/
theorem Sound.updateQueueTimers : Sound known [] (step s .updateQueueTimers) := by
  refine ⟨fun guid => ?_, h.once, h.live⟩
  rw [← h.data guid]
  exact Option.isSome_map

/-- A proposal succeeds: all its entries leave the queue. -/
theorem Sound.proposalSucceeded (hid : s.proposalsStore.lookup id = some proposal) :
    Sound (fun guid => if guid ∈ proposal.queues then false else known guid) []
      (step s (.proposalSucceeded id)) := by
  have hremoved : Removed proposal.queues s
      (removeAllFromQueue ⟨s, []⟩ proposal.queues).core := removed_removeAllFromQueue ⟨s, []⟩
  have hends := h.proposalEnds hid (fun hne => hne) (List.Subset.refl _) hremoved
  have hnobody : proposal.queues.filter (· ∉ proposal.queues) = [] :=
    filter_eq_nil_iff.mpr fun guid hguid => by simpa using hguid
  rw [hnobody, reverse_nil, nil_append] at hends
  rw [DungeonFinding.step, perform, hid]
  exact hends

/-- A proposal fails: some of its entries leave the queue, the others wait again. -/
theorem Sound.proposalFailed {removed : List Guid}
    (hid : s.proposalsStore.lookup id = some proposal)
    (hne : removed ≠ []) (hsub : removed ⊆ proposal.queues) :
    Sound (fun guid => if guid ∈ removed then false else known guid) []
      (step s (.proposalFailed id removed)) := by
  have hremoved : Removed removed s (removeAllFromQueue ⟨s, []⟩ removed).core :=
    removed_removeAllFromQueue ⟨s, []⟩
  have hback : ∀ guid ∈ proposal.queues.filter (· ∉ removed),
      ((removeAllFromQueue ⟨s, []⟩ removed).core.queueDataStore guid).isSome := by
    intro guid hguid
    obtain ⟨hqueues, hkept⟩ := mem_filter.mp hguid
    rw [hremoved.data, if_neg (of_decide_eq_true hkept), h.data]
    -- an entry of a live proposal has data
    have hpos : 0 < s.inProposals.count guid := by
      rw [count_inProposals_erase hid guid]
      exact Nat.add_pos_left (count_pos_iff.mpr hqueues) _
    have honce := h.once guid
    rw [QueueState.occurrences] at honce
    cases hguid : known guid with
    | true => rfl
    | false =>
      rw [hguid, Bool.toNat_false] at honce
      omega
  have hends := h.proposalEnds hid (fun _ => hne) hsub hremoved
  rw [DungeonFinding.step, perform, hid]
  change Sound _ [] (applyOp (readdAllToQueue _ _).core (.eraseProposal id))
  rw [core_readdAllToQueue hback]
  exact hends

end

/-- **One event** keeps everybody in place. -/
theorem Sound.step (event : Event) (h : Sound known [] s) (hallowed : Allowed s event)
    (hundisturbed : Undisturbed s event) : ∃ known', Sound known' [] (step s event) := by
  cases event with
  | addQueueData guid joinTime dungeons roles =>
    exact ⟨_, h.addQueueData hallowed.1 joinTime dungeons roles⟩
  | removeFromQueue guid =>
    refine ⟨_, h.removed removed_removeFromQueue fun other hmem => ?_⟩
    rw [mem_singleton.mp hmem]
    exact hundisturbed
  | findGroups oracle => exact ⟨known, findGroups_spec h hundisturbed⟩
  | updateQueueTimers => exact ⟨known, h.updateQueueTimers⟩
  | proposalSucceeded id =>
    cases hid : s.proposalsStore.lookup id with
    | none =>
      rw [DungeonFinding.step, perform, hid]
      exact ⟨known, h⟩
    | some proposal => exact ⟨_, h.proposalSucceeded hid⟩
  | proposalFailed id removed =>
    cases hid : s.proposalsStore.lookup id with
    | none =>
      rw [DungeonFinding.step, perform, hid]
      exact ⟨known, h⟩
    | some proposal => exact ⟨_, h.proposalFailed hid hallowed.1 (hallowed.2 proposal hid)⟩

theorem sound_emptyQueue : Sound (fun _ => false) [] emptyQueue :=
  ⟨fun _ => rfl, fun _ => rfl, fun _ _ h => absurd h (Option.some_ne_none _).symm⟩

/-- **Nobody is lost or duplicated** in a run in which no entry of a live proposal is removed and
every search is orderly; and a search always ends with no new entries left. -/
theorem placed_of_run (events : List Event)
    (h : Run.Along step (fun s event => Allowed s event ∧ Undisturbed s event) emptyQueue events) :
    Placed (events.foldl step emptyQueue) ∧
      ∀ oracle, (step (events.foldl step emptyQueue) (.findGroups oracle)).newToQueueStore = [] := by
  have hsound : ∃ known, Sound known [] (events.foldl step emptyQueue) :=
    Run.Along.invariant (fun s => ∃ known, Sound known [] s)
      (fun _ event ⟨_, hs⟩ hevent => hs.step event hevent.1 hevent.2) ⟨_, sound_emptyQueue⟩ h
  obtain ⟨known, hsound⟩ := hsound
  exact ⟨hsound.placed, fun _ => newToQueueStore_findGroups⟩

/-- A full group gets its proposal while a player waits; the proposal succeeds, and the player
leaves. -/
def oneMatch : List Event :=
  [.addQueueData 0x1F50000000000001 0 [1] [(2, 2), (3, 4), (4, 8), (5, 8), (6, 8)],
    .addQueueData 7 0 [1] [(7, 8)], .findGroups everybodyQueued, .proposalSucceeded 2,
    .updateQueueTimers, .removeFromQueue 7]

theorem placed_of_run_oneMatch :
    Run.Along step (fun s event => Allowed s event ∧ Undisturbed s event) emptyQueue oneMatch ∧
      Placed (oneMatch.foldl step emptyQueue) := by
  have hrun : Run.Along step (fun s event => Allowed s event ∧ Undisturbed s event) emptyQueue
      oneMatch := by decide +kernel
  exact ⟨hrun, (placed_of_run oneMatch hrun).1⟩

/-- A damage dealer, a group of three and one of two that fit together, another damage dealer and a
healer. The two groups do not find each other; the search for the healer proposes them while it
checks the entries after the healer, and then proposes the first group once more. -/
def overlapping : List Event :=
  [.addQueueData 1 0 [2] [(1, 8)],
    .addQueueData 0x1F50000000000001 0 [1] [(2, 8), (3, 8), (4, 2)],
    .addQueueData 0x1F50000000000002 0 [1, 2] [(5, 4), (6, 8)],
    .addQueueData 7 0 [1, 2] [(7, 8)], .addQueueData 8 0 [1] [(8, 4)],
    .findGroups everybodyQueued]

/-- **An entry in two live proposals.** -/
theorem not_placed :
    Run.Along step Allowed emptyQueue overlapping ∧
      ¬ Placed (overlapping.foldl step emptyQueue) := by
  have hrun : Run.Along step Allowed emptyQueue overlapping := by decide +kernel
  refine ⟨hrun, fun hplaced => ?_⟩
  have honce := hplaced 0x1F50000000000001
  exact absurd honce (by decide)

end IscServer.DungeonFinding
