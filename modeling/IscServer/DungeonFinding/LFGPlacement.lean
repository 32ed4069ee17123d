import IscServer.DungeonFinding.LFGSearch

/-!
# Everybody in the Queue Has One Place

An entry of the queue waits in one of the two lists or belongs to one live proposal. A search
takes its new entry out of the list first and gives it a place at the end: the entry goes into a
proposal, or it waits.

The search goes wrong at three points.

* Checking the entries after the first can itself make a proposal of them (`CheckCompatibility`
  is also the check of a part of a combination). The search goes on with its own combination, and
  may propose an entry of it a second time.
* A combination that was cached with bad states becomes a match without a proposal: its new entry
  is nowhere.
* The number of a proposal has 32 bits, and the new one replaces a live proposal of that number.

`Orderly` excludes just these steps.

## Main results

* `findGroups_spec` — an orderly search keeps everybody in place.
-/

namespace IscServer.DungeonFinding

open List

open Traced

/-! ### Places -/

/-- How often a guid stands in the two lists and in the live proposals. -/
def QueueState.occurrences (s : QueueState) (guid : Guid) : ℕ :=
  s.newToQueueStore.count guid + s.currentQueueStore.count guid + s.inProposals.count guid

/-- Nobody is lost or duplicated: an entry with data stands in exactly one place and once there,
any other guid in none. -/
def Placed (s : QueueState) : Prop :=
  ∀ guid, s.occurrences guid = if (s.queueDataStore guid).isSome then 1 else 0

/-- A cached match is that of a live proposal. -/
def MatchLive (s : QueueState) : Prop :=
  ∀ key stored, s.compatibleMapStore.lookup key = some stored → stored.compatibility = .matched →
    ∃ entry ∈ s.proposalsStore.entries,
      entry.2.queues ≠ [] ∧ key = concatenateGuids entry.2.queues

/-- **The invariant of a search** for the entries `known`: the entries in `taken` have been taken
out of the lists, all others have their place. -/
structure Sound (known : Guid → Bool) (taken : List Guid) (s : QueueState) : Prop where
  data : ∀ guid, (s.queueDataStore guid).isSome = known guid
  once : ∀ guid, taken.count guid + s.occurrences guid = (known guid).toNat
  live : MatchLive s

variable {check taken : List Guid} {guid front : Guid} {known : Guid → Bool} {s : QueueState}
  {oracle : Oracle} {f : Finder}

/-- Between searches the invariant places everybody. -/
theorem Sound.placed (h : Sound known [] s) : Placed s := by
  intro guid
  have honce := h.once guid
  rw [count_nil, Nat.zero_add] at honce
  rw [honce, h.data guid]
  cases known guid <;> rfl

theorem Sound.count_le_one (h : Sound known taken s) (guid : Guid) :
    taken.count guid + s.occurrences guid ≤ 1 := by
  rw [h.once guid]
  cases known guid <;> decide

/-- Counting what a filter leaves. -/
theorem count_filter_ite (p : Guid → Bool) (l : List Guid) (guid : Guid) :
    (l.filter p).count guid = if p guid then l.count guid else 0 := by
  split_ifs with h
  · exact count_filter h
  · exact count_eq_zero.mpr fun hmem => h (mem_filter.mp hmem).2

/-! ### Proposals -/

variable {proposal : LfgProposal}

/-- A new proposal adds its entries. -/
theorem inProposals_insert {id : ℕ} (hid : id ∉ s.proposalsStore) :
    ({ s with proposalsStore := s.proposalsStore.insert id proposal } : QueueState).inProposals =
      proposal.queues ++ s.inProposals := by
  rw [QueueState.inProposals, AList.entries_insert_of_notMem hid, flatMap_cons]
  rfl

/-- The end of a proposal takes its entries away. -/
theorem count_inProposals_erase {id : ℕ} (hid : s.proposalsStore.lookup id = some proposal)
    (guid : Guid) :
    s.inProposals.count guid = proposal.queues.count guid +
      ({ s with proposalsStore := s.proposalsStore.erase id } : QueueState).inProposals.count
        guid := by
  have hmem : id ∈ s.proposalsStore.entries.keys :=
    AList.mem_keys.mp (AList.lookup_isSome.mp (by rw [hid]; rfl))
  obtain ⟨stored, before, after, -, hentries, herase⟩ := exists_of_kerase hmem
  have hstored : stored = proposal := by
    have hlookup : s.proposalsStore.lookup id = some stored :=
      AList.mem_lookup_iff.mpr (by rw [hentries]; simp)
    exact Option.some.inj (hlookup.symm.trans hid)
  change (s.proposalsStore.entries.flatMap fun entry => entry.2.queues).count guid =
    proposal.queues.count guid +
      ((s.proposalsStore.entries.kerase id).flatMap fun entry => entry.2.queues).count guid
  rw [herase, hentries, hstored]
  simp only [flatMap_append, flatMap_cons, count_append]
  omega

/-! ### The steps of a search -/

/-- The steps at which a search does not go wrong: a new proposal takes entries that are in no
live proposal and does not replace one, and bad states do not become a match. -/
def Orderly (s : QueueState) : QueueOp → Prop
  | .addProposal check _ =>
    (∀ guid ∈ check, guid ∉ s.inProposals) ∧
      (s.lfgProposalId + 1) % UInt32.size ∉ s.proposalsStore
  | .assumeMatch _ => False
  | _ => True

instance decidableOrderly (s : QueueState) : (op : QueueOp) → Decidable (Orderly s op)
  | .addProposal _ _ => inferInstanceAs (Decidable (_ ∧ _))
  | .assumeMatch _ => inferInstanceAs (Decidable False)
  | .setQueueData _ _ _ _ | .addToNewQueue _ | .removeFromNewQueue _ | .addToCurrentQueue _
  | .addToFrontCurrentQueue _ | .removeFromQueue _ | .setCompatibles _ _ | .setWithLess _ _
  | .updateQueueTimers | .eraseProposal _ => inferInstanceAs (Decidable True)

/-- A compatibility that is no match can be stored under any key. -/
theorem matchLive_of_lookup {s' : QueueState} {key : Key} {stored : LfgCompatibilityData}
    (h : MatchLive s) (hstored : stored.compatibility ≠ .matched)
    (hproposals : s'.proposalsStore = s.proposalsStore)
    (hlookup : ∀ other, s'.compatibleMapStore.lookup other =
      if other = key then some stored else s.compatibleMapStore.lookup other) :
    MatchLive s' := by
  intro other found hfound hmatched
  rw [hlookup] at hfound
  split_ifs at hfound
  · obtain rfl := Option.some.inj hfound
    exact absurd hmatched hstored
  · rw [hproposals]
    exact h other found hfound hmatched

variable {compatibles : LfgCompatibility}

theorem Sound.setCompatibles (h : Sound known taken s) (hcompatibles : compatibles ≠ .matched) :
    Sound known taken (applyOp s (.setCompatibles check compatibles)) :=
  ⟨h.data, h.once,
    matchLive_of_lookup h.live hcompatibles rfl fun _ => lookup_setCompatibles compatibles⟩

theorem Sound.setWithLess {roles : LfgRolesMap} (h : Sound known taken s) :
    Sound known taken (applyOp s (.setWithLess check roles)) := by
  have hlookup : ∀ other, (applyOp s (.setWithLess check roles)).compatibleMapStore.lookup other =
      if other = concatenateGuids check then some ⟨.withLessPlayers, roles⟩
      else s.compatibleMapStore.lookup other := fun _ => lookup_insert_ite _
  refine ⟨fun guid => ?_, h.once,
    matchLive_of_lookup h.live LfgCompatibility.noConfusion rfl hlookup⟩
  rw [← h.data guid]
  change (if guid ∈ check then _ else _ : Option LfgQueueData).isSome = _
  split_ifs
  · exact Option.isSome_map
  · rfl

/-- A proposal of entries that are in none takes them out of the lists and out of the hands of the
search. -/
theorem Sound.addProposal {players : List LfgProposalPlayer} (h : Sound known taken s)
    (hcheck : check ≠ []) (hnodup : check.Nodup) (hknown : ∀ guid ∈ check, known guid = true)
    (horderly : Orderly s (.addProposal check players)) :
    Sound known (taken.filter (· ∉ check)) (applyOp s (.addProposal check players)) := by
  obtain ⟨hfree, hid⟩ := horderly
  refine ⟨h.data, fun guid => ?_, ?_⟩
  · have hplaces : (applyOp s (.addProposal check players)).inProposals =
        check ++ s.inProposals := inProposals_insert hid
    have honce := h.once guid
    rw [QueueState.occurrences] at honce ⊢
    rw [hplaces, count_append]
    change (taken.filter (· ∉ check)).count guid + ((s.newToQueueStore.filter (· ∉ check)).count
      guid + (s.currentQueueStore.filter (· ∉ check)).count guid + _) = _
    simp only [count_filter_ite, decide_eq_true_eq]
    by_cases hmem : guid ∈ check
    · have hcount := count_eq_one_of_mem hnodup hmem
      have hnone := count_eq_zero.mpr (hfree guid hmem)
      rw [if_neg (not_not.mpr hmem), if_neg (not_not.mpr hmem), if_neg (not_not.mpr hmem), hcount,
        hnone, hknown guid hmem]
      rfl
    · have hcount := count_eq_zero.mpr hmem
      rw [if_pos hmem, if_pos hmem, if_pos hmem, hcount]
      omega
  · intro key stored hstored hmatched
    have hentries : (applyOp s (.addProposal check players)).proposalsStore.entries =
        ⟨(s.lfgProposalId + 1) % UInt32.size, ⟨check, players⟩⟩ :: s.proposalsStore.entries :=
      AList.entries_insert_of_notMem hid
    rw [hentries]
    rw [show (applyOp s (.addProposal check players)).compatibleMapStore.lookup key = _ from
      lookup_setCompatibles .matched] at hstored
    split_ifs at hstored with heq
    · exact ⟨_, mem_cons_self, hcheck, heq⟩
    · obtain ⟨entry, hentry, hkey⟩ := h.live key stored hstored hmatched
      exact ⟨entry, mem_cons_of_mem _ hentry, hkey⟩

/-! ### A search -/

/-- What the search still holds in its hands after a combination was checked. -/
def holds (taken check : List Guid) (compatibles : LfgCompatibility) : List Guid :=
  if compatibles = .matched then taken.filter (· ∉ check) else taken

theorem holds_of_ne (h : compatibles ≠ .matched) : holds taken check compatibles = taken := if_neg h

/-- A combination of other entries takes nothing out of the hands of the search. -/
theorem holds_of_disjoint (h : ∀ guid ∈ check, guid ∉ taken) :
    holds taken check compatibles = taken := by
  rw [holds]
  split_ifs
  · refine filter_eq_self.mpr fun guid hguid => ?_
    exact decide_eq_true fun hcheck => h guid hcheck hguid
  · rfl

theorem decideCompatibility_spec (hcheck : check ≠ []) (hnodup : check.Nodup)
    (hknown : ∀ guid ∈ check, known guid = true) :
    Ensures applyOp Orderly
      (Sound known taken f.core →
        Sound known (holds taken check (decideCompatibility oracle f check).1)
          (decideCompatibility oracle f check).2.core)
      f (decideCompatibility oracle f check).2 := by
  rw [decideCompatibility]
  cases hverdict : judge (oracle f.trace) f.core.toLFGQueue check with
  | missing guid =>
    -- every entry of the combination has data
    refine Ensures.emit fun _ hsound => ?_
    obtain ⟨hmem, hnone⟩ := judge_missing hverdict
    have hdata := hsound.data guid
    rw [hknown guid hmem, hnone] at hdata
    cases hdata
  | incompatible compatibles =>
    refine Ensures.emit fun _ hsound => ?_
    have hne : compatibles ≠ .matched := by
      rintro rfl
      cases judge_incompatible hverdict
    rw [holds_of_ne hne]
    exact hsound.setCompatibles hne
  | withLess roles => exact Ensures.emit fun _ hsound => hsound.setWithLess
  | badStates =>
    exact Ensures.emit fun _ hsound => hsound.setCompatibles LfgCompatibility.noConfusion
  | proposal players =>
    exact Ensures.emit fun horderly hsound => hsound.addProposal hcheck hnodup hknown horderly

theorem checkCompatibility_spec (hnodup : check.Nodup)
    (hknown : ∀ guid ∈ check, known guid = true) (hother : ∀ guid ∈ check.tail, guid ∉ taken) :
    Ensures applyOp Orderly
      (Sound known taken f.core →
        Sound known (holds taken check (checkCompatibility oracle f check).1)
          (checkCompatibility oracle f check).2.core)
      f (checkCompatibility oracle f check).2 := by
  induction check generalizing f with
  | nil => exact Ensures.refl id
  | cons guid rest ih =>
    rw [tail_cons] at hother
    have hchild := @ih f (nodup_cons.mp hnodup).2 (forall_mem_cons.mp hknown).2
      fun other hmem => hother other (mem_of_mem_tail hmem)
    rw [holds_of_disjoint hother] at hchild
    have hdecide : ∀ f : Finder, _ := fun f =>
      @decideCompatibility_spec (guid :: rest) taken known oracle f (cons_ne_nil _ _) hnodup hknown
    rw [checkCompatibility]
    dsimp only
    split_ifs with hlong hmany hcompatible
    · exact Ensures.refl id
    · exact hchild.comp (hdecide _)
    · have hne : (checkCompatibility oracle f rest).1 ≠ .matched := by
        intro heq
        rw [heq] at hcompatible
        exact hcompatible rfl
      refine hchild.comp (Ensures.emit fun _ hsound => ?_)
      rw [holds_of_ne hne]
      exact hsound.setCompatibles hne
    · exact hdecide f

/-- An entry in the hands of the search is in no live proposal, so no combination with it is cached
as a match. -/
theorem Sound.getCompatibles_ne (h : Sound known taken s) (htaken : front ∈ taken)
    (hfront : front ∈ check) :
    getCompatibles s.toLFGQueue (concatenateGuids check) ≠ .matched := by
  intro hmatched
  rw [getCompatibles] at hmatched
  cases hlookup : s.compatibleMapStore.lookup (concatenateGuids check) with
  | none =>
    rw [hlookup] at hmatched
    cases hmatched
  | some stored =>
    rw [hlookup] at hmatched
    obtain ⟨entry, hentry, hqueues, hkey⟩ := h.live _ stored hlookup hmatched
    have hmem : front ∈ entry.2.queues :=
      (mem_iff_of_concatenateGuids_eq (ne_nil_of_mem hfront) hqueues hkey).mp hfront
    have hplace : 0 < s.inProposals.count front :=
      count_pos_iff.mpr (mem_flatMap.mpr ⟨entry, hentry, hmem⟩)
    have hheld : 0 < taken.count front := count_pos_iff.mpr htaken
    have honce := h.count_le_one front
    rw [QueueState.occurrences] at honce
    omega

/-- The new entry in the hands of the search, unless it found a group. -/
def unlessFound (front : Guid) (found : Bool) : List Guid := if found then [] else [front]

variable {rest : List Guid}

theorem holds_cons :
    holds [front] (front :: rest) compatibles = unlessFound front (compatibles = .matched) := by
  rw [holds, unlessFound]
  simp

/-- A combination with the new entry in front: a match puts the entry into a proposal. -/
theorem evaluate_spec (hnodup : (front :: rest).Nodup)
    (hknown : ∀ guid ∈ front :: rest, known guid = true) :
    Ensures applyOp Orderly
      (Sound known [front] f.core →
        Sound known (unlessFound front ((evaluate oracle f (front :: rest)).1 = .matched))
          (evaluate oracle f (front :: rest)).2.core)
      f (evaluate oracle f (front :: rest)).2 := by
  have hlookUp : Ensures applyOp Orderly
      (Sound known [front] f.core →
        Sound known (unlessFound front ((lookUpOrCheck oracle f (front :: rest)).1 = .matched))
          (lookUpOrCheck oracle f (front :: rest)).2.core)
      f (lookUpOrCheck oracle f (front :: rest)).2 := by
    rw [lookUpOrCheck]
    split_ifs
    · have hother : ∀ guid ∈ rest, guid ∉ [front] := by
        intro guid hguid hfront
        rw [mem_singleton.mp hfront] at hguid
        exact (nodup_cons.mp hnodup).1 hguid
      have hchecked := @checkCompatibility_spec _ [front] known oracle f hnodup hknown hother
      rwa [holds_cons] at hchecked
    · refine Ensures.refl fun hsound => ?_
      have hne := hsound.getCompatibles_ne (mem_singleton_self front) (@mem_cons_self _ front rest)
      rw [unlessFound, if_neg (by simpa using hne)]
      exact hsound
  rw [evaluate]
  split_ifs
  · exact hlookUp.trans (Ensures.emit fun horderly => horderly.elim)
  · exact hlookUp

variable {all : List Guid}

theorem tryWaiting_spec (hnodup : (front :: rest ++ all).Nodup)
    (hknown : ∀ guid ∈ front :: rest ++ all, known guid = true) :
    Ensures applyOp Orderly
      (Sound known [front] f.core →
        Sound known (unlessFound front (tryWaiting oracle f (front :: rest) all).1)
          (tryWaiting oracle f (front :: rest) all).2.core)
      f (tryWaiting oracle f (front :: rest) all).2 := by
  induction all generalizing f rest with
  | nil => exact Ensures.refl id
  | cons guid all ih =>
    have hassoc : front :: rest ++ guid :: all = front :: (rest ++ [guid]) ++ all := by simp
    have hskip : (front :: rest ++ all).Sublist (front :: rest ++ guid :: all) :=
      (List.Sublist.refl _).append (sublist_cons_self _ _)
    have htried := @evaluate_spec front known oracle f (rest ++ [guid])
      (hnodup.sublist (by rw [hassoc]; exact sublist_append_left _ _))
      fun other hmem => hknown other (by rw [hassoc]; exact mem_append_left _ hmem)
    rw [tryWaiting]
    dsimp only [cons_append] at htried ⊢
    split_ifs with hmatched hless
    · rw [hmatched] at htried
      exact htried
    · refine htried.comp ?_
      rw [hless]
      exact ih (hassoc ▸ hnodup) (hassoc ▸ hknown)
    · refine htried.comp ?_
      rw [unlessFound, if_neg (by simpa using hmatched)]
      exact ih (hnodup.sublist hskip) fun other hmem => hknown other (hskip.subset hmem)

theorem findNewGroups_spec (hnodup : (front :: all).Nodup)
    (hknown : ∀ guid ∈ front :: all, known guid = true) :
    Ensures applyOp Orderly
      (Sound known [front] f.core →
        Sound known (unlessFound front (findNewGroups oracle f [front] all).1)
          (findNewGroups oracle f [front] all).2.core)
      f (findNewGroups oracle f [front] all).2 := by
  have halone := @evaluate_spec front known oracle f [] (nodup_singleton front)
    fun guid hguid => hknown guid (mem_cons.mpr (Or.inl (mem_singleton.mp hguid)))
  rw [findNewGroups]
  split_ifs with hmatched hless
  · rw [hmatched] at halone
    exact halone
  · refine halone.comp ?_
    rw [hless]
    exact tryWaiting_spec hnodup hknown
  · rw [unlessFound, if_neg (by simpa using hmatched)] at halone
    exact halone

/-! ### All searches -/

/-- A new entry is taken out of the list. -/
theorem Sound.take (h : Sound known [] s) (hnew : s.newToQueueStore = front :: rest) :
    Sound known [front] (applyOp s (.removeFromNewQueue front)) := by
  refine ⟨h.data, fun guid => ?_, h.live⟩
  have honce := h.once guid
  have hle := h.count_le_one front
  rw [QueueState.occurrences] at honce hle ⊢
  change [front].count guid + ((s.newToQueueStore.filter (· ≠ front)).count guid +
    s.currentQueueStore.count guid + s.inProposals.count guid) = _
  rw [count_filter_ite]
  by_cases heq : guid = front
  · subst heq
    have hpos : 0 < s.newToQueueStore.count guid :=
      count_pos_iff.mpr (by rw [hnew]; exact mem_cons_self)
    simp only [count_singleton_self, ne_eq, not_true_eq_false, decide_false, Bool.false_eq_true,
      if_false]
    omega
  · have hzero : [front].count guid = 0 :=
      count_eq_zero.mpr fun hmem => heq (mem_singleton.mp hmem)
    rw [hzero, if_pos (by simpa using heq)]
    exact honce

/-- An entry that found no group waits. -/
theorem Sound.wait (h : Sound known [front] s) :
    Sound known [] (applyOp s (.addToCurrentQueue front)) := by
  refine ⟨h.data, fun guid => ?_, h.live⟩
  have honce := h.once guid
  rw [QueueState.occurrences] at honce ⊢
  change [].count guid + (s.newToQueueStore.count guid +
    (s.currentQueueStore ++ [front]).count guid + s.inProposals.count guid) = _
  rw [count_append, count_nil]
  omega

/-- The waiting entries are known, and the new one is none of them. -/
theorem Sound.waiting (h : Sound known [front] s) :
    (front :: s.currentQueueStore).Nodup ∧
      ∀ guid ∈ front :: s.currentQueueStore, known guid = true := by
  have hle : ∀ guid, (front :: s.currentQueueStore).count guid ≤ (known guid).toNat := by
    intro guid
    have honce := h.once guid
    rw [QueueState.occurrences] at honce
    have hcons : (front :: s.currentQueueStore).count guid =
        [front].count guid + s.currentQueueStore.count guid :=
      @count_append _ _ guid [front] s.currentQueueStore
    omega
  refine ⟨nodup_iff_count_le_one.mpr fun guid => (hle guid).trans ?_, fun guid hmem => ?_⟩
  · cases known guid <;> decide
  · have hpos := (count_pos_iff.mpr hmem).trans_le (hle guid)
    cases hguid : known guid with
    | true => rfl
    | false =>
      rw [hguid] at hpos
      exact absurd hpos (Nat.lt_irrefl 0)

theorem findGroup_spec (hnew : f.core.newToQueueStore = front :: rest) :
    Ensures applyOp Orderly
      (Sound known [] f.core → Sound known [] (findGroup oracle f front).core)
      f (findGroup oracle f front) := by
  refine emits_findGroup.ensures fun hsound => ?_
  have htaken : Sound known [front] (f.write (.removeFromNewQueue front)).core := hsound.take hnew
  obtain ⟨hnodup, hknown⟩ := htaken.waiting
  have hfound := @findNewGroups_spec front known oracle (f.write (.removeFromNewQueue front)) _
    hnodup hknown
  have hstart : Ensures applyOp Orderly
      (Sound known [front] (f.write (.removeFromNewQueue front)).core)
      f (f.write (.removeFromNewQueue front)) := Ensures.emit fun _ => htaken
  have hsearch := hstart.trans hfound
  rw [findGroup]
  split_ifs with hmatch
  · rw [hmatch] at hsearch
    exact hsearch
  · rw [Bool.eq_false_of_not_eq_true hmatch] at hsearch
    exact hsearch.trans (Ensures.emit fun _ hheld => hheld.wait)

theorem findGroupsLoop_spec (fuel : ℕ) :
    Ensures applyOp Orderly
      (Sound known [] f.core → Sound known [] (findGroupsLoop oracle fuel f).core)
      f (findGroupsLoop oracle fuel f) := by
  induction fuel generalizing f with
  | zero => exact Ensures.refl id
  | succ fuel ih =>
    cases hnew : f.core.newToQueueStore with
    | nil =>
      rw [findGroupsLoop_nil _ hnew]
      exact Ensures.refl id
    | cons front rest =>
      rw [findGroupsLoop_succ fuel hnew]
      exact (findGroup_spec hnew).comp ih

/-- **An orderly search** keeps everybody in place. -/
theorem findGroups_spec (h : Sound known [] s)
    (horderly : Run.Along applyOp Orderly s (findGroups oracle ⟨s, []⟩).trace) :
    Sound known [] (findGroups oracle ⟨s, []⟩).core :=
  Ensures.of_start (findGroupsLoop_spec _) horderly h

end IscServer.DungeonFinding
