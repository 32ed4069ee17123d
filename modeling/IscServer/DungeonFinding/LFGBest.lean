import IscServer.DungeonFinding.LFGSearch

/-!
# The Best Group of an Entry

`bestCompatible` of an entry is the key of the largest combination found so far that has a place
left; `LFGMgr` reports from it which roles are still needed. It should name entries of the queue,
the entry itself among them, and be in the cache.

`FindBestCompatibleInQueue` takes a key for a group of the entry when the decimal form of the guid
occurs anywhere in it: 1 finds itself in `13|40`. It runs when another entry leaves and when the
timers are updated. Besides, a combination can be stored again with another compatibility while it
is somebody's best group. `Faithful` excludes just these steps; `bestSound_of_run` says that all
other runs keep the best groups right.

## Main results

* `bestSound_of_run` — the runs without the two steps.
* `not_bestSound` — an entry leaves, and another one gets a best group it does not belong to.
-/

namespace IscServer.DungeonFinding

open Traced Option

variable {check : List Guid} {guid : Guid} {key : Key} {s : QueueState}

/-- **The best groups are right**: a best group contains its entry, all its members have data, and
it is cached as a combination with less players. -/
def BestSound (s : QueueState) : Prop :=
  ∀ guid data, s.queueDataStore guid = some data → data.bestCompatible ≠ [] →
    sguid guid ∈ data.bestCompatible.splitOn '|' ∧
      (∀ part ∈ data.bestCompatible.splitOn '|',
        ∃ member, part = sguid member ∧ (s.queueDataStore member).isSome) ∧
      getCompatibles s.toLFGQueue data.bestCompatible = .withLessPlayers

/-- A key is cached as a combination with less players. -/
def WithLess (cache : AList (fun _ : Key => LfgCompatibilityData)) (key : Key) : Prop :=
  ∃ stored, cache.lookup key = some stored ∧ stored.compatibility = .withLessPlayers

/-- The invariant: a best group contains its entry and is cached, and what is cached with less
players is a combination of entries with data. -/
structure BestInv (s : QueueState) : Prop where
  best : ∀ guid data, s.queueDataStore guid = some data → data.bestCompatible ≠ [] →
    sguid guid ∈ data.bestCompatible.splitOn '|' ∧ WithLess s.compatibleMapStore data.bestCompatible
  cache : ∀ key, WithLess s.compatibleMapStore key →
    ∃ check, check ≠ [] ∧ key = concatenateGuids check ∧
      ∀ guid ∈ check, (s.queueDataStore guid).isSome

theorem BestInv.sound (h : BestInv s) : BestSound s := by
  intro guid data hdata hbest
  obtain ⟨hmem, hless⟩ := h.best guid data hdata hbest
  refine ⟨hmem, fun part hpart => ?_, ?_⟩
  · obtain ⟨check, hcheck, hkey, hmembers⟩ := h.cache _ hless
    rw [hkey] at hpart
    obtain ⟨member, hmember, rfl⟩ := exists_of_mem_splitOn hcheck hpart
    exact ⟨member, rfl, hmembers member hmember⟩
  · obtain ⟨stored, hstored, hcompatibility⟩ := hless
    rw [getCompatibles, hstored]
    exact hcompatibility

/-! ### The steps -/

/-- On the keys cached with less players, the search for the decimal form of the guid finds the
combinations of the guid only. -/
def FindsOwn (cache : AList (fun _ : Key => LfgCompatibilityData)) (guid : Guid) : Prop :=
  ∀ key ∈ cache.keys, WithLess cache key → sguid guid <:+: key → sguid guid ∈ key.splitOn '|'

/-- No entry has the combination as its best group. -/
def Unwanted (s : QueueState) (check : List Guid) : Prop :=
  ∀ guid data, s.queueDataStore guid = some data → data.bestCompatible ≠ concatenateGuids check

/-- The steps that keep the best groups right: an entry that looks for a best group finds its own
combinations only, and a best group is not stored again with another compatibility. -/
def Faithful (s : QueueState) : QueueOp → Prop
  | .removeFromQueue guid =>
    ∀ other data, other ≠ guid → s.queueDataStore other = some data →
      sguid guid <:+: data.bestCompatible →
      FindsOwn (removeFromCompatibles guid s.compatibleMapStore) other
  | .updateQueueTimers =>
    ∀ guid data, s.queueDataStore guid = some data → data.bestCompatible = [] →
      FindsOwn s.compatibleMapStore guid
  | .setCompatibles check _ | .addProposal check _ | .assumeMatch check => Unwanted s check
  | _ => True

/-- What the events emit: the steps of a search are as in `Searching`. -/
def Emitted (s : QueueState) : QueueOp → Prop
  | .setCompatibles _ compatibles => compatibles ≠ .withLessPlayers
  | .setWithLess check _ => check ≠ [] ∧ ∀ guid ∈ check, (s.queueDataStore guid).isSome
  | _ => True

/-- A key found by an entry that looks for a best group. -/
theorem findBestCompatible_sound {cache : AList (fun _ : Key => LfgCompatibilityData)}
    (hfinds : FindsOwn cache guid) {data : LfgQueueData} (hdata : data.bestCompatible = [])
    (hbest : (findBestCompatible cache guid data).bestCompatible ≠ []) :
    sguid guid ∈ (findBestCompatible cache guid data).bestCompatible.splitOn '|' ∧
      WithLess cache (findBestCompatible cache guid data).bestCompatible := by
  rcases bestCompatible_findBestCompatible guid data with heq | ⟨stored, hstored, hless, hoccurs⟩
  · exact absurd (heq.trans hdata) hbest
  · have hkey : (findBestCompatible cache guid data).bestCompatible ∈ cache.keys :=
      AList.mem_keys.mp (AList.lookup_isSome.mp (by rw [hstored]; rfl))
    exact ⟨hfinds _ hkey ⟨stored, hstored, hless⟩ hoccurs, stored, hstored, hless⟩

/-- Another compatibility under a key that nobody has as its best group. -/
theorem BestInv.setCompatibles {s' : QueueState} {compatibles : LfgCompatibility}
    (h : BestInv s) (hunwanted : Unwanted s check) (hne : compatibles ≠ .withLessPlayers)
    (hdata : s'.queueDataStore = s.queueDataStore)
    (hcache : s'.compatibleMapStore =
      DungeonFinding.setCompatibles (concatenateGuids check) compatibles s.compatibleMapStore) :
    BestInv s' := by
  have hless : ∀ key, WithLess s'.compatibleMapStore key ↔
      key ≠ concatenateGuids check ∧ WithLess s.compatibleMapStore key := by
    intro key
    rw [WithLess, hcache]
    simp only [lookup_setCompatibles]
    constructor
    · rintro ⟨stored, hstored, hcompatibility⟩
      split_ifs at hstored with heq
      · obtain rfl := Option.some.inj hstored
        exact absurd hcompatibility hne
      · exact ⟨heq, stored, hstored, hcompatibility⟩
    · rintro ⟨heq, stored, hstored, hcompatibility⟩
      rw [if_neg heq]
      exact ⟨stored, hstored, hcompatibility⟩
  refine ⟨fun guid data hguid hbest => ?_, fun key hkey => ?_⟩
  · rw [hdata] at hguid
    obtain ⟨hmem, hcached⟩ := h.best guid data hguid hbest
    exact ⟨hmem, (hless _).mpr ⟨hunwanted guid data hguid, hcached⟩⟩
  · rw [hdata]
    exact h.cache key ((hless key).mp hkey).2

variable {roles : LfgRolesMap}

/-- A combination with less players of entries with data. -/
theorem BestInv.setWithLess (h : BestInv s) (hcheck : check ≠ [])
    (hmembers : ∀ guid ∈ check, (s.queueDataStore guid).isSome) :
    BestInv (applyOp s (.setWithLess check roles)) := by
  have hless : ∀ key, WithLess (applyOp s (.setWithLess check roles)).compatibleMapStore key ↔
      key = concatenateGuids check ∨ WithLess s.compatibleMapStore key := by
    intro key
    rw [WithLess]
    simp only [show (applyOp s (.setWithLess check roles)).compatibleMapStore.lookup key = _ from
      lookup_insert_ite _]
    by_cases heq : key = concatenateGuids check
    · rw [if_pos heq]
      exact iff_of_true ⟨_, rfl, rfl⟩ (Or.inl heq)
    · rw [if_neg heq]
      exact (or_iff_right heq).symm
  have hsome : ∀ guid, ((applyOp s (.setWithLess check roles)).queueDataStore guid).isSome =
      (s.queueDataStore guid).isSome := by
    intro guid
    change (if guid ∈ check then _ else _ : Option LfgQueueData).isSome = _
    split_ifs
    · exact isSome_map
    · rfl
  have hold : ∀ guid data, s.queueDataStore guid = some data → data.bestCompatible ≠ [] →
      sguid guid ∈ data.bestCompatible.splitOn '|' ∧
        WithLess (applyOp s (.setWithLess check roles)).compatibleMapStore data.bestCompatible := by
    intro guid data hguid hbest
    obtain ⟨hmem, hcached⟩ := h.best guid data hguid hbest
    exact ⟨hmem, (hless _).mpr (Or.inr hcached)⟩
  refine ⟨fun guid data hguid hbest => ?_, fun key hkey => ?_⟩
  · change (if guid ∈ check then _ else _ : Option LfgQueueData) = some data at hguid
    split_ifs at hguid with hmem
    · obtain ⟨before, hbefore, rfl⟩ := map_eq_some_iff.mp hguid
      rcases bestCompatible_updateBestCompatible (concatenateGuids check) roles before with heq | heq
      · rw [heq] at hbest ⊢
        exact hold guid before hbefore hbest
      · rw [heq]
        exact ⟨(mem_splitOn_concatenateGuids hcheck).mpr hmem, (hless _).mpr (Or.inl rfl)⟩
    · exact hold guid data hguid hbest
  · simp only [hsome]
    rcases (hless key).mp hkey with heq | hcached
    · exact ⟨check, hcheck, heq, hmembers⟩
    · exact h.cache key hcached

/-- An entry leaves, and those whose best group was dropped look for another one. -/
theorem BestInv.removeFromQueue (h : BestInv s) (hfaithful : Faithful s (.removeFromQueue guid)) :
    BestInv (applyOp s (.removeFromQueue guid)) := by
  have hless : ∀ key, WithLess (removeFromCompatibles guid s.compatibleMapStore) key ↔
      ¬ sguid guid <:+: key ∧ WithLess s.compatibleMapStore key := by
    intro key
    rw [WithLess]
    simp only [lookup_removeFromCompatibles]
    by_cases hoccurs : sguid guid <:+: key
    · rw [if_pos hoccurs]
      refine iff_of_false ?_ fun hkey => hkey.1 hoccurs
      rintro ⟨stored, hstored, -⟩
      exact absurd hstored (some_ne_none _).symm
    · rw [if_neg hoccurs]
      exact (and_iff_right hoccurs).symm
  refine ⟨fun other data hother hbest => ?_, fun key hkey => ?_⟩
  · change (if other = guid then none else _ : Option LfgQueueData) = some data at hother
    split_ifs at hother with heq
    obtain ⟨before, hbefore, rfl⟩ := map_eq_some_iff.mp hother
    split_ifs at hbest ⊢ with hoccurs
    · exact findBestCompatible_sound (hfaithful other before heq hbefore hoccurs) rfl hbest
    · obtain ⟨hmem, hcached⟩ := h.best other before hbefore hbest
      exact ⟨hmem, (hless _).mpr ⟨hoccurs, hcached⟩⟩
  · obtain ⟨hoccurs, hcached⟩ := (hless key).mp hkey
    obtain ⟨check, hcheck, rfl, hmembers⟩ := h.cache key hcached
    refine ⟨check, hcheck, rfl, fun other hother => ?_⟩
    have hne : other ≠ guid := by
      rintro rfl
      exact hoccurs (sguid_infix_concatenateGuids hother)
    change (if other = guid then none else _ : Option LfgQueueData).isSome
    rw [if_neg hne, isSome_map]
    exact hmembers other hother

/-- Entries without a best group look for one. -/
theorem BestInv.updateQueueTimers (h : BestInv s) (hfaithful : Faithful s .updateQueueTimers) :
    BestInv (applyOp s .updateQueueTimers) := by
  refine ⟨fun guid data hguid hbest => ?_, fun key hkey => ?_⟩
  · obtain ⟨before, hbefore, rfl⟩ := map_eq_some_iff.mp hguid
    split_ifs at hbest ⊢ with hnone
    · exact findBestCompatible_sound (hfaithful guid before hbefore hnone) hnone hbest
    · exact h.best guid before hbefore hbest
  · obtain ⟨check, hcheck, heq, hmembers⟩ := h.cache key hkey
    refine ⟨check, hcheck, heq, fun guid hguid => ?_⟩
    change ((s.queueDataStore guid).map _).isSome
    rw [isSome_map]
    exact hmembers guid hguid

/-- A new entry has no best group. -/
theorem BestInv.setQueueData {joinTime : ℕ} {dungeons : List ℕ} (h : BestInv s) :
    BestInv (applyOp s (.setQueueData guid joinTime dungeons roles)) := by
  refine ⟨fun other data hother hbest => ?_, fun key hkey => ?_⟩
  · change (if other = guid then _ else _ : Option LfgQueueData) = some data at hother
    split_ifs at hother
    · obtain rfl := Option.some.inj hother
      exact absurd rfl hbest
    · exact h.best other data hother hbest
  · obtain ⟨check, hcheck, heq, hmembers⟩ := h.cache key hkey
    refine ⟨check, hcheck, heq, fun other hother => ?_⟩
    change (if other = guid then _ else _ : Option LfgQueueData).isSome
    split_ifs
    · rfl
    · exact hmembers other hother

/-- **One step** keeps the best groups right. -/
theorem BestInv.applyOp (op : QueueOp) (h : BestInv s) (hemitted : Emitted s op)
    (hfaithful : Faithful s op) : BestInv (applyOp s op) := by
  cases op with
  | setQueueData guid joinTime dungeons roles => exact h.setQueueData
  | removeFromQueue guid => exact h.removeFromQueue hfaithful
  | setCompatibles check compatibles => exact h.setCompatibles hfaithful hemitted rfl rfl
  | setWithLess check roles => exact h.setWithLess hemitted.1 hemitted.2
  | addProposal check players =>
    exact h.setCompatibles hfaithful LfgCompatibility.noConfusion rfl rfl
  | assumeMatch check => exact h.setCompatibles hfaithful LfgCompatibility.noConfusion rfl rfl
  | updateQueueTimers => exact h.updateQueueTimers hfaithful
  | addToNewQueue _ => exact ⟨h.best, h.cache⟩
  | removeFromNewQueue _ => exact ⟨h.best, h.cache⟩
  | addToCurrentQueue _ => exact ⟨h.best, h.cache⟩
  | addToFrontCurrentQueue _ => exact ⟨h.best, h.cache⟩
  | eraseProposal _ => exact ⟨h.best, h.cache⟩

/-! ### Runs -/

theorem emitted_of_searching {s : QueueState} {op : QueueOp} (h : Searching s op) :
    Emitted s op := by
  cases op with
  | setCompatibles check compatibles => exact h
  | setWithLess check roles => exact h
  | _ => trivial

variable {f : Finder} (guids : List Guid)

theorem emits_removeAllFromQueue :
    Emits DungeonFinding.applyOp Emitted f (removeAllFromQueue f guids) := by
  induction guids generalizing f with
  | nil => exact Emits.refl
  | cons guid guids ih =>
    have hfirst : Emits DungeonFinding.applyOp Emitted f (f.write (.removeFromQueue guid)) :=
      Emits.emit trivial
    exact hfirst.trans ih

theorem emits_readdAllToQueue :
    Emits DungeonFinding.applyOp Emitted f (readdAllToQueue f guids) := by
  induction guids generalizing f with
  | nil => exact Emits.refl
  | cons guid guids ih =>
    have hfirst : Emits DungeonFinding.applyOp Emitted f (readdToQueue f guid) := by
      rw [readdToQueue]
      split_ifs
      · exact Emits.emit trivial
      · exact Emits.refl
    exact hfirst.trans ih

/-- What an event writes. -/
theorem emits_perform (s : QueueState) (event : Event) :
    Emits DungeonFinding.applyOp Emitted ⟨s, []⟩ (perform s event) := by
  cases event with
  | addQueueData guid joinTime dungeons roles =>
    have hdata : Emits DungeonFinding.applyOp Emitted ⟨s, []⟩
        (Finder.write ⟨s, []⟩ (.setQueueData guid joinTime dungeons roles)) := Emits.emit trivial
    exact hdata.trans (Emits.emit trivial)
  | removeFromQueue guid => exact Emits.emit trivial
  | findGroups oracle => exact emits_findGroups.mono fun _ _ => emitted_of_searching
  | updateQueueTimers => exact Emits.emit trivial
  | proposalSucceeded id =>
    rw [perform]
    split
    · exact Emits.refl
    · exact (emits_removeAllFromQueue _).trans (Emits.emit trivial)
  | proposalFailed id removed =>
    rw [perform]
    split
    · exact Emits.refl
    · exact ((emits_removeAllFromQueue _).trans (emits_readdAllToQueue _)).trans
        (Emits.emit trivial)

theorem bestInv_emptyQueue : BestInv emptyQueue where
  best _ _ h := absurd h (some_ne_none _).symm
  cache _ := fun ⟨_, h, _⟩ => absurd h (some_ne_none _).symm

/-- **The best groups are right** after every run of faithful steps. -/
theorem bestSound_of_run (events : List Event)
    (h : Run.Along step
      (fun s event => Run.Along DungeonFinding.applyOp Faithful s (perform s event).trace)
      emptyQueue events) :
    BestSound (events.foldl step emptyQueue) := by
  have hinv : BestInv (events.foldl step emptyQueue) :=
    Run.Along.invariant BestInv
      (fun s event hs hevent => (emits_perform s event).invariant BestInv
        (fun _ op hs hop => hs.applyOp op hop.1 hop.2) hevent hs)
      bestInv_emptyQueue h
  exact hinv.sound

/-- Two damage dealers of one dungeon wait, and one of them leaves. -/
def pairParts : List Event :=
  [.addQueueData 7 0 [1] [(7, 8)], .addQueueData 8 0 [1] [(8, 8)], .findGroups everybodyQueued,
    .removeFromQueue 8]

/-- The steps of the search for the two. -/
def Simple : QueueOp → Bool
  | .removeFromNewQueue _ | .addToCurrentQueue _ | .setWithLess _ _ => true
  | _ => false

theorem faithful_of_simple (s : QueueState) (op : QueueOp) (h : Simple op = true) :
    Faithful s op := by
  cases op with
  | removeFromNewQueue _ => trivial
  | addToCurrentQueue _ => trivial
  | setWithLess _ _ => trivial
  | _ => cases h

/-- The player who stays finds its own combinations only. -/
theorem faithful_pairParts :
    Faithful ((pairParts.take 3).foldl step emptyQueue) (.removeFromQueue 8) := by
  intro other data hne hdata _
  have hother : other = 7 := by
    by_contra hseven
    refine absurd (queueDataStore_findGroups ?_) (ne_none_iff_exists'.mpr ⟨data, hdata⟩)
    change (if other = 8 then _ else if other = 7 then _ else none : Option LfgQueueData) = none
    rw [if_neg hne, if_neg hseven]
  have hown : ∀ key ∈ (removeFromCompatibles 8
      ((pairParts.take 3).foldl step emptyQueue).compatibleMapStore).keys,
      sguid 7 ∈ key.splitOn '|' := by decide +kernel
  rw [hother]
  exact fun key hkey _ _ => hown key hkey

theorem bestSound_of_run_pairParts :
    Run.Along step
        (fun s event => Run.Along DungeonFinding.applyOp Faithful s (perform s event).trace)
        emptyQueue pairParts ∧
      BestSound (pairParts.foldl step emptyQueue) := by
  have hsearch : ∀ op ∈ (perform ((pairParts.take 2).foldl step emptyQueue)
      (.findGroups everybodyQueued)).trace, Simple op = true := by decide +kernel
  have hrun : Run.Along step
      (fun s event => Run.Along DungeonFinding.applyOp Faithful s (perform s event).trace)
      emptyQueue pairParts :=
    ⟨⟨trivial, trivial, trivial⟩, ⟨trivial, trivial, trivial⟩,
      Run.along_of_forall_mem faithful_of_simple hsearch, ⟨faithful_pairParts, trivial⟩, trivial⟩
  exact ⟨hrun, bestSound_of_run pairParts hrun⟩

/-- Two damage dealers wait for one dungeon, 1 and 5, and two for another, 13 and 40; 5 leaves. -/
def twoDungeons : List Event :=
  [.addQueueData 1 0 [1] [(1, 8)], .addQueueData 5 0 [1] [(5, 8)],
    .addQueueData 13 0 [2] [(13, 8)], .addQueueData 40 0 [2] [(40, 8)],
    .findGroups everybodyQueued, .removeFromQueue 5]

/-- **A best group of others**: 1 gets the group of 13 and 40. -/
theorem not_bestSound : ¬ BestSound (twoDungeons.foldl step emptyQueue) := by
  intro hsound
  have hbest : ((twoDungeons.foldl step emptyQueue).queueDataStore 1).map
      LfgQueueData.bestCompatible = some "13|40".toList := by decide +kernel
  obtain ⟨data, hdata, hkey⟩ := map_eq_some_iff.mp hbest
  have hmem := (hsound 1 data hdata (by rw [hkey]; decide)).1
  rw [hkey] at hmem
  exact absurd hmem (by decide +kernel)

end IscServer.DungeonFinding
