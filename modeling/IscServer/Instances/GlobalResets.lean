import IscServer.Instances.InstanceSaveMgr
import IscServer.Library.Run

/-!
# Global Resets

The events of raids and heroic maps in the queue of resets.

## Main results

* `Sound.round` — a round of `Update` erases the event it has processed, and the pair of that event has its
  next event in the queue.
* `update_done` — `Update` ends.
* `pending_of_run` — every pair has one event in the queue, at its time, in every run in which a global reset
  is forced only where there is no other pair.
* `chain_lost` — forcing the reset of one of two pairs removes the event of the other.
-/

namespace IscServer.Instances

open List Function

variable {maps : Maps} {manager manager' : InstanceSaveManager} {queue rest : ResetTimeQueue}
  {entry : ℤ × InstResetEvent} {time now : ℤ} {event : InstResetEvent} {raid : ℕ × ℕ → Prop}

/-! ### Pairs and their events -/

/-- The pairs that have global resets. -/
def Maps.IsRaid (maps : Maps) (pair : ℕ × ℕ) : Prop :=
  ∃ mapDiff ∈ maps.mapDifficulty, mapDiff.raidDuration ≠ 0 ∧ mapDiff.key = pair

/-- Whether an event is about a pair as a whole. -/
def isGlobal (pair : ℕ × ℕ) (entry : ℤ × InstResetEvent) : Bool :=
  entry.2.instanceId = 0 && (entry.2.mapid, entry.2.difficulty) = pair

/-- The events of a pair in the queue. -/
def ResetTimeQueue.globals (queue : ResetTimeQueue) (pair : ℕ × ℕ) : ResetTimeQueue :=
  queue.filter (isGlobal pair)

/-- An event of a pair, for its reset at a time. -/
def eventOf (pair : ℕ × ℕ) (t type : ℕ) : ℤ × InstResetEvent :=
  (t - resetTimeDelay type, ⟨type, pair.2, pair.1, 0⟩)

/-- The event of a pair in the queue is that of its reset time. -/
def HasOne (manager : InstanceSaveManager) (pair : ℕ × ℕ) : Prop :=
  ∃ t type, manager.resetTimeByMapDifficulty pair = some t ∧ 1 ≤ type ∧ type ≤ 4 ∧
    manager.resetTimeQueue.globals pair = [eventOf pair t type]

/-- **Every pair has exactly one event** in the queue. -/
def Pending (maps : Maps) (manager : InstanceSaveManager) : Prop :=
  ∀ pair, maps.IsRaid pair → HasOne manager pair

/-- **The invariant**, for the pairs that are scheduled: every event is about one of them as a whole, or about
one instance and of type 0. -/
structure Sound (raid : ℕ × ℕ → Prop) (manager : InstanceSaveManager) : Prop where
  global : ∀ entry ∈ manager.resetTimeQueue, entry.2.instanceId = 0 →
    raid (entry.2.mapid, entry.2.difficulty)
  individual : ∀ entry ∈ manager.resetTimeQueue, entry.2.instanceId ≠ 0 → entry.2.type = 0
  pending : ∀ pair, raid pair → HasOne manager pair

variable {pair : ℕ × ℕ}

theorem Maps.IsRaid.lt (h : maps.IsRaid pair) : pair.1 < 2 ^ 16 := by
  obtain ⟨mapDiff, hin, -, rfl⟩ := h
  exact maps.narrow mapDiff hin

theorem Maps.IsRaid.instanceable (h : maps.IsRaid pair) : maps.instanceable pair.1 = true := by
  obtain ⟨mapDiff, hin, hraid, rfl⟩ := h
  exact maps.raid mapDiff hin hraid

theorem makePair32_of_lt (h : pair.1 < 2 ^ 16) : makePair32 pair.1 pair.2 = pair := by
  rw [makePair32, Nat.mod_eq_of_lt h]

/-- The entry of a pair is found. -/
theorem getMapDifficultyData_eq {mapDiff : MapDifficultyEntry} (h : mapDiff ∈ maps.mapDifficulty) :
    maps.getMapDifficultyData mapDiff.mapID mapDiff.difficulty = some mapDiff := by
  cases hfind : maps.getMapDifficultyData mapDiff.mapID mapDiff.difficulty with
  | none =>
    have hno := List.find?_eq_none.mp hfind mapDiff h
    simp at hno
  | some found =>
    have hkey := List.find?_some hfind
    simp only [Bool.and_eq_true, decide_eq_true_eq] at hkey
    have hsame : found.key = mapDiff.key := Prod.ext hkey.1 hkey.2
    rw [inj_on_of_nodup_map maps.keys (mem_of_find?_eq_some hfind) h hsame]

theorem Maps.IsRaid.getSubsequentResetTime (h : maps.IsRaid pair) (t : ℕ) :
    maps.getSubsequentResetTime pair.1 pair.2 t = maps.subsequent pair.1 pair.2 t := by
  obtain ⟨mapDiff, hin, hraid, rfl⟩ := h
  rw [Maps.getSubsequentResetTime]
  have hfind := getMapDifficultyData_eq hin
  rw [MapDifficultyEntry.key, hfind]
  exact if_neg hraid

/-- A reset that is executed: the next time, and the first event for it. -/
theorem resetOrWarnAll_raid (h : maps.IsRaid pair) (manager : InstanceSaveManager) (t : ℕ) :
    manager.resetOrWarnAll maps pair.1 pair.2 false t =
      (manager.setResetTimeFor pair.1 pair.2 (maps.subsequent pair.1 pair.2 t)).scheduleReset true
        (eventOf pair (maps.subsequent pair.1 pair.2 t) 1).1
        (eventOf pair (maps.subsequent pair.1 pair.2 t) 1).2 := by
  have hlater := maps.later pair.1 pair.2 t
  have hpos : maps.subsequent pair.1 pair.2 t ≠ 0 := by
    rw [DAY] at hlater
    omega
  have hevent : InstResetEvent.new 1 pair.1 pair.2 0 = ⟨1, pair.2, pair.1, 0⟩ := by
    rw [InstResetEvent.new, Nat.mod_eq_of_lt h.lt, Nat.zero_mod]
  rw [InstanceSaveManager.resetOrWarnAll, h.instanceable, h.getSubsequentResetTime, hevent]
  exact if_neg hpos

/-! ### The queue -/

/-- What is inserted comes to the rest. -/
theorem perm_insert (queue : ResetTimeQueue) (time : ℤ) (event : InstResetEvent) :
    (queue.insert time event).Perm ((time, event) :: queue) :=
  perm_orderedInsert _ _ _

/-- What is inserted behind the first event leaves it the first. -/
theorem insert_cons (h : entry.1 < time) :
    ResetTimeQueue.insert (entry :: rest) time event = entry :: rest.insert time event := by
  rw [ResetTimeQueue.insert, orderedInsert_cons, if_neg (by exact not_lt.mpr h.le)]
  rfl

/-- The events of a pair after an insertion. -/
theorem perm_globals_insert (queue : ResetTimeQueue) (time : ℤ) (event : InstResetEvent)
    (pair : ℕ × ℕ) :
    ((queue.insert time event).globals pair).Perm
      (ResetTimeQueue.globals ((time, event) :: queue) pair) :=
  (perm_insert queue time event).filter _

theorem globals_insert_of_not (h : isGlobal pair (time, event) = false) :
    ((queue.insert time event).globals pair).Perm (queue.globals pair) := by
  have hperm := perm_globals_insert queue time event pair
  rwa [ResetTimeQueue.globals, ResetTimeQueue.globals, filter_cons, h] at hperm

theorem isGlobal_iff :
    isGlobal pair entry = true ↔ entry.2.instanceId = 0 ∧ (entry.2.mapid, entry.2.difficulty) = pair := by
  rw [isGlobal, Bool.and_eq_true, decide_eq_true_iff, decide_eq_true_iff]

variable {other : ℕ × ℕ} {t type : ℕ}

theorem isGlobal_eventOf : isGlobal other (eventOf pair t type) = decide (pair = other) := by
  simp [isGlobal, eventOf]

section

variable (h : Sound raid manager)
include h

/-- An event of a pair is that of its reset time. -/
theorem Sound.eq_eventOf (hin : entry ∈ manager.resetTimeQueue) (hid : entry.2.instanceId = 0) :
    ∃ t type, manager.resetTimeByMapDifficulty (entry.2.mapid, entry.2.difficulty) = some t ∧
      1 ≤ type ∧ type ≤ 4 ∧ entry = eventOf (entry.2.mapid, entry.2.difficulty) t type := by
  obtain ⟨t, type, htime, hone, hfour, hglobals⟩ := h.pending _ (h.global entry hin hid)
  refine ⟨t, type, htime, hone, hfour, ?_⟩
  have hmem : entry ∈ manager.resetTimeQueue.globals (entry.2.mapid, entry.2.difficulty) :=
    mem_filter.mpr ⟨hin, isGlobal_iff.mpr ⟨hid, rfl⟩⟩
  rw [hglobals] at hmem
  exact mem_singleton.mp hmem

/-- **An event of one instance** may come and go. -/
theorem Sound.drop (hperm : manager.resetTimeQueue.Perm (entry :: rest))
    (hid : entry.2.instanceId ≠ 0) : Sound raid { manager with resetTimeQueue := rest } := by
  have hin : ∀ other ∈ rest, other ∈ manager.resetTimeQueue := fun other hother =>
    hperm.mem_iff.mpr (mem_cons_of_mem _ hother)
  refine ⟨fun other hother => h.global other (hin other hother),
    fun other hother => h.individual other (hin other hother), fun pair hpair => ?_⟩
  obtain ⟨t, type, htime, hone, hfour, hglobals⟩ := h.pending pair hpair
  refine ⟨t, type, htime, hone, hfour, ?_⟩
  have hfilter : (manager.resetTimeQueue.globals pair).Perm (ResetTimeQueue.globals (entry :: rest) pair) :=
    hperm.filter _
  have hnot : isGlobal pair entry = false := by
    rw [isGlobal, decide_eq_false hid]
    rfl
  rw [hglobals, ResetTimeQueue.globals, filter_cons, hnot] at hfilter
  exact perm_singleton.mp hfilter.symm

theorem Sound.add (hid : event.instanceId ≠ 0) (htype : event.type = 0) :
    Sound raid (manager.scheduleReset true time event) := by
  have hin : ∀ other ∈ manager.resetTimeQueue.insert time event, other = (time, event) ∨
      other ∈ manager.resetTimeQueue := fun other hother =>
    mem_cons.mp ((perm_insert _ time event).mem_iff.mp hother)
  refine ⟨fun other hother hzero => ?_, fun other hother hnot => ?_, fun pair hpair => ?_⟩
  · obtain rfl | hold := hin other hother
    · exact absurd hzero hid
    · exact h.global other hold hzero
  · obtain rfl | hold := hin other hother
    · exact htype
    · exact h.individual other hold hnot
  · obtain ⟨t, type, htime, hone, hfour, hglobals⟩ := h.pending pair hpair
    refine ⟨t, type, htime, hone, hfour, ?_⟩
    have hnot : isGlobal pair (time, event) = false := by
      rw [isGlobal, decide_eq_false hid]
      rfl
    have hperm := (@globals_insert_of_not manager.resetTimeQueue) hnot
    rw [hglobals] at hperm
    exact perm_singleton.mp hperm

/-- **The next event of a pair** takes the place of one that is gone. -/
theorem Sound.replace (hpair : raid pair)
    (hperm : manager.resetTimeQueue.Perm (entry :: rest)) (hglobal : isGlobal pair entry = true)
    (hone : 1 ≤ type) (hfour : type ≤ 4) {times : ℕ × ℕ → Option ℕ} (htime : times pair = some t)
    (hothers : ∀ other, other ≠ pair → times other = manager.resetTimeByMapDifficulty other) :
    Sound raid ⟨times, rest.insert (eventOf pair t type).1 (eventOf pair t type).2⟩ := by
  have hin : ∀ other ∈ rest.insert (eventOf pair t type).1 (eventOf pair t type).2,
      other = eventOf pair t type ∨ other ∈ manager.resetTimeQueue := fun other hother =>
    (mem_cons.mp ((perm_insert _ _ _).mem_iff.mp hother)).imp_right fun hrest =>
      hperm.mem_iff.mpr (mem_cons_of_mem _ hrest)
  refine ⟨fun other hother hzero => ?_, fun other hother hnot => ?_, fun other hother => ?_⟩
  · obtain rfl | hold := hin other hother
    · exact hpair
    · exact h.global other hold hzero
  · obtain rfl | hold := hin other hother
    · exact absurd rfl hnot
    · exact h.individual other hold hnot
  · have hfilter : (manager.resetTimeQueue.globals other).Perm
        (ResetTimeQueue.globals (entry :: rest) other) := hperm.filter _
    have hinsert := perm_globals_insert rest (eventOf pair t type).1 (eventOf pair t type).2 other
    obtain ⟨t', type', htime', hone', hfour', hglobals⟩ := h.pending other hother
    rw [hglobals, ResetTimeQueue.globals, filter_cons] at hfilter
    by_cases hsame : other = pair
    · subst hsame
      rw [if_pos hglobal] at hfilter
      have hnone : rest.filter (isGlobal other) = [] := by
        have hlength := hfilter.length_eq
        rw [length_singleton, length_cons] at hlength
        exact length_eq_zero_iff.mp (by omega)
      refine ⟨t, type, htime, hone, hfour, perm_singleton.mp ?_⟩
      rw [ResetTimeQueue.globals, ResetTimeQueue.globals, filter_cons, hnone] at hinsert
      refine hinsert.trans ?_
      rw [if_pos (by rw [isGlobal_eventOf]; exact decide_eq_true rfl)]
    · have hnot : isGlobal other entry = false := by
        rw [Bool.eq_false_iff]
        intro hboth
        exact hsame ((isGlobal_iff.mp hboth).2.symm.trans (isGlobal_iff.mp hglobal).2)
      rw [hnot] at hfilter
      refine ⟨t', type', (hothers other hsame).trans htime', hone', hfour', perm_singleton.mp ?_⟩
      rw [ResetTimeQueue.globals, ResetTimeQueue.globals, filter_cons] at hinsert
      refine hinsert.trans ?_
      rw [if_neg (by rw [isGlobal_eventOf, decide_eq_false (Ne.symm hsame)]; decide)]
      exact hfilter.symm

end

/-! ### Rounds of Update -/

/-- **A round**: the event that was processed is erased, what is scheduled comes later, and only the reset
time of a pair whose reset is executed moves. -/
def Round (now : ℤ) (manager manager' : InstanceSaveManager) : Prop :=
  ∃ processed, ∃ rest : ResetTimeQueue, manager.resetTimeQueue = processed :: rest ∧
    processed.1 < now ∧
    (manager'.resetTimeQueue = rest ∨ ∃ time event, processed.1 < time ∧
      manager'.resetTimeQueue = rest.insert time event) ∧
    ∀ pair, manager'.resetTimeByMapDifficulty pair ≠ manager.resetTimeByMapDifficulty pair →
      processed.2.type = 4 ∧ (processed.2.mapid, processed.2.difficulty) = pair

theorem getResetTimeFor_eq (hpair : maps.IsRaid pair)
    (h : manager.resetTimeByMapDifficulty pair = some t) :
    manager.getResetTimeFor pair.1 pair.2 = t := by
  rw [InstanceSaveManager.getResetTimeFor, makePair32_of_lt hpair.lt, h]
  rfl

theorem resetOrWarnAll_warn (manager : InstanceSaveManager) (mapid difficulty t : ℕ) :
    manager.resetOrWarnAll maps mapid difficulty true t = manager := by
  rw [InstanceSaveManager.resetOrWarnAll, Bool.not_true, Bool.and_false]
  rfl

/-- The delays get shorter. -/
theorem resetTimeDelay_succ_lt (hone : 1 ≤ type) (hfour : type < 4) :
    resetTimeDelay (type + 1) < resetTimeDelay type := by
  have hcases : type = 1 ∨ type = 2 ∨ type = 3 := by omega
  obtain rfl | rfl | rfl := hcases <;> decide

/-- A round with a warning. -/
theorem updateOnce_of_ne {t : ℤ} (hqueue : manager.resetTimeQueue = (t, event) :: rest)
    (hnow : t < now) (hzero : event.type ≠ 0) (hlast : event.type ≠ 4) :
    manager.updateOnce maps now = some ⟨manager.resetTimeByMapDifficulty,
      (ResetTimeQueue.insert ((t, { event with type := event.type + 1 }) :: rest)
        (manager.getResetTimeFor event.mapid event.difficulty - resetTimeDelay (event.type + 1))
          { event with type := event.type + 1 }).tail⟩ := by
  rw [InstanceSaveManager.updateOnce, hqueue]
  dsimp only
  rw [if_neg (Int.not_le.mpr hnow), if_neg hzero, decide_eq_true hlast, resetOrWarnAll_warn, if_pos hlast]
  rfl

/-- A round with a reset. -/
theorem updateOnce_of_eq {t : ℤ} (hqueue : manager.resetTimeQueue = (t, event) :: rest)
    (hnow : t < now) (hlast : event.type = 4) :
    manager.updateOnce maps now =
      let manager := manager.resetOrWarnAll maps event.mapid event.difficulty false
        (manager.getResetTimeFor event.mapid event.difficulty)
      some { manager with resetTimeQueue := manager.resetTimeQueue.tail } := by
  rw [InstanceSaveManager.updateOnce, hqueue]
  dsimp only
  rw [if_neg (Int.not_le.mpr hnow), if_neg (by omega), if_neg (by simpa using hlast)]
  have hwarn : decide (event.type ≠ 4) = false := decide_eq_false (by simpa using hlast)
  rw [hwarn]

/-- The first event for the next reset comes after the reset. -/
theorem eventOf_reset_lt (maps : Maps) (pair : ℕ × ℕ) (reset : ℕ) :
    (eventOf pair reset 4).1 < (eventOf pair (maps.subsequent pair.1 pair.2 reset) 1).1 := by
  have hday := maps.later pair.1 pair.2 reset
  have hfirst : resetTimeDelay 1 = 3600 := rfl
  simp only [eventOf, DAY] at hday ⊢
  omega

section Processed

variable {pair : ℕ × ℕ} {reset type : ℕ}

/-- **A warning** is followed by the next event for the same reset. -/
theorem updateOnce_warning (hqueue : manager.resetTimeQueue = eventOf pair reset type :: rest)
    (hnow : (eventOf pair reset type).1 < now) (hraid : maps.IsRaid pair)
    (htime : manager.resetTimeByMapDifficulty pair = some reset) (hone : 1 ≤ type) (hfour : type < 4) :
    manager.updateOnce maps now = some ⟨manager.resetTimeByMapDifficulty,
      rest.insert (eventOf pair reset (type + 1)).1 (eventOf pair reset (type + 1)).2⟩ := by
  have hlater : (eventOf pair reset type).1 < (eventOf pair reset (type + 1)).1 := by
    have hdelay := resetTimeDelay_succ_lt hone hfour
    simp only [eventOf]
    omega
  have hreset : manager.getResetTimeFor pair.1 pair.2 = reset := getResetTimeFor_eq hraid htime
  have hround := (@updateOnce_of_ne maps) hqueue hnow (Nat.pos_iff_ne_zero.mp hone) hfour.ne
  rw [hround]
  simp only [eventOf] at hlater ⊢
  rw [hreset, insert_cons hlater]
  rfl

/-- **A reset** is followed by the first event for the next one. -/
theorem updateOnce_reset (hqueue : manager.resetTimeQueue = eventOf pair reset 4 :: rest)
    (hnow : (eventOf pair reset 4).1 < now) (hraid : maps.IsRaid pair)
    (htime : manager.resetTimeByMapDifficulty pair = some reset) :
    manager.updateOnce maps now = some
      ⟨Function.update manager.resetTimeByMapDifficulty pair (some (maps.subsequent pair.1 pair.2 reset)),
        rest.insert (eventOf pair (maps.subsequent pair.1 pair.2 reset) 1).1
          (eventOf pair (maps.subsequent pair.1 pair.2 reset) 1).2⟩ := by
  have hlater := eventOf_reset_lt maps pair reset
  have hreset : manager.getResetTimeFor pair.1 pair.2 = reset := getResetTimeFor_eq hraid htime
  have hround := (@updateOnce_of_eq maps) hqueue hnow rfl
  rw [hround]
  have hexecuted := resetOrWarnAll_raid hraid manager reset
  rw [hreset, hexecuted, InstanceSaveManager.scheduleReset, if_pos rfl, InstanceSaveManager.setResetTimeFor,
    hqueue, makePair32_of_lt hraid.lt, insert_cons hlater]
  rfl

end Processed

/-- **One round** keeps the invariant. -/
theorem Sound.round (h : Sound maps.IsRaid manager)
    (hround : manager.updateOnce maps now = some manager') :
    Sound maps.IsRaid manager' ∧ Round now manager manager' := by
  cases hqueue : manager.resetTimeQueue with
  | nil =>
    rw [InstanceSaveManager.updateOnce, hqueue] at hround
    cases hround
  | cons entry rest =>
    have hin : entry ∈ manager.resetTimeQueue := hqueue ▸ mem_cons_self
    have hnow : entry.1 < now := by
      rw [InstanceSaveManager.updateOnce, hqueue] at hround
      by_contra hstop
      simp only [not_lt.mp hstop] at hround
      cases hround
    by_cases hid : entry.2.instanceId = 0
    · obtain ⟨reset, type, htime, hone, hfour, heq⟩ := h.eq_eventOf hin hid
      have hraid := h.global entry hin hid
      have hglobal : isGlobal (entry.2.mapid, entry.2.difficulty) entry = true :=
        isGlobal_iff.mpr ⟨hid, rfl⟩
      generalize (entry.2.mapid, entry.2.difficulty) = pair at htime heq hraid hglobal
      subst heq
      obtain hlt | rfl := hfour.lt_or_eq
      · rw [updateOnce_warning hqueue hnow hraid htime hone hlt] at hround
        cases hround
        have hdelay := resetTimeDelay_succ_lt hone hlt
        refine ⟨h.replace hraid (.of_eq hqueue) hglobal (by omega) hlt htime fun _ _ => rfl,
          _, rest, hqueue, hnow, .inr ⟨_, _, ?_, rfl⟩, fun pair hmoved => absurd rfl hmoved⟩
        simp only [eventOf]
        omega
      · rw [updateOnce_reset hqueue hnow hraid htime] at hround
        cases hround
        refine ⟨h.replace hraid (.of_eq hqueue) hglobal le_rfl (by decide) (update_self _ _ _)
          fun other hne => update_of_ne hne _ _,
          _, rest, hqueue, hnow, .inr ⟨_, _, eventOf_reset_lt maps pair reset, rfl⟩,
          fun other hmoved => ⟨rfl, ?_⟩⟩
        by_contra hne
        exact hmoved (update_of_ne (Ne.symm hne) _ _)
    · have hzero := h.individual entry hin hid
      rw [InstanceSaveManager.updateOnce, hqueue] at hround
      dsimp only at hround
      rw [if_neg (Int.not_le.mpr hnow), if_pos hzero] at hround
      cases hround
      exact ⟨h.drop (.of_eq hqueue) hid, entry, rest, hqueue, hnow, .inl rfl,
        fun pair hmoved => absurd rfl hmoved⟩

/-- **A round brings the queue nearer to the clock**. -/
theorem Round.behind_lt (h : Round now manager manager') :
    manager'.resetTimeQueue.behind now < manager.resetTimeQueue.behind now := by
  obtain ⟨processed, rest, hqueue, hnow, hrest | ⟨time, event, hlater, hrest⟩, -⟩ := h
  · rw [hqueue, hrest, ResetTimeQueue.behind, ResetTimeQueue.behind, map_cons, sum_cons]
    omega
  · have hsum : (rest.insert time event).behind now = (now - time).toNat + rest.behind now := by
      have hperm := ((perm_insert rest time event).map fun entry => (now - entry.1).toNat).sum_nat
      exact hperm
    rw [hqueue, hrest, hsum, ResetTimeQueue.behind, ResetTimeQueue.behind, map_cons, sum_cons]
    omega

theorem rounds_spec (fuel : ℕ) (h : Sound maps.IsRaid manager)
    (hfuel : manager.resetTimeQueue.behind now ≤ fuel) :
    Sound maps.IsRaid (InstanceSaveManager.rounds maps now fuel manager) ∧
      Relation.ReflTransGen (Round now) manager (InstanceSaveManager.rounds maps now fuel manager) ∧
      (InstanceSaveManager.rounds maps now fuel manager).updateOnce maps now = none := by
  induction fuel generalizing manager with
  | zero =>
    refine ⟨h, .refl, ?_⟩
    cases hround : manager.updateOnce maps now with
    | none => exact hround
    | some manager' =>
      have hless := (h.round hround).2.behind_lt
      omega
  | succ fuel ih =>
    rw [InstanceSaveManager.rounds]
    cases hround : manager.updateOnce maps now with
    | none => exact ⟨h, .refl, hround⟩
    | some manager' =>
      obtain ⟨hsound, hstep⟩ := h.round hround
      have hless := hstep.behind_lt
      obtain ⟨hsound', hsteps, hdone⟩ := ih hsound (by omega)
      exact ⟨hsound', .head hstep hsteps, hdone⟩

/-- **Update ends**, after rounds each of which erases what it has processed. -/
theorem Sound.update (h : Sound maps.IsRaid manager) (now : ℤ) :
    Sound maps.IsRaid (manager.update maps now) ∧
      Relation.ReflTransGen (Round now) manager (manager.update maps now) ∧
      (manager.update maps now).updateOnce maps now = none :=
  rounds_spec _ h le_rfl

/-! ### Cancelled and forced resets -/

/-- Events are the same if they are about the same instance. -/
theorem same_iff {e : InstResetEvent} : event.same e = true ↔ event.instanceId = e.instanceId := by
  rw [InstResetEvent.same, decide_eq_true_iff, eq_comm]

/-- An event is cancelled, or there is none with its instance id. -/
theorem cancel_cases (queue : ResetTimeQueue) (time : ℤ) (event : InstResetEvent) :
    ((∀ entry ∈ queue, entry.2.instanceId ≠ event.instanceId) ∧ queue.cancel time event = queue) ∨
      ∃ entry, entry.2.instanceId = event.instanceId ∧
        queue.Perm (entry :: queue.cancel time event) := by
  have herase : ∀ p : ℤ × InstResetEvent → Bool, (∀ entry, p entry = true →
      entry.2.instanceId = event.instanceId) → (∃ entry ∈ queue, p entry = true) →
      ∃ entry, entry.2.instanceId = event.instanceId ∧ queue.Perm (entry :: queue.eraseP p) := by
    rintro p hp ⟨entry, hin, hentry⟩
    obtain ⟨found, before, after, -, hfound, hsplit, hrest⟩ := exists_of_eraseP hin hentry
    refine ⟨found, hp found hfound, ?_⟩
    rw [hrest]
    exact (List.Perm.of_eq hsplit).trans perm_middle
  rw [ResetTimeQueue.cancel]
  split_ifs with hany
  · refine .inr (herase _ (fun entry hentry => ?_) (any_eq_true.mp hany))
    exact same_iff.mp (Bool.and_eq_true _ _ ▸ hentry).2
  · by_cases hsome : ∃ entry ∈ queue, entry.2.same event = true
    · exact .inr (herase _ (fun entry hentry => same_iff.mp hentry) hsome)
    · have hnone : ∀ entry ∈ queue, ¬entry.2.same event = true := fun entry hin hentry =>
        hsome ⟨entry, hin, hentry⟩
      refine .inl ⟨fun entry hin heq => hnone entry hin (same_iff.mpr heq), ?_⟩
      exact eraseP_of_forall_not hnone

theorem Sound.cancel (h : Sound raid manager) (hid : event.instanceId ≠ 0) :
    Sound raid (manager.scheduleReset false time event) := by
  obtain ⟨-, hsame⟩ | ⟨entry, hentry, hperm⟩ := cancel_cases manager.resetTimeQueue time event
  · rw [InstanceSaveManager.scheduleReset, if_neg Bool.false_ne_true, hsame]
    exact h
  · exact h.drop hperm (hentry ▸ hid)

/-- A pair without global resets has none to force. -/
theorem resetOrWarnAll_of_not_raid (hraid : ¬maps.IsRaid pair) (warn : Bool) (t : ℕ) :
    manager.resetOrWarnAll maps pair.1 pair.2 warn t = manager := by
  have hnext : maps.getSubsequentResetTime pair.1 pair.2 t = 0 := by
    rw [Maps.getSubsequentResetTime]
    cases hfind : maps.getMapDifficultyData pair.1 pair.2 with
    | none => rfl
    | some mapDiff =>
      have hkey := List.find?_some hfind
      simp only [Bool.and_eq_true, decide_eq_true_eq] at hkey
      refine if_pos (by_contra fun hne => hraid ?_)
      exact ⟨mapDiff, mem_of_find?_eq_some hfind, hne, Prod.ext hkey.1 hkey.2⟩
  rw [InstanceSaveManager.resetOrWarnAll]
  rw [if_pos hnext, ite_self]

/-- The other pairs are left alone. -/
def Untouched (forced : Option (ℕ × ℕ)) (manager manager' : InstanceSaveManager) : Prop :=
  ∀ other, forced ≠ some other → manager'.resetTimeQueue.globals other = manager.resetTimeQueue.globals other ∧
    manager'.resetTimeByMapDifficulty other = manager.resetTimeByMapDifficulty other

/-- The pairs that no event in the queue is about. -/
theorem globals_eq_nil (hne : other ≠ pair)
    (h : ∀ entry ∈ queue, entry.2.instanceId = 0 → (entry.2.mapid, entry.2.difficulty) = pair) :
    queue.globals other = [] := by
  refine filter_eq_nil_iff.mpr fun entry hin hglobal => ?_
  obtain ⟨hid, hother⟩ := isGlobal_iff.mp hglobal
  exact hne (hother.symm.trans (h entry hin hid))

/-- Where there is no event about a pair, none is cancelled. -/
theorem cancel_of_no_global (h : ∀ entry ∈ queue, entry.2.instanceId ≠ 0) (time : ℤ)
    (t mapid d : ℕ) :
    queue.cancel time (.new t mapid d 0) = queue := by
  obtain ⟨-, hsame⟩ | ⟨entry, hid, hperm⟩ := cancel_cases queue time (.new t mapid d 0)
  · exact hsame
  · exact absurd hid (h entry (hperm.mem_iff.mpr mem_cons_self))

/-- Forcing a reset where no other pair is: its event is cancelled, if it has one. -/
theorem Sound.cancel_both (h : Sound maps.IsRaid manager) (hraid : maps.IsRaid pair)
    (honly : ∀ other, maps.IsRaid other → other = pair) (mapid d : ℕ) :
    ∃ entry, isGlobal pair entry = true ∧ manager.resetTimeQueue.Perm (entry ::
      (manager.resetTimeQueue.cancel 0 (.new 1 mapid d 0)).cancel 0 (.new 4 mapid d 0)) := by
  obtain ⟨t, type, -, -, -, hglobals⟩ := h.pending pair hraid
  obtain ⟨hnone, -⟩ | ⟨entry, hid, hperm⟩ := cancel_cases manager.resetTimeQueue 0 (.new 1 mapid d 0)
  · have hin : eventOf pair t type ∈ manager.resetTimeQueue.globals pair :=
      hglobals ▸ mem_singleton_self _
    exact absurd rfl (hnone _ (mem_of_mem_filter hin))
  · have hglobal : ∀ other ∈ manager.resetTimeQueue, other.2.instanceId = 0 →
        isGlobal pair other = true := fun other hin hzero =>
      isGlobal_iff.mpr ⟨hzero, honly _ (h.global other hin hzero)⟩
    have hentry := hglobal entry (hperm.mem_iff.mpr mem_cons_self) hid
    refine ⟨entry, hentry, ?_⟩
    rw [cancel_of_no_global _ 0 4 mapid d]
    · exact hperm
    · -- a second event of the pair would be one too many
      intro other hin hzero
      have hfilter : (manager.resetTimeQueue.globals pair).Perm (ResetTimeQueue.globals (entry ::
        manager.resetTimeQueue.cancel 0 (.new 1 mapid d 0)) pair) := hperm.filter _
      have hsecond := hglobal other (hperm.mem_iff.mpr (mem_cons_of_mem _ hin)) hzero
      have hmem := mem_filter.mpr ⟨hin, hsecond⟩
      have hlength := hfilter.length_eq
      rw [hglobals, ResetTimeQueue.globals, filter_cons, if_pos hentry, length_singleton,
        length_cons] at hlength
      have hpos := length_pos_of_mem hmem
      omega

/-- **A forced reset** of the only pair. -/
theorem Sound.forceGlobalReset (h : Sound maps.IsRaid manager) {mapId difficulty : ℕ} (now : ℕ)
    (honly : ∀ d, maps.getDownscaledMapDifficultyData mapId difficulty = some d →
      ∀ pair, maps.IsRaid pair → pair = (mapId, d)) :
    Sound maps.IsRaid (manager.forceGlobalReset maps now mapId difficulty) ∧
      Untouched ((maps.getDownscaledMapDifficultyData mapId difficulty).map (mapId, ·)) manager
        (manager.forceGlobalReset maps now mapId difficulty) := by
  rw [InstanceSaveManager.forceGlobalReset]
  cases hdown : maps.getDownscaledMapDifficultyData mapId difficulty with
  | none => exact ⟨h, fun _ _ => ⟨rfl, rfl⟩⟩
  | some d =>
    replace honly := honly d hdown
    simp only [InstanceSaveManager.scheduleReset, if_neg Bool.false_ne_true]
    have hpair : ∀ entry ∈ manager.resetTimeQueue, entry.2.instanceId = 0 →
        (entry.2.mapid, entry.2.difficulty) = (mapId, d) := fun entry hin hid =>
      honly _ (h.global entry hin hid)
    by_cases hraid : maps.IsRaid (mapId, d)
    · obtain ⟨entry, hentry, hperm⟩ := h.cancel_both hraid honly mapId d
      generalize (manager.resetTimeQueue.cancel 0 (.new 1 mapId d 0)).cancel 0 (.new 4 mapId d 0) = rest
        at hperm
      have hforced := resetOrWarnAll_raid hraid ⟨manager.resetTimeByMapDifficulty, rest⟩ now
      rw [hforced, InstanceSaveManager.scheduleReset, if_pos rfl, InstanceSaveManager.setResetTimeFor]
      have hpair32 : makePair32 mapId d = (mapId, d) := (@makePair32_of_lt ((mapId, d))) hraid.lt
      rw [hpair32]
      refine ⟨h.replace hraid hperm hentry le_rfl (by decide) (update_self _ _ _)
        fun other hne => update_of_ne hne _ _, fun other hother => ?_⟩
      have hne : other ≠ (mapId, d) := fun heq => hother (heq ▸ rfl)
      refine ⟨?_, update_of_ne hne _ _⟩
      rw [globals_eq_nil hne hpair, globals_eq_nil hne]
      intro other hin hid
      obtain rfl | hrest := mem_cons.mp ((perm_insert _ _ _).mem_iff.mp hin)
      · rfl
      · exact hpair other (hperm.mem_iff.mpr (mem_cons_of_mem _ hrest)) hid
    · have hnone : ∀ entry ∈ manager.resetTimeQueue, entry.2.instanceId ≠ 0 := fun entry hin hid =>
        hraid (honly _ (h.global entry hin hid) ▸ h.global entry hin hid)
      rw [cancel_of_no_global hnone, cancel_of_no_global hnone]
      have hsame := (@resetOrWarnAll_of_not_raid _ manager) hraid false now
      rw [hsame]
      exact ⟨h, fun _ _ => ⟨rfl, rfl⟩⟩

/-! ### Loading -/

/-- **A pair is scheduled**, after others. -/
theorem Sound.schedule (h : Sound raid manager) (hnew : ¬raid pair) (hone : 1 ≤ type)
    (hfour : type ≤ 4) :
    Sound (fun other => raid other ∨ other = pair)
      ⟨Function.update manager.resetTimeByMapDifficulty pair (some t),
        manager.resetTimeQueue.insert (eventOf pair t type).1 (eventOf pair t type).2⟩ := by
  have hin : ∀ other ∈ manager.resetTimeQueue.insert (eventOf pair t type).1 (eventOf pair t type).2,
      other = eventOf pair t type ∨ other ∈ manager.resetTimeQueue := fun other hother =>
    mem_cons.mp ((perm_insert _ _ _).mem_iff.mp hother)
  refine ⟨fun other hother hzero => ?_, fun other hother hnot => ?_, fun other hother => ?_⟩
  · obtain rfl | hold := hin other hother
    · exact .inr rfl
    · exact .inl (h.global other hold hzero)
  · obtain rfl | hold := hin other hother
    · exact absurd rfl hnot
    · exact h.individual other hold hnot
  · have hinsert := perm_globals_insert manager.resetTimeQueue (eventOf pair t type).1
      (eventOf pair t type).2 other
    rw [ResetTimeQueue.globals, ResetTimeQueue.globals, filter_cons] at hinsert
    by_cases hsame : other = pair
    · subst hsame
      refine ⟨t, type, update_self _ _ _, hone, hfour, perm_singleton.mp ?_⟩
      have hnone : manager.resetTimeQueue.filter (isGlobal other) = [] := by
        refine filter_eq_nil_iff.mpr fun entry hin hglobal => hnew ?_
        obtain ⟨hid, hpair⟩ := isGlobal_iff.mp hglobal
        exact hpair ▸ h.global entry hin hid
      refine hinsert.trans ?_
      rw [if_pos (by rw [isGlobal_eventOf]; exact decide_eq_true rfl), hnone]
    · obtain ⟨t', type', htime, hone', hfour', hglobals⟩ := h.pending other (hother.resolve_right hsame)
      refine ⟨t', type', (update_of_ne hsame _ _).trans htime, hone', hfour', perm_singleton.mp ?_⟩
      refine hinsert.trans ?_
      rw [if_neg (by rw [isGlobal_eventOf, decide_eq_false (Ne.symm hsame)]; decide)]
      exact .of_eq hglobals

theorem one_le_firstType (t now : ℕ) : 1 ≤ firstType t now ∧ firstType t now ≤ 4 := by
  rw [firstType]
  split_ifs <;> decide

theorem Sound.of_iff {raid' : ℕ × ℕ → Prop} (h : Sound raid manager)
    (hiff : ∀ pair, raid pair ↔ raid' pair) :
    Sound raid' manager :=
  ⟨fun entry hin hid => (hiff _).mp (h.global entry hin hid), h.individual,
    fun pair hpair => h.pending pair ((hiff pair).mpr hpair)⟩

variable {instances : List InstanceRow}

/-- The loop over the maps: every pair is scheduled once. -/
theorem Sound.foldl_loadMapDifficulty {hours : Hours} {now : ℕ} {entries : List MapDifficultyEntry}
    (h : Sound raid manager) (hnew : ∀ mapDiff ∈ entries, ¬raid mapDiff.key)
    (hkeys : (entries.map MapDifficultyEntry.key).Nodup)
    (hnarrow : ∀ mapDiff ∈ entries, mapDiff.mapID < 2 ^ 16)
    (hinstances : ∀ mapDiff ∈ entries, mapDiff.raidDuration ≠ 0 → ∀ row ∈ instances, row.resettime ≠ 0 →
      makePair32 row.map row.difficulty ≠ mapDiff.key) :
    Sound (fun pair => raid pair ∨ ∃ mapDiff ∈ entries, mapDiff.raidDuration ≠ 0 ∧ mapDiff.key = pair)
      (entries.foldl (·.loadMapDifficulty hours now instances ·) manager) := by
  induction entries generalizing manager raid with
  | nil => exact h.of_iff fun pair => by simp
  | cons mapDiff entries ih =>
    obtain ⟨hnew, hnews⟩ := forall_mem_cons.mp hnew
    obtain ⟨hnarrow, hnarrows⟩ := forall_mem_cons.mp hnarrow
    obtain ⟨hinstances, hinstancess⟩ := forall_mem_cons.mp hinstances
    rw [map_cons, nodup_cons] at hkeys
    rw [foldl_cons, InstanceSaveManager.loadMapDifficulty]
    split_ifs with hraid
    · refine (ih h hnews hkeys.2 hnarrows hinstancess).of_iff fun pair => ?_
      simp [hraid]
    · have hpair : makePair32 mapDiff.mapID mapDiff.difficulty = mapDiff.key :=
        (@makePair32_of_lt mapDiff.key) hnarrow
      have hrange : instances.filter (fun row => row.resettime ≠ 0 &&
          makePair32 row.map row.difficulty = makePair32 mapDiff.mapID mapDiff.difficulty) = [] := by
        refine filter_eq_nil_iff.mpr fun row hrow hboth => ?_
        simp only [Bool.and_eq_true, decide_eq_true_eq] at hboth
        exact hinstances hraid row hrow hboth.1 (hboth.2.trans hpair)
      dsimp only
      rw [hrange, foldl_nil, InstanceSaveManager.setResetTimeFor, hpair,
        InstanceSaveManager.scheduleReset, if_pos rfl]
      generalize hours.resetTime now mapDiff _ = t
      have hevent : (⟨firstType t now, mapDiff.difficulty, mapDiff.mapID % 2 ^ 16, 0 % 2 ^ 16⟩ :
          InstResetEvent) = (eventOf mapDiff.key t (firstType t now)).2 := by
        rw [Nat.mod_eq_of_lt hnarrow]
        rfl
      obtain ⟨hone, hfour⟩ := one_le_firstType t now
      have hscheduled := h.schedule hnew (t := t) hone hfour
      rw [InstResetEvent.new, hevent]
      refine (ih hscheduled ?_ hkeys.2 hnarrows hinstancess).of_iff fun pair => ?_
      · rintro other hother (hold | heq)
        · exact hnews other hother hold
        · exact hkeys.1 (heq ▸ mem_map_of_mem hother)
      · simp only [mem_cons, exists_eq_or_imp, or_assoc]
        constructor
        · rintro (hold | rfl | hlater)
          · exact .inl hold
          · exact .inr (.inl ⟨hraid, rfl⟩)
          · exact .inr (.inr hlater)
        · rintro (hold | ⟨-, rfl⟩ | hlater)
          · exact .inl hold
          · exact .inr (.inl rfl)
          · exact .inr (.inr hlater)

/-- **The rows are as they are written**: only instances of other maps have reset times of their own, and
their ids are not taken for that of a pair. -/
def RowsKeep (maps : Maps) (instances : List InstanceRow) : Prop :=
  ∀ row ∈ instances, row.resettime ≠ 0 → row.id % 2 ^ 16 ≠ 0 ∧
    ∀ mapDiff ∈ maps.mapDifficulty, mapDiff.raidDuration ≠ 0 → makePair32 row.map row.difficulty ≠ mapDiff.key

/-- **What is loaded** has one event for every pair. -/
theorem sound_loadResetTimes (hours : Hours) (now : ℕ) (resets : List ResetRow)
    (hrows : RowsKeep maps instances) :
    Sound maps.IsRaid (loadResetTimes maps hours now instances resets) := by
  have hinstances : Sound (fun _ => False) (instances.foldl (·.loadInstance now ·) .new) := by
    have hloop : ∀ rows : List InstanceRow, (∀ row ∈ rows, row ∈ instances) →
        ∀ manager, Sound (fun _ => False) manager → Sound (fun _ => False)
          (rows.foldl (·.loadInstance now ·) manager) := by
      intro rows
      induction rows with
      | nil => exact fun _ _ h => h
      | cons row rows ih =>
        intro hin manager h
        obtain ⟨hrow, hin⟩ := forall_mem_cons.mp hin
        refine ih hin _ ?_
        dsimp only
        rw [InstanceSaveManager.loadInstance]
        split_ifs with hset
        · exact h.add (hrows row hrow hset.1).1 rfl
        · exact h
    refine hloop instances (fun _ hin => hin) _ ⟨?_, ?_, fun _ h => h.elim⟩
    · exact fun _ hin => absurd hin not_mem_nil
    · exact fun _ hin => absurd hin not_mem_nil
  have hresets : ∀ manager, Sound (fun _ => False) manager → Sound (fun _ => False)
      (resets.foldl (·.loadReset maps hours ·) manager) := by
    induction resets with
    | nil => exact fun _ h => h
    | cons row rows ih =>
      refine fun manager h => ih _ ?_
      dsimp only
      rw [InstanceSaveManager.loadReset]
      split
      · exact h
      · exact ⟨h.global, h.individual, fun _ hraid => hraid.elim⟩
  refine (Sound.foldl_loadMapDifficulty (hresets _ hinstances) (fun _ _ => id) maps.keys maps.narrow ?_).of_iff
    fun pair => ?_
  · exact fun mapDiff hin hraid row hrow hset => (hrows row hrow hset).2 mapDiff hin hraid
  · rw [false_or, Maps.IsRaid]

/-! ### Runs -/

/-- **The request keeps the events**: a global reset is forced only where no other pair is, and the id of an
instance whose reset is scheduled or cancelled is not taken for that of a pair. -/
def Keeps (maps : Maps) : Request → Prop
  | .update _ => True
  | .forceGlobalReset _ mapId difficulty =>
    ∀ d ∈ maps.getDownscaledMapDifficultyData mapId difficulty, ∀ mapDiff ∈ maps.mapDifficulty,
      mapDiff.raidDuration ≠ 0 → mapDiff.key = (mapId, d)
  | .scheduleReset _ _ _ _ instanceId => instanceId % 2 ^ 16 ≠ 0

instance (maps : Maps) (request : Request) : Decidable (Keeps maps request) :=
  match request with
  | .update _ => inferInstanceAs (Decidable True)
  | .forceGlobalReset _ mapId difficulty => inferInstanceAs (Decidable
      (∀ d ∈ maps.getDownscaledMapDifficultyData mapId difficulty, ∀ mapDiff ∈ maps.mapDifficulty,
        mapDiff.raidDuration ≠ 0 → mapDiff.key = (mapId, d)))
  | .scheduleReset _ _ _ _ instanceId => inferInstanceAs (Decidable (instanceId % 2 ^ 16 ≠ 0))

/-- **What a request does** to the events: `Update` ends, and each of its rounds erases what it has processed;
a forced reset leaves the other pairs alone; the reset of one instance moves no reset time. -/
def Effect (maps : Maps) (manager manager' : InstanceSaveManager) : Request → Prop
  | .update now => Relation.ReflTransGen (Round now) manager manager' ∧
      manager'.updateOnce maps now = none
  | .forceGlobalReset _ mapId difficulty =>
    Untouched ((maps.getDownscaledMapDifficultyData mapId difficulty).map (mapId, ·)) manager manager'
  | .scheduleReset _ _ _ _ _ => manager'.resetTimeByMapDifficulty = manager.resetTimeByMapDifficulty

/-- **One request**. -/
theorem Sound.step (h : Sound maps.IsRaid manager) {request : Request}
    (hkeeps : Keeps maps request) :
    Sound maps.IsRaid (step maps manager request) ∧ Effect maps manager (step maps manager request) request := by
  cases request with
  | update now =>
    obtain ⟨hsound, hsteps, hdone⟩ := h.update now
    exact ⟨hsound, hsteps, hdone⟩
  | forceGlobalReset now mapId difficulty =>
    refine h.forceGlobalReset now fun d hd pair hraid => ?_
    obtain ⟨mapDiff, hin, hduration, rfl⟩ := hraid
    exact hkeeps d hd mapDiff hin hduration
  | scheduleReset add time mapid difficulty instanceId =>
    cases add with
    | true => exact ⟨h.add hkeeps rfl, rfl⟩
    | false => exact ⟨h.cancel hkeeps, rfl⟩

/-- **Every raid or heroic map has one pending global reset**, in every run of requests that keep it. -/
theorem pending_of_run (maps : Maps) (hours : Hours) (now : ℕ) (instances : List InstanceRow)
    (resets : List ResetRow) (requests : List Request) (hrows : RowsKeep maps instances)
    (hkeeps : ∀ request ∈ requests, Keeps maps request) :
    Pending maps (loadResetTimes maps hours now instances resets) ∧
      Run.Along (step maps) (fun manager request => Pending maps (step maps manager request) ∧
        Effect maps manager (step maps manager request) request)
          (loadResetTimes maps hours now instances resets) requests := by
  have hloaded := sound_loadResetTimes hours now resets hrows
  have halong : Run.Along (step maps) (fun _ request => Keeps maps request)
      (loadResetTimes maps hours now instances resets) requests :=
    Run.along_of_forall_mem (fun _ _ hkeep => hkeep) hkeeps
  refine ⟨hloaded.pending, halong.imp_of_invariant (Sound maps.IsRaid) ?_ ?_ hloaded⟩
  · exact fun _ _ h hkeep => (h.step hkeep).1
  · exact fun _ _ h hkeep => ⟨(h.step hkeep).1.pending, (h.step hkeep).2⟩

section Example

/-- Maps with one difficulty each, reset every seven days. -/
def raids (ids : List ℕ) (hnodup : ids.Nodup) (hlt : ∀ id ∈ ids, id < 2 ^ 16) : Maps where
  mapDifficulty := ids.map fun id => ⟨id, 0, 604800⟩
  instanceable _ := true
  subsequent _ _ t := t + 604800
  keys := by
    rw [map_map]
    exact hnodup.map fun a b h => congrArg Prod.fst h
  narrow mapDiff hin := by
    obtain ⟨id, hid, rfl⟩ := mem_map.mp hin
    exact hlt id hid
  raid _ _ _ := rfl
  later _ _ t := Nat.add_le_add_left (by decide) t

/-- Resets at the same time of each day. -/
def everyDay : Hours where
  next t := t
  same t := t
  period duration := duration

/-- One raid: it is forced while a normal instance is scheduled, and then the clock passes the next reset. -/
theorem pending_of_run_one :
    Pending (raids [533] (by decide) (by decide))
        (loadResetTimes (raids [533] (by decide) (by decide)) everyDay 1000000 [⟨7, 33, 0, 1003600⟩] []) ∧
      Run.Along (step (raids [533] (by decide) (by decide)))
        (fun manager request => Pending (raids [533] (by decide) (by decide))
            (step (raids [533] (by decide) (by decide)) manager request) ∧
          Effect (raids [533] (by decide) (by decide)) manager
            (step (raids [533] (by decide) (by decide)) manager request) request)
        (loadResetTimes (raids [533] (by decide) (by decide)) everyDay 1000000 [⟨7, 33, 0, 1003600⟩] [])
        [.forceGlobalReset 1000000 533 0, .scheduleReset false 1003600 33 0 7, .update 2000000] :=
  pending_of_run _ everyDay 1000000 _ [] _ (by unfold RowsKeep; decide) (by decide)

/-- **Of two raids one loses its events**: forcing the reset of the second cancels the event of the first. -/
theorem chain_lost :
    ¬Pending (raids [533, 631] (by decide) (by decide))
      (step (raids [533, 631] (by decide) (by decide))
        (loadResetTimes (raids [533, 631] (by decide) (by decide)) everyDay 1000000 [] [])
          (.forceGlobalReset 1000000 631 0)) := by
  intro hpending
  obtain ⟨t, type, -, -, -, hglobals⟩ := hpending (533, 0) ⟨⟨533, 0, 604800⟩, by decide, by decide, rfl⟩
  cases hglobals

end Example

end IscServer.Instances
