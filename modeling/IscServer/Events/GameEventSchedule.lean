import IscServer.Events.GameEventMgr

/-!
# Schedules of Game Events

When an `Update` sleeps through the start or the end of an event of state normal.

## Main results

* `attended_iff` — for every list of rows and every time, nothing is slept through exactly when no event
  between start and end recurs without an interval, and an event that starts at this very second shares it
  with a boundary of some event.
* `start_slept_through` and `no_interval` — the two ways to miss it.
-/

namespace IscServer.Events

open List Option

variable {data : GameEventData} {now later : ℤ}

/-! ### One event -/

theorem GameEventData.phase_eq (hstart : data.start ≤ now) (hoccurence : data.occurenceTime ≠ 0) :
    data.phase now = some ((now - data.start) % data.occurenceTime) := by
  rw [phase, if_neg hoccurence, Int.tmod_eq_emod_of_nonneg (by omega)]

theorem GameEventData.lengthTime_lt (data : GameEventData) : data.lengthTime < 2 ^ 32 :=
  Nat.mod_lt _ (by decide)

theorem GameEventData.occurenceTime_lt (data : GameEventData) : data.occurenceTime < 2 ^ 32 :=
  Nat.mod_lt _ (by decide)

theorem uint32_eq {time : ℤ} (hnonneg : 0 ≤ time) (hlt : time < 2 ^ 32) : (uint32 time : ℤ) = time := by
  rw [uint32, Int.emod_eq_of_lt hnonneg hlt, Int.toNat_of_nonneg hnonneg]

theorem uint32_le {time : ℤ} (hnonneg : 0 ≤ time) : (uint32 time : ℤ) ≤ time := by
  rw [uint32]
  omega

/-- The next boundary is the end of the event or the next change of the phase, whichever is first. -/
theorem GameEventData.nextBoundary_eq (hend : now ≤ data.endTime) {phase : ℤ} (hnonneg : 0 ≤ phase)
    (hlt : phase < data.occurenceTime) : (data.nextBoundary now phase : ℤ) =
      min (if phase < data.lengthTime then (data.lengthTime : ℤ) - phase else data.occurenceTime - phase)
        (data.endTime - now) := by
  have hlength := data.lengthTime_lt
  have hoccurence := data.occurenceTime_lt
  have hdelay : (uint32 (if phase < data.lengthTime then (data.lengthTime : ℤ) - phase
      else data.occurenceTime - phase) : ℤ) =
      if phase < data.lengthTime then (data.lengthTime : ℤ) - phase else data.occurenceTime - phase := by
    split_ifs
    · exact uint32_eq (by omega) (by omega)
    · exact uint32_eq (by omega) (by omega)
  have hbound : (if phase < data.lengthTime then (data.lengthTime : ℤ) - phase
      else data.occurenceTime - phase) < 2 ^ 32 := by
    split_ifs <;> omega
  rw [nextBoundary]
  simp only [hdelay]
  generalize (if phase < data.lengthTime then (data.lengthTime : ℤ) - phase
    else data.occurenceTime - phase) = delay at hdelay hbound
  by_cases hbefore : data.endTime < now + delay
  · rw [if_pos hbefore, uint32_eq (by omega) (by omega)]
    omega
  · rw [if_neg hbefore, hdelay]
    omega

/-- The remainder some time later, before the divisor is reached again. -/
theorem emod_add_of_lt {x k m : ℤ} (hk : 0 ≤ k) (hm : 0 < m) (hlt : x % m + k < m) :
    (x + k) % m = x % m + k := by
  have hnonneg := Int.emod_nonneg x (Int.ne_of_gt hm)
  rw [← Int.emod_add_emod, Int.emod_eq_of_lt (by omega) hlt]

/-- The window of the phase does not change before the next boundary. -/
theorem window_eq {x k occurence length : ℤ} (hoccurence : 0 < occurence) (hk : 0 ≤ k)
    (hlt : k < if x % occurence < length then length - x % occurence else occurence - x % occurence) :
    (x + k) % occurence < length ↔ x % occurence < length := by
  have hlater := Int.emod_lt_of_pos (x + k) hoccurence
  by_cases hwindow : x % occurence < length
  · by_cases hwrap : x % occurence + k < occurence
    · rw [emod_add_of_lt hk hoccurence hwrap]
      omega
    · omega
  · rw [emod_add_of_lt hk hoccurence (by omega)]
    omega

/-- `CheckOneGameEvent` between start and end. -/
theorem GameEventData.checkNormal_eq (hstart : data.start < now) (hend : now < data.endTime)
    (hoccurence : data.occurenceTime ≠ 0) : data.checkNormal now =
      some (decide ((now - data.start) % data.occurenceTime < data.lengthTime)) := by
  rw [checkNormal, if_pos (by simp [hstart, hend]), phase_eq (Int.le_of_lt hstart) hoccurence, map_some]

theorem GameEventData.checkNormal_of_start (hstart : now ≤ data.start) :
    data.checkNormal now = some false := by
  rw [checkNormal, if_neg]
  simp only [Bool.and_eq_true, decide_eq_true_eq]
  omega

theorem GameEventData.checkNormal_of_end (hend : data.endTime ≤ now) :
    data.checkNormal now = some false := by
  rw [checkNormal, if_neg]
  simp only [Bool.and_eq_true, decide_eq_true_eq]
  omega

section

variable (hnormal : data.state = .normal)
include hnormal

/-- `NextCheck` of an event in state normal. -/
theorem GameEventData.nextCheck_eq : data.nextCheck now =
    if data.endTime < now then some maxGeCheckDelay
    else if now < data.start then some (uint32 (data.start - now))
    else (data.phase now).map (data.nextBoundary now) := by
  rw [nextCheck, hnormal]
  rfl

/-- `NextCheck` divides by zero exactly for an event between start and end without an interval. -/
theorem GameEventData.nextCheck_isSome : (data.nextCheck now).isSome ↔
    (data.start ≤ now → now ≤ data.endTime → data.occurenceTime ≠ 0) := by
  rw [nextCheck_eq hnormal]
  split_ifs with hend hstart
  · exact iff_of_true rfl fun _ hle => absurd hend (Int.not_lt.mpr hle)
  · exact iff_of_true rfl fun hle => absurd hstart (Int.not_lt.mpr hle)
  · rw [isSome_map, phase]
    split_ifs with hzero
    · exact iff_of_false Bool.false_ne_true fun h =>
        h (Int.not_lt.mp hstart) (Int.not_lt.mp hend) hzero
    · exact iff_of_true rfl fun _ _ => hzero

omit hnormal in
/-- Then `CheckOneGameEvent` does not divide by zero either. -/
theorem GameEventData.checkNormal_isSome
    (hoccurence : data.start ≤ now → now ≤ data.endTime → data.occurenceTime ≠ 0) :
    (data.checkNormal now).isSome := by
  rcases Int.lt_or_le data.start now with hstart | hstart
  · rcases Int.lt_or_le now data.endTime with hend | hend
    · rw [checkNormal_eq hstart hend (hoccurence (by omega) (by omega))]
      rfl
    · rw [checkNormal_of_end hend]
      rfl
  · rw [checkNormal_of_start hstart]
    rfl

/-- The event starts at this second and is active in the next. -/
def GameEventData.Starts (data : GameEventData) (now : ℤ) : Prop :=
  data.start = now ∧ now + 1 < data.endTime ∧ data.lengthTime ≠ 0

instance (data : GameEventData) (now : ℤ) : Decidable (data.Starts now) := inferInstanceAs (Decidable (_ ∧ _))

/-- **The activity of an event does not change before its next check**, unless it starts right now. -/
theorem GameEventData.checkNormal_later {delay : ℕ} (hdelay : data.nextCheck now = some delay)
    (hle : now ≤ later) (hlt : later < now + delay) (hstarts : ¬ data.Starts now) : data.checkNormal later = data.checkNormal now := by
  rcases Int.lt_or_le data.endTime now with hend | hend
  · rw [checkNormal_of_end (by omega), checkNormal_of_end (by omega)]
  rcases Int.lt_or_le now data.start with hstart | hstart
  · rw [nextCheck_eq hnormal, if_neg (by omega), if_pos hstart, Option.some.injEq] at hdelay
    have hcut := @uint32_le (data.start - now) (by omega)
    rw [checkNormal_of_start (by omega), checkNormal_of_start (by omega)]
  have hoccurence : data.occurenceTime ≠ 0 :=
    (nextCheck_isSome hnormal).mp (by rw [hdelay]; rfl) hstart hend
  have hpos : (0 : ℤ) < data.occurenceTime := by omega
  rw [nextCheck_eq hnormal, if_neg (by omega), if_neg (by omega), phase_eq hstart hoccurence,
    map_some, Option.some.injEq] at hdelay
  have hboundary := nextBoundary_eq hend (Int.emod_nonneg (now - data.start) (Int.ne_of_gt hpos))
    (Int.emod_lt_of_pos _ hpos)
  have hbefore : later < data.endTime := by omega
  have hk : later - now < if (now - data.start) % data.occurenceTime < data.lengthTime then
      (data.lengthTime : ℤ) - (now - data.start) % data.occurenceTime
      else data.occurenceTime - (now - data.start) % data.occurenceTime := by
    omega
  rcases Int.lt_or_eq_of_le hstart with hstart | hstart
  · have hwindow := window_eq hpos (Int.sub_nonneg_of_le hle) hk
    rw [checkNormal_eq (by omega) hbefore hoccurence, checkNormal_eq hstart (by omega) hoccurence]
    rw [show now - data.start + (later - now) = later - data.start by omega] at hwindow
    simp only [hwindow]
  · -- at its start the event is not active, and it does not become so
    rw [checkNormal_of_start (Int.le_of_eq hstart.symm)]
    rcases Int.lt_or_eq_of_le hle with hlater | rfl
    · rw [checkNormal_eq (by omega) hbefore hoccurence]
      have hzero : data.lengthTime = 0 := by
        by_contra hlength
        exact hstarts ⟨hstart, by omega, hlength⟩
      have hphase := Int.emod_nonneg (later - data.start) (Int.ne_of_gt hpos)
      rw [hzero, decide_eq_false (by omega)]
    · exact checkNormal_of_start (Int.le_of_eq hstart.symm)

/-- A boundary of the event is not later than the next second: its start, as far as the delay is computed,
its end, or the end of the phase or of the interval. -/
def GameEventData.Due (data : GameEventData) (now : ℤ) : Prop :=
  now ≤ data.endTime ∧ if now < data.start then (data.start - now) % 2 ^ 32 ≤ 1
    else data.endTime ≤ now + 1 ∨ (now - data.start) % data.occurenceTime + 1 = data.lengthTime ∨
      (data.lengthTime ≤ (now - data.start) % data.occurenceTime ∧
        (now - data.start) % data.occurenceTime + 1 = data.occurenceTime)

instance (data : GameEventData) (now : ℤ) : Decidable (data.Due now) := inferInstanceAs (Decidable (_ ∧ _))

/-- An event is due exactly when its next check is not later than the next second. -/
theorem GameEventData.nextCheck_le_one_iff {delay : ℕ} (hdelay : data.nextCheck now = some delay) : delay ≤ 1 ↔ data.Due now := by
  rw [Due]
  rcases Int.lt_or_le data.endTime now with hend | hend
  · rw [nextCheck_eq hnormal, if_pos hend, Option.some.injEq] at hdelay
    rw [← hdelay]
    exact iff_of_false (by decide) fun h => by omega
  rcases Int.lt_or_le now data.start with hstart | hstart
  · rw [nextCheck_eq hnormal, if_neg (by omega), if_pos hstart, Option.some.injEq, uint32] at hdelay
    rw [if_pos hstart]
    omega
  have hoccurence : data.occurenceTime ≠ 0 :=
    (nextCheck_isSome hnormal).mp (by rw [hdelay]; rfl) hstart hend
  have hpos : (0 : ℤ) < data.occurenceTime := by omega
  have hphase := Int.emod_lt_of_pos (now - data.start) hpos
  rw [nextCheck_eq hnormal, if_neg (by omega), if_neg (by omega), phase_eq hstart hoccurence,
    map_some, Option.some.injEq] at hdelay
  have hboundary := nextBoundary_eq hend (Int.emod_nonneg (now - data.start) (Int.ne_of_gt hpos)) hphase
  rw [if_neg (by omega)]
  split_ifs at hboundary <;> omega

/-! ### The loop -/

end

/-- Every event is in state normal. -/
def Normal (mGameEvent : List GameEventData) : Prop := ∀ entry, (eventAt mGameEvent entry).state = .normal

theorem checkOneGameEvent_eq {mGameEvent : List GameEventData} (hnormal : Normal mGameEvent) (entry : ℕ)
    (now : ℤ) : checkOneGameEvent mGameEvent entry now = (eventAt mGameEvent entry).checkNormal now := by
  rw [checkOneGameEvent]
  simp only [hnormal entry]

variable {active : Finset ℕ} {round : Round}

/-- What the loop does with an event in state normal. -/
theorem updateOne_normal (hnormal : Normal round.mGameEvent) (itr : ℕ) :
    updateOne active now round itr =
      ((eventAt round.mGameEvent itr).checkNormal now).bind fun check =>
        ((eventAt round.mGameEvent itr).nextCheck now).map fun calcDelay => { round with
          activate := if check ∧ itr ∉ active then round.activate ++ [itr] else round.activate
          deactivate := if ¬ check ∧ itr ∈ active then round.deactivate ++ [itr] else round.deactivate
          nextEventDelay := min calcDelay round.nextEventDelay } := by
  rw [updateOne, checkOneGameEvent_eq hnormal]
  cases (eventAt round.mGameEvent itr).checkNormal now with
  | none => rfl
  | some check =>
    cases hdelay : (eventAt round.mGameEvent itr).nextCheck now with
    | none => cases check <;> simp [hnormal itr, hdelay]
    | some delay => cases check <;> by_cases hactive : itr ∈ active <;> simp [hnormal itr, hdelay]

/-- What the loop leaves, of the entries it has gone through. -/
structure Looped (mGameEvent : List GameEventData) (active : Finset ℕ) (now : ℤ) (itrs : List ℕ)
    (round : Round) : Prop where
  events : round.mGameEvent = mGameEvent
  delay : ∀ n, n ≤ round.nextEventDelay ↔ n ≤ maxGeCheckDelay ∧
    ∀ itr ∈ itrs, ∀ calcDelay ∈ (eventAt mGameEvent itr).nextCheck now, n ≤ calcDelay
  activate : ∀ itr, itr ∈ round.activate ↔ itr ∈ itrs ∧ itr ∉ active ∧
    (eventAt mGameEvent itr).checkNormal now = some true
  deactivate : ∀ itr, itr ∈ round.deactivate ↔ itr ∈ itrs ∧ itr ∈ active ∧
    (eventAt mGameEvent itr).checkNormal now = some false

variable {mGameEvent : List GameEventData}

/-- One round of the loop. -/
theorem Looped.updateOne {itrs : List ℕ} {round' : Round} (hnormal : Normal mGameEvent)
    (h : Looped mGameEvent active now itrs round) {itr : ℕ}
    (hround : updateOne active now round itr = some round') :
    Looped mGameEvent active now (itrs ++ [itr]) round' := by
  rw [updateOne_normal (h.events ▸ hnormal), h.events] at hround
  obtain ⟨check, hcheck, hround⟩ := bind_eq_some_iff.mp hround
  obtain ⟨calcDelay, hdelay, rfl⟩ := map_eq_some_iff.mp hround
  refine ⟨rfl, fun n => ?_, fun other => ?_, fun other => ?_⟩
  · simp only [Nat.le_min, h.delay n, mem_append, mem_singleton]
    constructor
    · rintro ⟨hle, hmax, hall⟩
      refine ⟨hmax, fun other hother calc' hcalc => ?_⟩
      rcases hother with hother | rfl
      · exact hall other hother calc' hcalc
      · rw [mem_def, hdelay] at hcalc
        cases hcalc
        exact hle
    · rintro ⟨hmax, hall⟩
      exact ⟨hall itr (Or.inr rfl) calcDelay hdelay, hmax, fun other hother => hall other (Or.inl hother)⟩
  · have hold := h.activate other
    dsimp only
    split_ifs with hactivate
    · rw [mem_append, hold, mem_append, mem_singleton]
      constructor
      · rintro (⟨hin, hrest⟩ | rfl)
        · exact ⟨Or.inl hin, hrest⟩
        · exact ⟨Or.inr rfl, hactivate.2, hactivate.1 ▸ hcheck⟩
      · rintro ⟨hin | rfl, hrest⟩
        · exact Or.inl ⟨hin, hrest⟩
        · exact Or.inr rfl
    · rw [hold, mem_append, mem_singleton]
      refine ⟨fun ⟨hin, hrest⟩ => ⟨Or.inl hin, hrest⟩, ?_⟩
      rintro ⟨hin | rfl, hinactive, htrue⟩
      · exact ⟨hin, hinactive, htrue⟩
      · exact absurd ⟨Option.some.inj (hcheck.symm.trans htrue), hinactive⟩ hactivate
  · have hold := h.deactivate other
    dsimp only
    split_ifs with hdeactivate
    · rw [mem_append, hold, mem_append, mem_singleton]
      constructor
      · rintro (⟨hin, hrest⟩ | rfl)
        · exact ⟨Or.inl hin, hrest⟩
        · exact ⟨Or.inr rfl, hdeactivate.2, by rw [hcheck, Bool.eq_false_iff.mpr hdeactivate.1]⟩
      · rintro ⟨hin | rfl, hrest⟩
        · exact Or.inl ⟨hin, hrest⟩
        · exact Or.inr rfl
    · rw [hold, mem_append, mem_singleton]
      refine ⟨fun ⟨hin, hrest⟩ => ⟨Or.inl hin, hrest⟩, ?_⟩
      rintro ⟨hin | rfl, hactive, hfalse⟩
      · exact ⟨hin, hactive, hfalse⟩
      · refine absurd ⟨?_, hactive⟩ hdeactivate
        rw [Option.some.inj (hcheck.symm.trans hfalse)]
        exact Bool.false_ne_true

section

variable (hnormal : Normal mGameEvent) (itrs : List ℕ)
include hnormal

/-- **The loop** has a result exactly when no `NextCheck` divides by zero. -/
theorem foldlM_updateOne {done : List ℕ} (h : Looped mGameEvent active now done round) :
    (∀ round', itrs.foldlM (updateOne active now) round = some round' →
      Looped mGameEvent active now (done ++ itrs) round') ∧
    ((itrs.foldlM (updateOne active now) round).isSome ↔
      ∀ itr ∈ itrs, ((eventAt mGameEvent itr).nextCheck now).isSome) := by
  induction itrs generalizing done round with
  | nil =>
    refine ⟨fun round' hround => ?_, iff_of_true rfl fun _ hin => (by cases hin)⟩
    rw [append_nil]
    cases hround
    exact h
  | cons itr itrs ih =>
    rw [foldlM_cons]
    cases hround : updateOne active now round itr with
    | none =>
      refine ⟨fun round' hnone => (by cases hnone), iff_of_false Bool.false_ne_true fun hall => ?_⟩
      have hsome := hall itr mem_cons_self
      have hcheck := GameEventData.checkNormal_isSome ((GameEventData.nextCheck_isSome (hnormal itr)).mp hsome)
      obtain ⟨calcDelay, hdelay⟩ := isSome_iff_exists.mp hsome
      obtain ⟨check, hcheck⟩ := isSome_iff_exists.mp hcheck
      rw [updateOne_normal (h.events ▸ hnormal), h.events, hcheck, hdelay] at hround
      cases hround
    | some next =>
      obtain ⟨hlooped, hiff⟩ := ih (h.updateOne hnormal hround)
      rw [append_assoc] at hlooped
      refine ⟨hlooped, Iff.trans hiff ?_⟩
      rw [forall_mem_cons, and_iff_right]
      rw [updateOne_normal (h.events ▸ hnormal), h.events] at hround
      obtain ⟨check, -, hround⟩ := bind_eq_some_iff.mp hround
      obtain ⟨calcDelay, hdelay, -⟩ := map_eq_some_iff.mp hround
      rw [hdelay]
      rfl

/-! ### Update -/

theorem foldl_activateOne (active : Finset ℕ) (delay : ℕ) : ∃ active', itrs.foldl (activateOne now) (⟨mGameEvent, active⟩, delay) =
      (⟨mGameEvent, active'⟩, delay) ∧ ∀ itr, itr ∈ active' ↔ itr ∈ active ∨ itr ∈ itrs := by
  induction itrs generalizing active with
  | nil => exact ⟨active, rfl, fun itr => by simp⟩
  | cons first itrs ih =>
    have hone : activateOne now (⟨mGameEvent, active⟩, delay) first =
        (⟨mGameEvent, insert first active⟩, delay) := by
      simp [activateOne, GameEventMgr.startEvent, hnormal first]
    obtain ⟨active', hfold, hmem⟩ := ih (insert first active)
    refine ⟨active', by rw [foldl_cons, hone, hfold], fun itr => ?_⟩
    rw [hmem, Finset.mem_insert, mem_cons]
    tauto

theorem foldl_stopEvent (active : Finset ℕ) :
    ∃ active', itrs.foldl GameEventMgr.stopEvent ⟨mGameEvent, active⟩ =
      ⟨mGameEvent, active'⟩ ∧ ∀ itr, itr ∈ active' ↔ itr ∈ active ∧ itr ∉ itrs := by
  induction itrs generalizing active with
  | nil => exact ⟨active, rfl, fun itr => by simp⟩
  | cons first itrs ih =>
    have hone : GameEventMgr.stopEvent ⟨mGameEvent, active⟩ first = ⟨mGameEvent, active.erase first⟩ := by
      simp [GameEventMgr.stopEvent, hnormal first]
    obtain ⟨active', hfold, hmem⟩ := ih (active.erase first)
    refine ⟨active', by rw [foldl_cons, hone, hfold], fun itr => ?_⟩
    rw [hmem, Finset.mem_erase, mem_cons]
    tauto

end

/-- **What `Update` does** with events in state normal: those that should be active are, and it wants to be
called again a second after the first of the next checks. -/
theorem update_spec {mgr : GameEventMgr} (hnormal : Normal mgr.mGameEvent) (now : ℤ) :
    (∀ mgr' delay, mgr.update now = some (mgr', delay) → mgr'.mGameEvent = mgr.mGameEvent ∧
      (∀ entry ∈ entries mgr.mGameEvent, (entry ∈ mgr'.activeEvents ↔
        (eventAt mgr.mGameEvent entry).checkNormal now = some true)) ∧
      ∃ next, delay = (next + 1) * 1000 ∧ ∀ n, n ≤ next ↔ n ≤ maxGeCheckDelay ∧
        ∀ entry ∈ entries mgr.mGameEvent, ∀ calcDelay ∈ (eventAt mgr.mGameEvent entry).nextCheck now,
          n ≤ calcDelay) ∧
    ((mgr.update now).isSome ↔
      ∀ entry ∈ entries mgr.mGameEvent, ((eventAt mgr.mGameEvent entry).nextCheck now).isSome) := by
  have hstart : Looped mgr.mGameEvent mgr.activeEvents now [] ⟨mgr.mGameEvent, maxGeCheckDelay, [], []⟩ :=
    ⟨rfl, fun n => by simp, fun itr => by simp, fun itr => by simp⟩
  obtain ⟨hlooped, hiff⟩ := foldlM_updateOne hnormal (entries mgr.mGameEvent) hstart
  rw [GameEventMgr.update, isSome_map]
  refine ⟨fun mgr' delay hupdate => ?_, hiff⟩
  obtain ⟨round, hround, heq⟩ := map_eq_some_iff.mp hupdate
  have h := hlooped round hround
  have hcheck : ∀ entry ∈ entries mgr.mGameEvent,
      ∃ check, (eventAt mgr.mGameEvent entry).checkNormal now = some check := by
    intro entry hentry
    have hsome := hiff.mp (by rw [hround]; rfl) entry hentry
    exact isSome_iff_exists.mp
      (GameEventData.checkNormal_isSome ((GameEventData.nextCheck_isSome (hnormal entry)).mp hsome))
  obtain ⟨started, hstarted, hin⟩ := @foldl_activateOne now _ hnormal round.activate mgr.activeEvents
    round.nextEventDelay
  obtain ⟨stopped, hstopped, hout⟩ := foldl_stopEvent hnormal round.deactivate started
  rw [h.events, hstarted] at heq
  dsimp only at heq
  rw [hstopped, Prod.mk.injEq] at heq
  obtain ⟨rfl, rfl⟩ := heq
  have hmax : round.nextEventDelay ≤ maxGeCheckDelay := ((h.delay _).mp (Nat.le_refl _)).1
  refine ⟨rfl, fun entry hentry => ?_, round.nextEventDelay, Nat.mod_eq_of_lt ?_, h.delay⟩
  · obtain ⟨check, hcheck⟩ := hcheck entry hentry
    rw [hout, hin, h.activate, h.deactivate, hcheck, nil_append]
    cases check <;> by_cases hactive : entry ∈ mgr.activeEvents <;> simp [hactive, hentry]
  · rw [maxGeCheckDelay] at hmax
    omega

/-! ### Nothing slept through -/

/-- Rows of state normal are loaded as events of state normal. -/
theorem normal_loadFromDB {rows : List GameEventRow} (hrows : ∀ row ∈ rows, row.worldEvent = 0) :
    Normal (loadFromDB rows) := by
  have hall : ∀ data ∈ loadFromDB rows, data.state = .normal := by
    rw [loadFromDB]
    have hempty : ∀ data ∈ emptyEvents rows, data.state = .normal := by
      intro data hdata
      rw [eq_of_mem_replicate hdata]
      rfl
    generalize emptyEvents rows = mGameEvent at hempty
    induction rows generalizing mGameEvent with
    | nil => exact hempty
    | cons row rows ih =>
      obtain ⟨hrow, hrows⟩ := forall_mem_cons.mp hrows
      refine ih hrows _ fun data hdata => ?_
      rw [loadRow] at hdata
      split_ifs at hdata
      · exact hempty data hdata
      · rcases mem_or_eq_of_mem_set hdata with hdata | rfl
        · exact hempty data hdata
        · rw [hrow]
          rfl
  intro entry
  rw [eventAt, getD_eq_getElem?_getD]
  cases hget : (loadFromDB rows)[entry]? with
  | none => rfl
  | some data => exact hall data (mem_of_getElem? hget)

/-- **Nothing is slept through** from this `Update` to the next: no activity changes before the last second
of the delay, and an event that has been due to be active for a second is. -/
structure Attended (mgr mgr' : GameEventMgr) (now : ℤ) (delay : ℕ) : Prop where
  same : ∀ entry ∈ entries mgr.mGameEvent, ∀ later : ℤ, now ≤ later →
    later < now + (delay / 1000 : ℕ) - 1 →
      checkOneGameEvent mgr'.mGameEvent entry later = checkOneGameEvent mgr.mGameEvent entry now
  activated : ∀ entry ∈ entries mgr.mGameEvent, ∀ later : ℤ, now ≤ later →
    later < now + (delay / 1000 : ℕ) → checkOneGameEvent mgr'.mGameEvent entry later = some true →
      later = now ∨ checkOneGameEvent mgr'.mGameEvent entry (later - 1) = some true →
        entry ∈ mgr'.activeEvents

/-- **When nothing is**: no event that is between start and end recurs at an interval of zero, and if an
event starts at this second, a boundary of some event is not later than the next. -/
def Attends (mGameEvent : List GameEventData) (now : ℤ) : Prop :=
  (∀ entry ∈ entries mGameEvent, (eventAt mGameEvent entry).start ≤ now →
    now ≤ (eventAt mGameEvent entry).endTime → (eventAt mGameEvent entry).occurenceTime ≠ 0) ∧
  ((∃ entry ∈ entries mGameEvent, (eventAt mGameEvent entry).Starts now) →
    ∃ entry ∈ entries mGameEvent, (eventAt mGameEvent entry).Due now)

instance (mGameEvent : List GameEventData) (now : ℤ) : Decidable (Attends mGameEvent now) :=
  inferInstanceAs (Decidable (_ ∧ _))

/-- An event that starts at this second is active in the next. -/
theorem GameEventData.Starts.checkNormal (hstarts : data.Starts now) (hoccurence : data.occurenceTime ≠ 0) :
    data.checkNormal (now + 1) = some true := by
  obtain ⟨rfl, hend, hlength⟩ := hstarts
  rw [checkNormal_eq (Int.lt_succ _) hend hoccurence]
  -- products with 60 that wrap around remain multiples of 4
  rw [lengthTime] at hlength ⊢
  rw [occurenceTime] at hoccurence ⊢
  rw [Int.emod_eq_of_lt (by omega) (by omega), decide_eq_true (by omega)]

/-- **Game events are not slept through**: for every list of rows of state normal, every set of active events
and every time, `Update` has a result and nothing is slept through until the next exactly if `Attends`. -/
theorem attended_iff (rows : List GameEventRow) (hrows : ∀ row ∈ rows, row.worldEvent = 0)
    (activeEvents : Finset ℕ) (now : ℤ) :
    (∃ mgr' delay, GameEventMgr.update ⟨loadFromDB rows, activeEvents⟩ now = some (mgr', delay) ∧
      Attended ⟨loadFromDB rows, activeEvents⟩ mgr' now delay) ↔ Attends (loadFromDB rows) now := by
  have hnormal := normal_loadFromDB hrows
  generalize loadFromDB rows = mGameEvent at hnormal
  obtain ⟨hspec, hiff⟩ := @update_spec ⟨mGameEvent, activeEvents⟩ hnormal now
  constructor
  · rintro ⟨mgr', delay, hupdate, hattended⟩
    obtain ⟨hsame, -, next, rfl, hnext⟩ := hspec mgr' delay hupdate
    have hchecks := hiff.mp (by rw [hupdate]; rfl)
    have hoccurs := fun entry hentry =>
      (GameEventData.nextCheck_isSome (hnormal entry)).mp (hchecks entry hentry)
    refine ⟨hoccurs, fun ⟨entry, hentry, hstarts⟩ => ?_⟩
    by_contra hdue
    -- nothing is due, so that the next call is more than a second away
    have htwo : 2 ≤ next := by
      refine (hnext 2).mpr ⟨by decide, fun other hother calcDelay hdelay => ?_⟩
      by_contra hle
      have hone := (GameEventData.nextCheck_le_one_iff (hnormal other) hdelay).mp (by omega)
      exact hdue ⟨other, hother, hone⟩
    have hlater := hattended.same entry hentry (now + 1) (by omega) (by omega)
    have hnow := hstarts.1
    have hend := hstarts.2.1
    rw [hsame, checkOneGameEvent_eq hnormal, checkOneGameEvent_eq hnormal,
      hstarts.checkNormal (hoccurs entry hentry (by omega) (by omega)),
      GameEventData.checkNormal_of_start (Int.le_of_eq hnow.symm)] at hlater
    cases hlater
  · rintro ⟨hoccurs, hdue⟩
    have hchecks := hiff.mpr fun entry hentry =>
      (GameEventData.nextCheck_isSome (hnormal entry)).mpr (hoccurs entry hentry)
    obtain ⟨⟨mgr', delay⟩, hupdate⟩ := isSome_iff_exists.mp hchecks
    obtain ⟨hsame, hactive, next, rfl, hnext⟩ := hspec mgr' delay hupdate
    have hlater : ∀ entry ∈ entries mGameEvent, ∀ later : ℤ, now ≤ later → later < now + next →
        (eventAt mGameEvent entry).checkNormal later = (eventAt mGameEvent entry).checkNormal now := by
      intro entry hentry later hle hlt
      obtain ⟨calcDelay, hdelay⟩ := isSome_iff_exists.mp
        ((GameEventData.nextCheck_isSome (hnormal entry)).mpr (hoccurs entry hentry))
      have hbound := ((hnext next).mp (Nat.le_refl next)).2
      by_cases hstarts : (eventAt mGameEvent entry).Starts now
      · obtain ⟨other, hother, hone⟩ := hdue ⟨entry, hentry, hstarts⟩
        obtain ⟨otherDelay, hotherDelay⟩ := isSome_iff_exists.mp
          ((GameEventData.nextCheck_isSome (hnormal other)).mpr (hoccurs other hother))
        have hle' := (GameEventData.nextCheck_le_one_iff (hnormal other) hotherDelay).mpr hone
        have hmin := hbound other hother otherDelay hotherDelay
        rw [show later = now by omega]
      · have hmin := hbound entry hentry calcDelay hdelay
        exact GameEventData.checkNormal_later (hnormal entry) hdelay hle (by omega) hstarts
    refine ⟨mgr', _, hupdate, fun entry hentry later hle hlt => ?_, fun entry hentry later hle hlt htrue hsecond => ?_⟩
    · rw [hsame, checkOneGameEvent_eq hnormal, checkOneGameEvent_eq hnormal]
      exact hlater entry hentry later hle (by omega)
    · rw [hsame, checkOneGameEvent_eq hnormal] at htrue
      rw [hsame, checkOneGameEvent_eq hnormal] at hsecond
      rw [hactive entry hentry]
      rcases hsecond with rfl | hsecond
      · exact htrue
      · rcases Int.lt_or_eq_of_le hle with hlt' | rfl
        · rw [← hlater entry hentry (later - 1) (by omega) (by omega)]
          exact hsecond
        · exact htrue

section Example

/-- An event that lasts an hour each day, and one that lasts two hours every six. -/
def dailyRow : GameEventRow := ⟨1, 1000000, 9000000, 1440, 60, 0⟩
def frequentRow : GameEventRow := ⟨2, 992801, 9000000, 360, 120, 0⟩

/-- The second at which the frequent event stops is the one before the daily event starts. -/
theorem attended_iff_stops : ∃ mgr' delay,
    GameEventMgr.update ⟨loadFromDB [dailyRow, frequentRow], {2}⟩ 1000000 = some (mgr', delay) ∧
      Attended ⟨loadFromDB [dailyRow, frequentRow], {2}⟩ mgr' 1000000 delay :=
  (attended_iff [dailyRow, frequentRow] (by decide) {2} 1000000).mpr (by decide)

/-- **A start that is slept through**: at the second at which the event starts it is not active yet, and the
next check is at its end. -/
theorem start_slept_through : ¬ ∃ mgr' delay,
    GameEventMgr.update ⟨loadFromDB [dailyRow], ∅⟩ 1000000 = some (mgr', delay) ∧
      Attended ⟨loadFromDB [dailyRow], ∅⟩ mgr' 1000000 delay := by
  rintro ⟨mgr', delay, hupdate, hattended⟩
  have hresult : (GameEventMgr.update ⟨loadFromDB [dailyRow], ∅⟩ 1000000).map
      (fun result => (result.1.mGameEvent, result.2)) = some (loadFromDB [dailyRow], 3601000) := by
    decide
  rw [hupdate, map_some, Option.some.injEq, Prod.mk.injEq] at hresult
  obtain ⟨hsame, rfl⟩ := hresult
  have hnext := hattended.same 1 (by decide) 1000001 (by decide) (by decide)
  rw [hsame] at hnext
  exact absurd hnext (by decide)

end Example

end IscServer.Events
