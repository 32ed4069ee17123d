import IscServer.Movement.MotionRuns

/-!
# The motion master of a unit in the world

A motion master starts outside the world, where its operations are queued. `AddToWorld` puts the selected
generator into the default slot and carries out the queue. From then on every operation finds nothing
queued and the default slot filled, whatever the callbacks of an update have called, and the invariant of
the slots holds between operations.

What the slots do not promise: the static idle generator of the default slot is one object for all units,
which is neither pending nor deactivated when another generator takes its place, and which is finalised
each time it leaves. A callback that calls `Update` itself carries out the queue while the outer update
is running.

## Main results

* `MotionMaster.kept_between_operations` — the slots, the base states and the finalised generators after
  every run.
-/

namespace IscServer.Movement

open List Option

/-! ### Before the world -/

/-- A motion master that has not been added to the world: its slots are empty. -/
structure Waiting (s : MotionMaster) : Prop where
  generators : s.generators = []
  defaultGenerator : s.defaultGenerator = none
  update : s.update = false
  initializationPending : s.initializationPending = true
  initializing : s.initializing = false

section Waiting

variable {s s' : MotionMaster} {future : List MovementGenerator} {m : MovementGenerator}

theorem Waiting.new : Waiting MotionMaster.new := ⟨rfl, rfl, rfl, rfl, rfl⟩

/-- An operation outside the world is queued or refused. -/
theorem Waiting.act (h : Waiting s) (a : Action) : Waiting (s.act a) := by
  have hdelayed : s.delayed = true := by
    rw [MotionMaster.delayed, h.initializationPending, Bool.or_true]
  have hqueue (t : MotionMaster) (queue : List Action) (ht : Waiting t) :
      Waiting { t with delayedActions := queue } :=
    ⟨ht.generators, ht.defaultGenerator, ht.update, ht.initializationPending, ht.initializing⟩
  have hcall (c : Call) (m : MovementGenerator) : Waiting (s.call c m) :=
    ⟨h.generators, h.defaultGenerator, h.update, h.initializationPending, h.initializing⟩
  cases a with
  | add m slot initialized =>
    simp only [MotionMaster.act, MotionMaster.add, MotionMaster.addOrDelay,
      MotionMaster.call_delayed, hdelayed]
    split_ifs
    · exact hqueue _ _ (hcall .init m)
    · exact hcall .init m
    · exact h
    · exact hqueue s _ h
  | init m initialized =>
    simp only [MotionMaster.act, h.initializationPending]
    exact h
  | remove type slot =>
    by_cases htype : type = .maxDb
    · subst htype
      exact h
    · rw [MotionMaster.act_remove htype, if_pos hdelayed]
      exact hqueue s _ h
  | _ =>
    simp only [MotionMaster.act, hdelayed]
    exact hqueue s _ h

/-- One operation outside the world; an update does nothing. -/
theorem Waiting.exec {op : Op} (h : Waiting s) (hsound : Sound s (generatorsOf op ++ future))
    (hexec : exec op s = some s') : Waiting s' ∧ Sound s' future := by
  cases op with
  | act a =>
    rw [Movement.exec, some_inj] at hexec
    exact hexec ▸ ⟨h.act a, hsound.act a⟩
  | interruptOnTeleport =>
    have hcurrent : s.current = none := by
      rw [MotionMaster.current, h.generators, h.defaultGenerator]
      rfl
    rw [Movement.exec, MotionMaster.interruptOnTeleport, hcurrent, some_inj] at hexec
    exact hexec ▸ ⟨h, hsound⟩
  | update =>
    have hskip : (s.initializationPending || s.initializing) = true := by
      rw [h.initializationPending, Bool.true_or]
    rw [Movement.exec, MotionMaster.updateWith, if_pos hskip, some_inj] at hexec
    exact hexec ▸ ⟨h, hsound.drop (sublist_append_right _ _)⟩

/-- The operations outside the world. -/
theorem Waiting.execAll {ops : List Op} (h : Waiting s)
    (hsound : Sound s (generatorsOfAll ops ++ future)) (hexec : execAll ops s = some s') :
    Waiting s' ∧ Sound s' future := by
  induction ops generalizing s with
  | nil =>
    rw [Movement.execAll, some_inj] at hexec
    exact hexec ▸ ⟨h, hsound⟩
  | cons op ops ih =>
    obtain ⟨t, ht, hexec⟩ := bind_eq_some_iff.mp hexec
    rw [generatorsOfAll, append_assoc] at hsound
    obtain ⟨hwaiting, hsound'⟩ := h.exec hsound ht
    exact ih hwaiting hsound' hexec

/-- The selected generator takes the default slot. -/
theorem directInitialize_defaultGenerator {initialized : Bool} (hgenerators : s.generators = [])
    (hdefault : s.defaultGenerator = none) (hdelayed : s.delayed = false)
    (himmediate : m.immediate = false) :
    (s.directInitialize m initialized).defaultGenerator = some m := by
  have hclear : s.directClearDefault = s := by
    rw [MotionMaster.directClearDefault, hdefault]
  have hclear' : s.directClear = s.clearBaseUnitStates := by
    rw [MotionMaster.directClear, hgenerators]
  have hdelayed' : s.clearBaseUnitStates.delayed = false := hdelayed
  rw [MotionMaster.directInitialize, hclear, hclear', MotionMaster.add, himmediate, Bool.false_and,
    if_neg Bool.false_ne_true, MotionMaster.addOrDelay, hdelayed', if_neg Bool.false_ne_true]
  rfl

/-- **`AddToWorld`**: the default slot is filled and the queue is carried out. -/
theorem Waiting.addToWorld {initialized : Bool} (h : Waiting s) (hsound : Sound s (m :: future))
    (himmediate : m.immediate = false) :
    Sound (s.addToWorld m initialized) future ∧ Quiet (s.addToWorld m initialized) := by
  rw [MotionMaster.addToWorld, if_pos h.initializationPending]
  obtain ⟨t, ht⟩ : ∃ t : MotionMaster,
      t = { s with initializing := true, initializationPending := false } := ⟨_, rfl⟩
  have hsound' : Sound t (m :: future) := by
    rw [ht]
    exact ⟨hsound.sorted, hsound.distinct, hsound.states, hsound.unitState, hsound.alive,
      hsound.closed, hsound.left, hsound.resting, hsound.untouched⟩
  have hupdate : t.update = false := by rw [ht]; exact h.update
  have hpending : t.initializationPending = false := by rw [ht]
  have hdelayed : t.delayed = false := by
    rw [MotionMaster.delayed, hupdate, hpending]
    rfl
  have hsteady := Steady.directInitialize (m := m) hdelayed initialized
  have hdefault : (t.directInitialize m initialized).defaultGenerator = some m :=
    directInitialize_defaultGenerator (by rw [ht]; exact h.generators)
      (by rw [ht]; exact h.defaultGenerator) hdelayed himmediate
  have hresolved := (hsound'.directInitialize initialized).resolveDelayedActions
  -- the queue is carried out with nothing queued, so nothing is queued after it
  have hdelayed' : MotionMaster.delayed
      { t.directInitialize m initialized with delayedActions := [] } = false :=
    hsteady.delayed.trans hdelayed
  have hqueue := Steady.foldl_act hdelayed' (t.directInitialize m initialized).delayedActions
  simp only [← ht]
  refine ⟨⟨hresolved.sorted, hresolved.distinct, hresolved.states, hresolved.unitState,
    hresolved.alive, hresolved.closed, hresolved.left, hresolved.resting, hresolved.untouched⟩,
    hqueue.update.trans (hsteady.update.trans hupdate),
    hqueue.initializationPending.trans (hsteady.initializationPending.trans hpending), rfl,
    hqueue.delayedActions, hqueue.defaultGenerator ?_⟩
  simp only [hdefault]
  exact some_ne_none m

end Waiting

/-! ### Runs in the world -/

/-- The invariant of a new motion master. -/
theorem Sound.new {future : List MovementGenerator} (hdistinct : Distinct future) :
    Sound MotionMaster.new future where
  sorted := List.Pairwise.nil
  distinct := hdistinct
  states := List.Perm.nil
  unitState i := by simp [MotionMaster.new]
  alive _ _ _ := by simp [Finalized, MotionMaster.new]
  closed := List.Pairwise.nil
  left _ hid := by simp [MotionMaster.new] at hid
  resting _ hm := by simp [MotionMaster.new, MotionMaster.stored] at hm
  untouched _ _ _ := rfl

/-- How often a generator has been finalised. -/
def finalizeCount (s : MotionMaster) (id : ℕ) : ℕ :=
  s.trace.countP fun e => e.1.isFinalize && e.2 == id

/-- After `Finalize` nothing is called, so a generator is finalised once at most. -/
theorem countP_finalize_le_one {trace : List (Call × ℕ)} {id : ℕ} (hid : id ≠ 0)
    (hclosed : trace.Pairwise fun e e' => e.1.isFinalize = true → e.2 ≠ 0 → e'.2 ≠ e.2) :
    trace.countP (fun e => e.1.isFinalize && e.2 == id) ≤ 1 := by
  induction trace with
  | nil => exact Nat.zero_le 1
  | cons e trace ih =>
    obtain ⟨hhead, htail⟩ := pairwise_cons.mp hclosed
    rw [countP_cons]
    by_cases he : (e.1.isFinalize && e.2 == id) = true
    · have he' := he
      rw [Bool.and_eq_true, beq_iff_eq] at he'
      have hzero : trace.countP (fun e => e.1.isFinalize && e.2 == id) = 0 := by
        refine countP_eq_zero.mpr fun e' hmem hfinalize => ?_
        rw [Bool.and_eq_true, beq_iff_eq] at hfinalize
        exact hhead e' hmem he'.1 (he'.2 ▸ hid) (hfinalize.2.trans he'.2.symm)
      rw [hzero, if_pos he]
    · rw [if_neg he]
      exact ih htail

theorem finalizeCount_eq_zero {s : MotionMaster} {id : ℕ} :
    finalizeCount s id = 0 ↔ ¬Finalized s id := by
  rw [finalizeCount, countP_eq_zero, Finalized]
  simp only [Bool.and_eq_true, beq_iff_eq, not_exists, not_and]
  exact ⟨fun h e he hid hf => h e he hf hid, fun h e he hf hid => h e he hid hf⟩

/-- A unit in the world: operations before `AddToWorld`, `AddToWorld` with the selected generator, and
the operations since. -/
def runInWorld (before : List Op) (selected : MovementGenerator) (initialized : Bool) (ops : List Op) :
    Option MotionMaster :=
  (execAll before MotionMaster.new).bind fun s => execAll ops (s.addToWorld selected initialized)

theorem runInWorld_sound {before ops : List Op} {selected : MovementGenerator} {initialized : Bool}
    {s : MotionMaster}
    (hdistinct : Distinct (generatorsOfAll before ++ selected :: generatorsOfAll ops))
    (hselected : selected.immediate = false) (horderly : ∀ op ∈ ops, op.orderly = true)
    (hrun : runInWorld before selected initialized ops = some s) : Sound s [] ∧ Quiet s := by
  obtain ⟨t, ht, hops⟩ := bind_eq_some_iff.mp hrun
  obtain ⟨hwaiting, hsound⟩ := Waiting.new.execAll (Sound.new hdistinct) ht
  obtain ⟨hsound', hquiet⟩ := (@Waiting.addToWorld _ _ _ initialized hwaiting hsound hselected)
  rw [← append_nil (generatorsOfAll ops)] at hsound'
  exact execAll_sound horderly hquiet hsound' hops

/-- **Between operations** of a unit in the world the default slot is filled and the active one has at
most one generator for each priority, the highest first; below the current generator every generator that
is to be initialised by an update waits for it; the base states are those of the active generators, and
so are the bits of the unit; a generator that has been put into a slot is in it still, or it has been
finalised exactly once, and no callback is called after that. Operations called by the callbacks of an
update are queued in order and carried out after it. -/
theorem MotionMaster.kept_between_operations {before ops : List Op} {selected : MovementGenerator}
    {initialized : Bool} {s : MotionMaster}
    (hdistinct : Distinct (generatorsOfAll before ++ selected :: generatorsOfAll ops))
    (hselected : selected.immediate = false) (horderly : ∀ op ∈ ops, op.orderly = true)
    (hrun : runInWorld before selected initialized ops = some s) :
    s.defaultGenerator ≠ none ∧ s.delayedActions = [] ∧
      s.generators.Pairwise (fun a b => a.priority > b.priority) ∧
      (∀ m ∈ s.stored, Lazy m → s.current.map MovementGenerator.id ≠ some m.id → Resting s m) ∧
      s.baseUnitStatesMap.Perm
        ((s.generators.filter (·.baseUnitState ≠ 0)).map fun m => (m.baseUnitState, m.id)) ∧
      (∀ i, s.unitState.testBit i = true ↔ ∃ m ∈ s.generators, m.baseUnitState.testBit i = true) ∧
      (∀ id ∈ s.entered, id ≠ 0 →
        ((∃ m ∈ s.stored, m.id = id) ∧ finalizeCount s id = 0) ∨
          ((∀ m ∈ s.stored, m.id ≠ id) ∧ finalizeCount s id = 1)) ∧
      s.trace.Pairwise (fun e e' => e.1.isFinalize = true → e.2 ≠ 0 → e'.2 ≠ e.2) ∧
      ∀ (t : MotionMaster) (callback : List Op), t.update = true → t.initializationPending = false →
        (∀ op ∈ callback, op.plain = true) →
          ∃ t', execAll callback t = some t' ∧ SameSlots (callback.filterMap Op.action?) t t' := by
  obtain ⟨hsound, hquiet⟩ := runInWorld_sound hdistinct hselected horderly hrun
  refine ⟨hquiet.defaultGenerator, hquiet.delayedActions, hsound.sorted, hsound.resting, hsound.states,
    hsound.unitState, fun id hid hne => ?_, hsound.closed, fun t callback hupdate hpending hplain => ?_⟩
  · by_cases hstored : ∃ m ∈ s.stored, m.id = id
    · refine Or.inl ⟨hstored, finalizeCount_eq_zero.mpr ?_⟩
      obtain ⟨m, hm, rfl⟩ := hstored
      exact hsound.alive_of_stored hm hne
    · refine Or.inr ⟨fun m hm heq => hstored ⟨m, hm, heq⟩, ?_⟩
      have hfinalized := (hsound.left id hid hne).resolve_left hstored
      have hle := countP_finalize_le_one hne hsound.closed
      have hpos : finalizeCount s id ≠ 0 := fun hzero => finalizeCount_eq_zero.mp hzero hfinalized
      rw [finalizeCount] at hpos ⊢
      omega
  · obtain ⟨t', ht', hslots, -⟩ := (@execAll_callback t []) hplain hupdate hpending
    exact ⟨t', ht', hslots⟩

/-! ### Examples -/

/-- `ChaseMovementGenerator`. -/
def chaseGenerator : MovementGenerator where
  id := 1
  type := .chase
  priority := 64
  baseUnitState := 0x20
  immediate := false
  flags := ⟨true, false, false⟩

/-- `PointMovementGenerator`. -/
def pointGenerator : MovementGenerator where
  id := 2
  type := .point
  priority := 64
  baseUnitState := 0x10
  immediate := false
  flags := ⟨true, false, false⟩

/-- `RandomMovementGenerator`. -/
def randomGenerator : MovementGenerator where
  id := 3
  type := .random
  priority := 64
  baseUnitState := 0x10
  immediate := false
  flags := ⟨true, false, false⟩

/-- A creature that walks at random chases; while it is updated, a point takes the place of the chase. -/
def pointFromCallback : List Op :=
  [.act (.add chaseGenerator .active true),
    .update true [] true [.act (.add pointGenerator .active true)] true [] true [] []]

theorem MotionMaster.kept_between_operations_point :
    ∃ s, runInWorld [] randomGenerator true pointFromCallback = some s ∧
      s.generators = [pointGenerator] ∧
      s.baseUnitStatesMap.Perm [(0x10, 2)] ∧
      (∀ i, s.unitState.testBit i = true ↔ ∃ m ∈ s.generators, m.baseUnitState.testBit i = true) ∧
      finalizeCount s 1 = 1 := by
  obtain ⟨s, hs⟩ : ∃ s, runInWorld [] randomGenerator true pointFromCallback = some s := ⟨_, rfl⟩
  have hgenerators : s.generators = [pointGenerator] := by
    have hmap : (runInWorld [] randomGenerator true pointFromCallback).map MotionMaster.generators =
        some [pointGenerator] := rfl
    rw [hs, map_some, some_inj] at hmap
    exact hmap
  have hcount : finalizeCount s 1 = 1 := by
    have hmap : (runInWorld [] randomGenerator true pointFromCallback).map (finalizeCount · 1) =
        some 1 := rfl
    rw [hs, map_some, some_inj] at hmap
    exact hmap
  have hdistinct : Distinct (generatorsOfAll [] ++
      randomGenerator :: generatorsOfAll pointFromCallback) := by
    refine ⟨by decide, fun m hm hid => ?_, ?_⟩
    · have hne : ∀ m ∈ generatorsOfAll [] ++ randomGenerator :: generatorsOfAll pointFromCallback,
          m.id ≠ 0 := by decide
      exact absurd hid (hne m hm)
    · decide
  obtain ⟨-, -, -, -, hstates, hunitState, -⟩ :=
    MotionMaster.kept_between_operations hdistinct rfl (by decide) hs
  rw [hgenerators] at hstates
  exact ⟨s, hs, hgenerators, hstates, hunitState, hcount⟩

/-- **Where the slots promise less.** The idle generator of the default slot stays initialised and is not
deactivated by a chase; `InterruptOnTeleport` in a callback acts at once; and an update called by the
`Initialize` callback of a chase finalises the chase, which is updated again after that. -/
theorem idle_shares_and_nested_update :
    (∃ s, runInWorld [] idleMovementGenerator true
        [.update true [] true [] true [] true [] [], .act (.add chaseGenerator .active true)] = some s ∧
      (Call.init, 0) ∈ s.trace ∧ s.defaultGenerator = some idleMovementGenerator ∧
      s.current = some chaseGenerator ∧
      (s.flagsOf idleMovementGenerator).initializationPending = false ∧
      (s.flagsOf idleMovementGenerator).deactivated = false) ∧
    (∃ s, runInWorld [] randomGenerator true
        [.update true [] true [] true [] true [.interruptOnTeleport] []] = some s ∧
      s.trace = [(.init, 3), (.update, 3), (.deactivate, 3)]) ∧
    ∃ s, runInWorld [] randomGenerator true
        [.act (.add chaseGenerator .active true),
          .update true [] true [.update true [] true [] true [] false [] []] true [] true [] []] =
        some s ∧
      s.trace = [(.deactivate, 3), (.init, 1), (.update, 1), (.finalize true true, 1), (.update, 1)] :=
  ⟨⟨_, rfl, by decide, rfl, rfl, rfl, rfl⟩, ⟨_, rfl, rfl⟩, ⟨_, rfl, rfl⟩⟩

end IscServer.Movement
