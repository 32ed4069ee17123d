import IscServer.Movement.MotionSound

/-!
# Runs of the motion master

While the motion master is updating, an operation called by a callback changes no slot: it is queued, or
it calls a generator. So the current generator is the same from the first callback of an update to the
last, and the queue is carried out after the update with nothing queued.

## Main results

* `execAll_callback` — the operations of a callback are queued in order.
* `execAll_sound` — a run of operations keeps the invariant.
-/

namespace IscServer.Movement

open List MotionMaster

/-! ### What operations leave alone -/

/-- The slots, the base states and the flags of the motion master are the same, and some of the operations
have been queued in order. -/
structure SameSlots (actions : List Action) (s s' : MotionMaster) : Prop where
  generators : s'.generators = s.generators
  defaultGenerator : s'.defaultGenerator = s.defaultGenerator
  baseUnitStatesMap : s'.baseUnitStatesMap = s.baseUnitStatesMap
  unitState : s'.unitState = s.unitState
  update : s'.update = s.update
  initializationPending : s'.initializationPending = s.initializationPending
  initializing : s'.initializing = s.initializing
  entered : s'.entered = s.entered
  delayedActions : ∃ queue, queue.Sublist actions ∧
    s'.delayedActions = s.delayedActions ++ queue

namespace SameSlots

variable {s s' s'' : MotionMaster} {actions actions' : List Action}

theorem refl (actions : List Action) (s : MotionMaster) : SameSlots actions s s :=
  ⟨rfl, rfl, rfl, rfl, rfl, rfl, rfl, rfl, [], nil_sublist _, (append_nil _).symm⟩

theorem trans (h : SameSlots actions s s') (h' : SameSlots actions' s' s'') :
    SameSlots (actions ++ actions') s s'' := by
  obtain ⟨queue, hsub, hqueue⟩ := h.delayedActions
  obtain ⟨queue', hsub', hqueue'⟩ := h'.delayedActions
  refine ⟨h'.generators.trans h.generators, h'.defaultGenerator.trans h.defaultGenerator,
    h'.baseUnitStatesMap.trans h.baseUnitStatesMap, h'.unitState.trans h.unitState,
    h'.update.trans h.update, h'.initializationPending.trans h.initializationPending,
    h'.initializing.trans h.initializing, h'.entered.trans h.entered, queue ++ queue',
    hsub.append hsub', ?_⟩
  rw [hqueue', hqueue, append_assoc]

theorem call (c : Call) (m : MovementGenerator) : SameSlots actions s (s.call c m) :=
  ⟨rfl, rfl, rfl, rfl, rfl, rfl, rfl, rfl, [], nil_sublist _, (append_nil _).symm⟩

theorem current (h : SameSlots actions s s') : s'.current = s.current := by
  rw [MotionMaster.current, MotionMaster.current, h.generators, h.defaultGenerator]

/-- An operation while the motion master is updating. -/
theorem act (hupdate : s.update = true) (hpending : s.initializationPending = false) (a : Action) :
    SameSlots [a] s (s.act a) := by
  have hqueue : SameSlots [a] s { s with delayedActions := s.delayedActions ++ [a] } :=
    ⟨rfl, rfl, rfl, rfl, rfl, rfl, rfl, rfl, [a], List.Sublist.refl _, rfl⟩
  have hdelayed : s.delayed = true := by rw [MotionMaster.delayed, hupdate]; rfl
  cases a with
  | add m slot initialized =>
    simp only [MotionMaster.act, MotionMaster.add, MotionMaster.addOrDelay,
      MotionMaster.call_delayed, hdelayed]
    split_ifs
    · exact ((@call _ []) .init m).trans
        ⟨rfl, rfl, rfl, rfl, rfl, rfl, rfl, rfl, [_], List.Sublist.refl _, rfl⟩
    · exact call .init m
    · exact refl _ s
    · exact hqueue
  | init m initialized =>
    have hact : s.act (.init m initialized) =
        { s with delayedActions := s.delayedActions ++ [.init m initialized] } := by
      simp [MotionMaster.act, hpending, hupdate]
    rw [hact]
    exact hqueue
  | remove type slot =>
    by_cases htype : type = .maxDb
    · subst htype
      exact refl _ s
    · rw [MotionMaster.act_remove htype, if_pos hdelayed]
      exact hqueue
  | _ =>
    simp only [MotionMaster.act, hdelayed]
    exact hqueue

theorem interruptOnTeleport : SameSlots actions s s.interruptOnTeleport := by
  rw [MotionMaster.interruptOnTeleport]
  cases s.current with
  | none => exact refl _ s
  | some top =>
    simp only
    split_ifs
    · exact refl _ s
    · exact call .deactivate top

end SameSlots

/-- The flags of the motion master and its queue are the same, and its default slot is not emptied. -/
structure Steady (s s' : MotionMaster) : Prop where
  update : s'.update = s.update
  initializationPending : s'.initializationPending = s.initializationPending
  initializing : s'.initializing = s.initializing
  delayedActions : s'.delayedActions = s.delayedActions
  defaultGenerator : s.defaultGenerator ≠ none → s'.defaultGenerator ≠ none

namespace Steady

variable {s s' s'' : MotionMaster} {m : MovementGenerator}

theorem refl (s : MotionMaster) : Steady s s := ⟨rfl, rfl, rfl, rfl, fun h => h⟩

theorem trans (h : Steady s s') (h' : Steady s' s'') : Steady s s'' :=
  ⟨h'.update.trans h.update, h'.initializationPending.trans h.initializationPending,
    h'.initializing.trans h.initializing, h'.delayedActions.trans h.delayedActions,
    fun hdefault => h'.defaultGenerator (h.defaultGenerator hdefault)⟩

theorem delayed (h : Steady s s') : s'.delayed = s.delayed := by
  rw [MotionMaster.delayed, MotionMaster.delayed, h.update, h.initializationPending]

theorem call (s : MotionMaster) (c : Call) (m : MovementGenerator) : Steady s (s.call c m) :=
  ⟨rfl, rfl, rfl, rfl, fun h => h⟩

theorem removeAt (s : MotionMaster) (m : MovementGenerator) (active movementInform : Bool) :
    Steady s (s.removeAt m active movementInform) := by
  rw [MotionMaster.removeAt, MotionMaster.clearBaseUnitState_eq]
  exact ⟨rfl, rfl, rfl, rfl, fun h => h⟩

theorem foldl_removeAt (active : MovementGenerator → Bool) (gs : List MovementGenerator)
    (s : MotionMaster) :
    Steady s (gs.foldl (fun s m => s.removeAt m (active m) false) s) := by
  induction gs generalizing s with
  | nil => exact refl s
  | cons g gs ih => exact (removeAt s g _ false).trans (ih _)

section

variable (s : MotionMaster)

theorem directClear : Steady s s.directClear := by
  rw [MotionMaster.directClear]
  have hclear (t : MotionMaster) : Steady t t.clearBaseUnitStates :=
    ⟨rfl, rfl, rfl, rfl, fun h => h⟩
  cases s.generators with
  | nil => exact hclear s
  | cons top rest =>
    exact ((removeAt s top true false).trans (foldl_removeAt (fun _ => false) rest _)).trans
      (hclear _)

theorem directClearWhere (filter : MovementGenerator → Bool) :
    Steady s (s.directClearWhere filter) :=
  foldl_removeAt _ _ s

theorem directClearDefault : Steady s s.directClearDefault := by
  rw [MotionMaster.directClearDefault]
  cases s.defaultGenerator with
  | none => exact refl s
  | some m => exact ⟨rfl, rfl, rfl, rfl, fun _ => Option.some_ne_none _⟩

theorem makePlace (m : MovementGenerator) : Steady s (s.makePlace m) := by
  rw [MotionMaster.makePlace]
  split
  · split
    · exact call s .deactivate _
    · exact refl s
  · split
    · exact refl s
    · split_ifs
      · exact removeAt s _ _ false
      · exact call s .deactivate _
      · exact refl s

theorem directAdd (m : MovementGenerator) (slot : MovementSlot) :
    Steady s (s.directAdd m slot) := by
  cases slot with
  | default =>
    rw [MotionMaster.directAdd, MotionMaster.directAddDefault]
    cases s.defaultGenerator <;> exact ⟨rfl, rfl, rfl, rfl, fun _ => Option.some_ne_none _⟩
  | active =>
    rw [MotionMaster.directAdd, MotionMaster.directAddActive]
    refine (makePlace s m).trans ?_
    cases m.immediate with
    | true => exact ⟨rfl, rfl, rfl, rfl, fun h => h⟩
    | false =>
      rw [MotionMaster.addBaseUnitState]
      by_cases hzero : m.baseUnitState = 0
      · simp only [hzero]
        exact ⟨rfl, rfl, rfl, rfl, fun h => h⟩
      · simp only [hzero]
        exact ⟨rfl, rfl, rfl, rfl, fun h => h⟩

end

section

variable (hdelayed : s.delayed = false)
include hdelayed

theorem add (slot : MovementSlot) (initialized : Bool) : Steady s (s.add m slot initialized) := by
  have hadd (t : MotionMaster) (ht : t.delayed = false) :
      Steady t (t.addOrDelay m slot initialized) := by
    rw [MotionMaster.addOrDelay, ht]
    exact directAdd t m slot
  rw [MotionMaster.add]
  split_ifs
  · exact (call s .init m).trans (hadd _ hdelayed)
  · exact call s .init m
  · exact refl s
  · exact hadd s hdelayed

theorem directInitialize (initialized : Bool) : Steady s (s.directInitialize m initialized) := by
  have hclear := (directClearDefault s).trans (directClear _)
  exact hclear.trans (add (hclear.delayed.trans hdelayed) .default initialized)

theorem directAct (a : Action) : Steady s (s.directAct a) := by
  cases a with
  | add m slot initialized => exact add hdelayed slot initialized
  | remove type slot =>
    cases slot with
    | default =>
      simp only [MotionMaster.directAct]
      split_ifs
      · exact directClearDefault s
      · exact refl s
    | active => exact directClearWhere s _
  | clear => exact directClear s
  | clearSlot slot =>
    cases slot with
    | default => exact directClearDefault s
    | active => exact directClear s
  | clearPriority priority => exact directClearWhere s _
  | init m initialized => exact directInitialize hdelayed initialized

/-- An operation that is carried out at once. -/
theorem act (a : Action) : Steady s (s.act a) := by
  have hdirect := directAct hdelayed a
  cases a with
  | add m slot initialized => exact hdirect
  | init m initialized =>
    have hflags := hdelayed
    rw [MotionMaster.delayed, Bool.or_eq_false_iff] at hflags
    have hact : s.act (.init m initialized) = s.directInitialize m initialized := by
      simp [MotionMaster.act, hflags.1, hflags.2]
    rw [hact]
    exact hdirect
  | remove type slot =>
    by_cases htype : type = .maxDb
    · subst htype
      exact refl s
    · rw [MotionMaster.act_remove htype, hdelayed]
      exact hdirect
  | _ =>
    simp only [MotionMaster.act, hdelayed]
    exact hdirect

theorem foldl_act (actions : List Action) : Steady s (actions.foldl MotionMaster.act s) := by
  induction actions generalizing s with
  | nil => exact refl s
  | cons a actions ih =>
    have ha := act hdelayed a
    exact ha.trans (ih (ha.delayed.trans hdelayed))

end

end Steady

/-- Between operations: nothing is queued, and the default slot is filled. -/
structure Quiet (s : MotionMaster) : Prop where
  update : s.update = false
  initializationPending : s.initializationPending = false
  initializing : s.initializing = false
  delayedActions : s.delayedActions = []
  defaultGenerator : s.defaultGenerator ≠ none

theorem Quiet.delayed {s : MotionMaster} (h : Quiet s) : s.delayed = false := by
  rw [MotionMaster.delayed, h.update, h.initializationPending]
  rfl

theorem Quiet.steady {s s' : MotionMaster} (h : Quiet s) (hsteady : Steady s s') : Quiet s' :=
  ⟨hsteady.update.trans h.update, hsteady.initializationPending.trans h.initializationPending,
    hsteady.initializing.trans h.initializing, hsteady.delayedActions.trans h.delayedActions,
    hsteady.defaultGenerator h.defaultGenerator⟩

/-! ### Callbacks of an update -/

/-- The operation is not an update. -/
def Op.plain : Op → Bool
  | .update .. => false
  | _ => true

/-- The operation a callback queues. -/
def Op.action? : Op → Option Action
  | .act action => some action
  | _ => none

section Callback

variable {s s' : MotionMaster} {future : List MovementGenerator} {m : MovementGenerator}

/-- **An operation called by a callback** of an update changes no slot. -/
theorem exec_callback {op : Op} (hplain : op.plain = true) (hupdate : s.update = true)
    (hpending : s.initializationPending = false) :
    ∃ s', exec op s = some s' ∧ SameSlots op.action?.toList s s' ∧
      (Sound s (generatorsOf op ++ future) → Sound s' future) := by
  cases op with
  | act a =>
    exact ⟨_, rfl, SameSlots.act hupdate hpending a, fun h => h.act a⟩
  | interruptOnTeleport =>
    exact ⟨_, rfl, SameSlots.interruptOnTeleport, fun h => h.interruptOnTeleport⟩
  | update => cases hplain

variable {ops : List Op}

/-- **The operations of a callback** are queued in order. -/
theorem execAll_callback (hplain : ∀ op ∈ ops, op.plain = true) (hupdate : s.update = true)
    (hpending : s.initializationPending = false) :
    ∃ s', execAll ops s = some s' ∧ SameSlots (ops.filterMap Op.action?) s s' ∧
      (Sound s (generatorsOfAll ops ++ future) → Sound s' future) := by
  induction ops generalizing s with
  | nil => exact ⟨s, by rw [execAll], SameSlots.refl _ s, fun h => h⟩
  | cons op ops ih =>
    obtain ⟨t, ht, hslots, hsound⟩ := (@exec_callback _ (generatorsOfAll ops ++ future))
      (hplain op mem_cons_self) hupdate hpending
    obtain ⟨s', hs', hslots', hsound'⟩ := ih (s := t)
      (fun op hop => hplain op (mem_cons_of_mem _ hop))
      (hslots.update.trans hupdate) (hslots.initializationPending.trans hpending)
    refine ⟨s', by rw [execAll, ht]; exact hs', ?_, fun h => hsound' (hsound ?_)⟩
    · have hactions : (op :: ops).filterMap Op.action? =
          op.action?.toList ++ ops.filterMap Op.action? := by
        cases haction : op.action? <;> simp [haction]
      rw [hactions]
      exact hslots.trans hslots'
    · rw [generatorsOfAll, append_assoc] at h
      exact h

/-- Other base states. -/
def withStates (s : MotionMaster) (map : List (ℕ × ℕ)) (bits : ℕ) : MotionMaster :=
  { s with baseUnitStatesMap := map, unitState := bits }

variable {map : List (ℕ × ℕ)} {bits : ℕ}

@[simp] theorem withStates_flagsOf : (withStates s map bits).flagsOf m = s.flagsOf m := rfl
@[simp] theorem withStates_current : (withStates s map bits).current = s.current := rfl
@[simp] theorem withStates_wouldBecomeTop :
    (withStates s map bits).wouldBecomeTop m = s.wouldBecomeTop m := rfl
@[simp] theorem withStates_delayed : (withStates s map bits).delayed = s.delayed := rfl

theorem act_withStates (hupdate : s.update = true) (hpending : s.initializationPending = false)
    (map : List (ℕ × ℕ)) (bits : ℕ) (a : Action) :
    (withStates s map bits).act a = withStates (s.act a) map bits := by
  have hdelayed : s.delayed = true := by rw [delayed, hupdate]; rfl
  cases a with
  | add m slot initialized =>
    simp only [act, add, addOrDelay,
      call_delayed, withStates_flagsOf, withStates_wouldBecomeTop,
      withStates_delayed, hdelayed]
    split_ifs <;> rfl
  | init m initialized =>
    simp [act, withStates, hpending, hupdate]
  | remove type slot =>
    by_cases htype : type = .maxDb
    · subst htype
      rfl
    · rw [act_remove htype, act_remove htype, withStates_delayed,
        if_pos hdelayed, if_pos hdelayed]
      rfl
  | _ =>
    simp only [act, withStates_delayed, hdelayed]
    rfl

theorem interruptOnTeleport_withStates (map : List (ℕ × ℕ)) (bits : ℕ) :
    (withStates s map bits).interruptOnTeleport = withStates s.interruptOnTeleport map bits := by
  rw [interruptOnTeleport, interruptOnTeleport, withStates_current]
  cases s.current with
  | none => rfl
  | some top =>
    by_cases hskip : ((s.flagsOf top).deactivated || (s.flagsOf top).finalized) = true
    · exact (if_pos hskip).trans (congrArg (withStates · map bits) (if_pos hskip).symm)
    · have heq : (if ((s.flagsOf top).deactivated || (s.flagsOf top).finalized) = true then s
          else s.call .deactivate top) = s.call .deactivate top := if_neg hskip
      exact (if_neg hskip).trans (congrArg (withStates · map bits) heq.symm)

/-- The operations of a callback do not look at the base states. -/
theorem execAll_withStates (hplain : ∀ op ∈ ops, op.plain = true) (hupdate : s.update = true)
    (hpending : s.initializationPending = false) (map : List (ℕ × ℕ)) (bits : ℕ) :
    execAll ops (withStates s map bits) = (execAll ops s).map (withStates · map bits) := by
  induction ops generalizing s with
  | nil => simp [execAll]
  | cons op ops ih =>
    have hop := hplain op mem_cons_self
    obtain ⟨t, ht, hslots, -⟩ := (@exec_callback _ []) hop hupdate hpending
    have ht' : exec op (withStates s map bits) = some (withStates t map bits) := by
      cases op with
      | act a =>
        rw [exec] at ht ⊢
        rw [act_withStates hupdate hpending, Option.some.inj ht]
      | interruptOnTeleport =>
        rw [exec] at ht ⊢
        rw [interruptOnTeleport_withStates, Option.some.inj ht]
      | update => cases hop
    rw [execAll, execAll, ht, ht', Option.bind_some, Option.bind_some]
    exact ih (fun op hop => hplain op (mem_cons_of_mem _ hop))
      (hslots.update.trans hupdate) (hslots.initializationPending.trans hpending)

end Callback

/-! ### Update -/

section Update

variable {s s' : MotionMaster} {future : List MovementGenerator} {top : MovementGenerator}
  {staticInitialized initialized hasReset updated : Bool}
  {onStaticInitialize onInitialize onReset onUpdate onFinalize : List Op}

/-- The callbacks of an update operation. -/
def callbacksOf (staticInitialized : Bool) (onStaticInitialize : List Op)
    (initialized : Bool) (onInitialize : List Op) (hasReset : Bool) (onReset : List Op)
    (updated : Bool) (onUpdate : List Op) (onFinalize : List Op) : Callbacks where
  staticInitialized := staticInitialized
  onStaticInitialize := execAll onStaticInitialize
  initialized := initialized
  onInitialize := execAll onInitialize
  hasReset := hasReset
  onReset := execAll onReset
  updated := updated
  onUpdate := execAll onUpdate
  onFinalize := execAll onFinalize

/-- What holds from callback to callback: the motion master is updating, and the current generator stays
the same. -/
structure Running (s : MotionMaster) (top : MovementGenerator) (future : List MovementGenerator) :
    Prop where
  sound : Sound s future
  update : s.update = true
  initializationPending : s.initializationPending = false
  initializing : s.initializing = false
  defaultGenerator : s.defaultGenerator ≠ none
  current : s.current = some top

/-- A callback of the current generator, with the operations it calls. -/
theorem Running.callback {ops : List Op} {c : Call}
    (h : Running s top (generatorsOfAll ops ++ future))
    (hc : c.isFinalize = false) (hplain : ∀ op ∈ ops, op.plain = true) :
    ∃ s', execAll ops (s.call c top) = some s' ∧ Running s' top future := by
  obtain ⟨s', hs', hslots, hsound⟩ := (@execAll_callback (s.call c top) future) hplain
    h.update h.initializationPending
  refine ⟨s', hs', hsound (h.sound.call_current h.current hc), hslots.update.trans h.update,
    hslots.initializationPending.trans h.initializationPending,
    hslots.initializing.trans h.initializing, fun hnone => h.defaultGenerator ?_,
    hslots.current.trans h.current⟩
  rw [← hnone, hslots.defaultGenerator]
  rfl

theorem Running.drop {future' : List MovementGenerator} (h : Running s top future)
    (hsub : future'.Sublist future) : Running s top future' :=
  { h with sound := h.sound.drop hsub }

/-- `Pop` at the end of an update: the generator leaves, and the operations called by its `Finalize` are
queued. -/
theorem Running.pop {cb : Callbacks} {ops : List Op}
    (h : Running s top (generatorsOfAll ops ++ future)) (hcb : cb.onFinalize = execAll ops)
    (hplain : ∀ op ∈ ops, op.plain = true) :
    ∃ s', updatePop cb top s = some s' ∧ Sound s' future ∧ s'.update = true ∧
      s'.initializationPending = false ∧ s'.initializing = false ∧
      s'.defaultGenerator = s.defaultGenerator := by
  rw [updatePop, if_neg (by rw [h.current]; simp)]
  cases hgenerators : s.generators with
  | nil =>
    exact ⟨s, rfl, h.sound.drop (sublist_append_right _ _), h.update, h.initializationPending,
      h.initializing, rfl⟩
  | cons m rest =>
    have hm : m ∈ s.generators := by rw [hgenerators]; exact mem_cons_self
    -- the map is cleared after the callback, which does not look at it
    obtain ⟨t, htdef⟩ : ∃ t, t = ({ s with
      generators := s.generators.filter (·.priority ≠ m.priority) } : MotionMaster).call
        (.finalize true true) m := ⟨_, rfl⟩
    have hclear (u : MotionMaster) (hu : u.baseUnitStatesMap = t.baseUnitStatesMap)
        (hu' : u.unitState = t.unitState) : u.clearBaseUnitState m = withStates u
          (t.clearBaseUnitState m).baseUnitStatesMap (t.clearBaseUnitState m).unitState := by
      rw [clearBaseUnitState_eq, clearBaseUnitState_eq, withStates, hu, hu']
    have hupdate : t.update = true := by rw [htdef]; exact h.update
    have hpending : t.initializationPending = false := by
      rw [htdef]; exact h.initializationPending
    obtain ⟨t', ht', hslots, -⟩ := (@execAll_callback t []) hplain hupdate hpending
    have hremove : s.removeAt m true true = withStates t
        (t.clearBaseUnitState m).baseUnitStatesMap (t.clearBaseUnitState m).unitState := by
      rw [removeAt, ← htdef]
      exact hclear t rfl rfl
    have hexec := execAll_withStates hplain hupdate hpending
      (t.clearBaseUnitState m).baseUnitStatesMap (t.clearBaseUnitState m).unitState
    rw [ht', ← hremove, Option.map_some] at hexec
    obtain ⟨s', hs', hslots', hsound⟩ := (@execAll_callback (s.removeAt m true true) future) hplain (by rw [hremove]; exact hupdate) (by rw [hremove]; exact hpending)
    have hs'' := Option.some.inj (hexec.symm.trans hs')
    refine ⟨s', ?_, hsound (h.sound.removeAt hm true true), ?_, ?_, ?_, ?_⟩
    · simp only [hcb]
      rw [← hgenerators, ← htdef, ht', Option.map_some,
        hclear t' hslots.baseUnitStatesMap hslots.unitState, hs'']
    · exact hslots'.update.trans (by rw [hremove]; exact hupdate)
    · exact hslots'.initializationPending.trans (by rw [hremove]; exact hpending)
    · refine hslots'.initializing.trans ?_
      rw [hremove, htdef]
      exact h.initializing
    · exact hslots'.defaultGenerator.trans removeAt_defaultGenerator

variable {cb : Callbacks} {ops : List Op}

theorem Running.static (h : Running s top (generatorsOfAll ops ++ future))
    (hcb : cb.onStaticInitialize = execAll ops) (hplain : ∀ op ∈ ops, op.plain = true) :
    ∃ r, updateStatic cb top s = some r ∧ Running r.1 top future := by
  rw [updateStatic, hcb]
  split_ifs
  · have hflag : Running { s with staticInitializationPending := false } top
        (generatorsOfAll ops ++ future) :=
      ⟨⟨h.sound.sorted, h.sound.distinct, h.sound.states, h.sound.unitState, h.sound.alive,
        h.sound.closed, h.sound.left, h.sound.resting, h.sound.untouched⟩, h.update,
        h.initializationPending, h.initializing, h.defaultGenerator, h.current⟩
    obtain ⟨s', hs', hrunning⟩ := hflag.callback (c := .init) rfl hplain
    exact ⟨(s', _), by rw [hs']; rfl, hrunning⟩
  · exact ⟨_, rfl, h.drop (sublist_append_right _ _)⟩

variable {r : MotionMaster × InitState}

section

variable (h : Running r.1 top (generatorsOfAll ops ++ future))
include h

theorem Running.initPending (hcb : cb.onInitialize = execAll ops)
    (hplain : ∀ op ∈ ops, op.plain = true) :
    ∃ r', updateInitialize cb top r = some r' ∧ Running r'.1 top future := by
  rw [updateInitialize, hcb]
  split_ifs
  · obtain ⟨s', hs', hrunning⟩ := h.callback (c := .init) rfl hplain
    exact ⟨(s', _), by rw [hs']; rfl, hrunning⟩
  · exact ⟨_, rfl, h.drop (sublist_append_right _ _)⟩

theorem Running.reset (hcb : cb.onReset = execAll ops) (hplain : ∀ op ∈ ops, op.plain = true) :
    ∃ r', updateReset cb top r = some r' ∧ Running r'.1 top future := by
  rw [updateReset, hcb]
  split_ifs
  · obtain ⟨s', hs', hrunning⟩ := h.callback (c := .reset) rfl hplain
    exact ⟨(s', _), by rw [hs']; rfl, hrunning⟩
  · exact ⟨_, rfl, h.drop (sublist_append_right _ _)⟩

end

/-- The state at the end of an update, before the queue is carried out. -/
structure Updated (s : MotionMaster) (future : List MovementGenerator) : Prop where
  sound : Sound s future
  initializationPending : s.initializationPending = false
  initializing : s.initializing = false
  defaultGenerator : s.defaultGenerator ≠ none

theorem Running.finish {opsFinalize : List Op}
    (h : Running r.1 top (generatorsOfAll ops ++ (generatorsOfAll opsFinalize ++ future)))
    (hcb : cb.onUpdate = execAll ops) (hplain : ∀ op ∈ ops, op.plain = true)
    (hcbFinalize : cb.onFinalize = execAll opsFinalize)
    (hplainFinalize : ∀ op ∈ opsFinalize, op.plain = true)
    (hexec : updateTop cb top r = some s') : Updated s' future := by
  have hpop : ∀ {t t' : MotionMaster}, Running t top (generatorsOfAll opsFinalize ++ future) →
      updatePop cb top t = some t' → Updated t' future := by
    intro t t' ht hpop
    obtain ⟨u, hu, hsound, -, hpending, hinitializing, hsame⟩ := ht.pop hcbFinalize hplainFinalize
    obtain rfl : u = t' := Option.some.inj (hu.symm.trans hpop)
    exact ⟨hsound, hpending, hinitializing, hsame ▸ ht.defaultGenerator⟩
  obtain ⟨t, ht, hrunning⟩ := h.callback (c := .update) rfl hplain
  rw [updateTop] at hexec
  split_ifs at hexec
  · exact hpop (h.drop (sublist_append_right _ _)) hexec
  · rw [hcb, ht, Option.bind_some] at hexec
    obtain rfl := Option.some.inj hexec
    exact ⟨hrunning.sound.drop (sublist_append_right _ _), hrunning.initializationPending,
      hrunning.initializing, hrunning.defaultGenerator⟩
  · rw [hcb, ht, Option.bind_some] at hexec
    exact hpop hrunning hexec

end Update

/-- No callback of an update calls `Update`. -/
def Op.orderly : Op → Bool
  | .update _ onStaticInitialize _ onInitialize _ onReset _ onUpdate onFinalize =>
    onStaticInitialize.all Op.plain && onInitialize.all Op.plain && onReset.all Op.plain &&
      onUpdate.all Op.plain && onFinalize.all Op.plain
  | _ => true

section Run

variable {s s' : MotionMaster} {future : List MovementGenerator}

/-- The queue of an update is carried out. -/
theorem Updated.resolve (h : Updated s future) :
    Sound { s with update := false }.resolveDelayedActions future ∧
      Quiet { s with update := false }.resolveDelayedActions := by
  have hsound := h.sound
  have hsound' : Sound { s with update := false } future :=
    ⟨hsound.sorted, hsound.distinct, hsound.states, hsound.unitState, hsound.alive, hsound.closed,
      hsound.left, hsound.resting, hsound.untouched⟩
  refine ⟨hsound'.resolveDelayedActions, ?_⟩
  have hquiet : Quiet { s with update := false, delayedActions := [] } :=
    ⟨rfl, h.initializationPending, h.initializing, rfl, h.defaultGenerator⟩
  exact hquiet.steady (Steady.foldl_act hquiet.delayed s.delayedActions)

/-- **One operation** keeps the invariant, whatever its callbacks call. -/
theorem exec_sound {op : Op} (horderly : op.orderly = true) (hquiet : Quiet s)
    (h : Sound s (generatorsOf op ++ future)) (hexec : exec op s = some s') :
    Sound s' future ∧ Quiet s' := by
  cases op with
  | act a =>
    rw [exec, Option.some_inj] at hexec
    exact hexec ▸ ⟨h.act a, hquiet.steady (Steady.act hquiet.delayed a)⟩
  | interruptOnTeleport =>
    rw [exec, Option.some_inj] at hexec
    refine hexec ▸ ⟨h.interruptOnTeleport, hquiet.steady ?_⟩
    rw [interruptOnTeleport]
    split
    · exact Steady.refl s
    · split_ifs
      · exact Steady.refl s
      · exact Steady.call s .deactivate _
  | update staticInitialized onStaticInitialize initialized onInitialize hasReset onReset updated
      onUpdate onFinalize =>
      have hskip : ¬(s.initializationPending || s.initializing) = true := by
        rw [hquiet.initializationPending, hquiet.initializing]
        exact Bool.false_ne_true
      rw [exec, updateWith, if_neg hskip] at hexec
      simp only [Op.orderly, Bool.and_eq_true, all_eq_true] at horderly
      obtain ⟨⟨⟨⟨hplainStatic, hplainInit⟩, hplainReset⟩, hplainUpdate⟩, hplainFinalize⟩ := horderly
      simp only [generatorsOf, append_assoc] at h
      cases hcurrent : s.current with
      | none => simp [hcurrent] at hexec
      | some top =>
        simp only [hcurrent] at hexec
        have hrunning : Running { s with update := true } top (generatorsOfAll onStaticInitialize ++
            (generatorsOfAll onInitialize ++ (generatorsOfAll onReset ++ (generatorsOfAll onUpdate ++
              (generatorsOfAll onFinalize ++ future))))) :=
          ⟨⟨h.sorted, h.distinct, h.states, h.unitState, h.alive, h.closed, h.left, h.resting,
            h.untouched⟩, rfl, hquiet.initializationPending, hquiet.initializing,
            hquiet.defaultGenerator, hcurrent⟩
        obtain ⟨t, ht, rfl⟩ := Option.map_eq_some_iff.mp hexec
        obtain ⟨r₁, hr₁, hrunning₁⟩ := @Running.static _ _ _
          (callbacksOf staticInitialized onStaticInitialize initialized onInitialize hasReset
            onReset updated onUpdate onFinalize) _ hrunning rfl hplainStatic
        obtain ⟨r₂, hr₂, hrunning₂⟩ := @Running.initPending _ _
          (callbacksOf staticInitialized onStaticInitialize initialized onInitialize hasReset
            onReset updated onUpdate onFinalize) _ _ hrunning₁ rfl hplainInit
        obtain ⟨r₃, hr₃, hrunning₃⟩ := @Running.reset _ _
          (callbacksOf staticInitialized onStaticInitialize initialized onInitialize hasReset
            onReset updated onUpdate onFinalize) _ _ hrunning₂ rfl hplainReset
        have hstages := ht
        rw [callbacksOf] at hr₁ hr₂ hr₃
        rw [hr₁, Option.bind_some, hr₂, Option.bind_some, hr₃, Option.bind_some] at hstages
        exact (hrunning₃.finish rfl hplainUpdate rfl hplainFinalize hstages).resolve

/-- **Every run** keeps the invariant. -/
theorem execAll_sound {ops : List Op} (horderly : ∀ op ∈ ops, op.orderly = true) (hquiet : Quiet s)
    (h : Sound s (generatorsOfAll ops ++ future)) (hexec : execAll ops s = some s') :
    Sound s' future ∧ Quiet s' := by
  induction ops generalizing s with
  | nil =>
    rw [execAll, Option.some_inj] at hexec
    exact hexec ▸ ⟨h, hquiet⟩
  | cons op ops ih =>
    obtain ⟨t, ht, hexec⟩ := Option.bind_eq_some_iff.mp hexec
    rw [generatorsOfAll, append_assoc] at h
    obtain ⟨hsound, hquiet'⟩ := exec_sound (horderly op mem_cons_self) hquiet h ht
    exact ih (fun op hop => horderly op (mem_cons_of_mem _ hop)) hquiet' hsound hexec

end Run

end IscServer.Movement
