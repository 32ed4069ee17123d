import IscServer.Movement.MotionMaster
import IscServer.Library.Keyed

/-!
# The invariant of the motion master

Between callbacks the slots, the queue and the operations still to come own different generators, the
active slot has one generator for each priority, and the map of base states and the bits of the unit
follow the active slot. A generator leaves its slot with `Finalize`, and nothing is called after it; this
is why it may be deleted then. Below the current generator every one waits to be initialised or reset.

The invariant takes the generators of the operations still to come (`future`), so that a generator cannot
be added twice. Each operation takes its own generators from it.

## Main definitions

* `Distinct` — generators are objects of their own, and base states are equal or have no bit in common.
* `Sound` — the invariant.

## Main results

* `Sound.act`, `Sound.resolveDelayedActions`, `Sound.interruptOnTeleport` — the operations keep it.
-/

namespace IscServer.Movement

open List MotionMaster

/-! ### The generators of a run -/

/-- The generators an operation brings along. -/
def Action.generators : Action → List MovementGenerator
  | .add m _ _ => [m]
  | .init m _ => [m]
  | _ => []

mutual

/-- The generators of an operation and of the callbacks it runs. -/
def generatorsOf : Op → List MovementGenerator
  | .act action => action.generators
  | .interruptOnTeleport => []
  | .update _ onStaticInitialize _ onInitialize _ onReset _ onUpdate onFinalize =>
    generatorsOfAll onStaticInitialize ++ generatorsOfAll onInitialize ++
      generatorsOfAll onReset ++ generatorsOfAll onUpdate ++ generatorsOfAll onFinalize

/-- The generators of operations. -/
def generatorsOfAll : List Op → List MovementGenerator
  | [] => []
  | op :: ops => generatorsOf op ++ generatorsOfAll ops

end

/-- Every generator but the static one is an object of its own, and base unit states are equal or have
no bit in common. -/
structure Distinct (ms : List MovementGenerator) : Prop where
  nodup : ((ms.filter (·.id ≠ 0)).map MovementGenerator.id).Nodup
  static : ∀ m ∈ ms, m.id = 0 → m = idleMovementGenerator
  states : ∀ m ∈ ms, ∀ m' ∈ ms,
    m.baseUnitState = m'.baseUnitState ∨ m.baseUnitState &&& m'.baseUnitState = 0

theorem Distinct.sublist {ms ms' : List MovementGenerator} (h : Distinct ms)
    (hsub : ms'.Sublist ms) :
    Distinct ms' :=
  ⟨h.nodup.sublist ((hsub.filter _).map _), fun m hm => h.static m (hsub.subset hm),
    fun m hm m' hm' => h.states m (hsub.subset hm) m' (hsub.subset hm')⟩

theorem Distinct.perm {ms ms' : List MovementGenerator} (h : Distinct ms) (hperm : ms.Perm ms') :
    Distinct ms' :=
  ⟨((hperm.filter _).map _).nodup_iff.mp h.nodup, fun m hm => h.static m (hperm.mem_iff.mpr hm),
    fun m hm m' hm' => h.states m (hperm.mem_iff.mpr hm) m' (hperm.mem_iff.mpr hm')⟩

variable {ms : List MovementGenerator}

/-- A generator is not found again among the others. -/
theorem Distinct.ne_of_mem {m m' : MovementGenerator}
    (h : Distinct (m :: ms)) (hm' : m' ∈ ms) (hid : m.id ≠ 0) : m'.id ≠ m.id := by
  intro heq
  have hnodup := h.nodup
  rw [filter_cons_of_pos (by simpa using hid), map_cons, nodup_cons] at hnodup
  refine hnodup.1 (mem_map.mpr ⟨m', mem_filter.mpr ⟨hm', ?_⟩, heq⟩)
  simpa [heq] using hid

variable {a b : MovementGenerator}

/-- Generators of two parts of a list are different objects. -/
theorem Distinct.ne_of_append {as bs : List MovementGenerator}
    (h : Distinct (as ++ bs)) (ha : a ∈ as) (hb : b ∈ bs) (hid : a.id ≠ 0) : a.id ≠ b.id := by
  intro heq
  have hnodup := h.nodup
  rw [filter_append, map_append, nodup_append] at hnodup
  exact hnodup.2.2 a.id (mem_map_of_mem (mem_filter.mpr ⟨ha, by simpa using hid⟩))
    b.id (mem_map_of_mem (mem_filter.mpr ⟨hb, by simpa [← heq] using hid⟩)) heq

/-- Two generators of a list with one address are the same. -/
theorem Distinct.eq_of_id (h : Distinct ms) (ha : a ∈ ms) (hb : b ∈ ms) (heq : a.id = b.id) : a = b := by
  by_cases hid : a.id = 0
  · rw [h.static a ha hid, h.static b hb (heq ▸ hid)]
  · refine inj_on_of_nodup_map h.nodup (mem_filter.mpr ⟨ha, by simpa using hid⟩)
      (mem_filter.mpr ⟨hb, by simpa [← heq] using hid⟩) heq

/-! ### The invariant -/

namespace MotionMaster

/-- The generators in the slots. -/
def stored (s : MotionMaster) : List MovementGenerator :=
  s.defaultGenerator.toList ++ s.generators

/-- The generators of the queued operations. -/
def queued (s : MotionMaster) : List MovementGenerator :=
  s.delayedActions.flatMap Action.generators

end MotionMaster

/-- The call is `Finalize`. -/
def Call.isFinalize : Call → Bool
  | .finalize _ _ => true
  | _ => false

/-- A generator that waits to be initialised or reset by the first update: all but the static one, those
that are added initialised and immediate ones. -/
def Lazy (m : MovementGenerator) : Prop :=
  m.immediate = false ∧ (m.flags.initializationPending = true ∨ m.flags.deactivated = true)

/-- A generator is pending or deactivated, so `Update` will call it before it moves the unit. -/
def Resting (s : MotionMaster) (m : MovementGenerator) : Prop :=
  (s.flagsOf m).initializationPending = true ∨ (s.flagsOf m).deactivated = true

/-- The generator has been finalised. -/
def Finalized (s : MotionMaster) (id : ℕ) : Prop :=
  ∃ e ∈ s.trace, e.2 = id ∧ e.1.isFinalize = true

/-- The invariant of a motion master, with the generators that are still to come. -/
structure Sound (s : MotionMaster) (future : List MovementGenerator) : Prop where
  /-- One generator for each priority, the highest first. -/
  sorted : s.generators.Pairwise fun a b => a.priority > b.priority
  distinct : Distinct (s.stored ++ s.queued ++ future)
  /-- The map has the active generators with their base state. -/
  states : s.baseUnitStatesMap.Perm
    ((s.generators.filter (·.baseUnitState ≠ 0)).map fun m => (m.baseUnitState, m.id))
  /-- The unit has the bits of the active generators. -/
  unitState : ∀ i, s.unitState.testBit i = true ↔
    ∃ m ∈ s.generators, m.baseUnitState.testBit i = true
  /-- What is stored, queued or still to come has not been finalised. -/
  alive : ∀ m ∈ s.stored ++ s.queued ++ future, m.id ≠ 0 → ¬Finalized s m.id
  /-- No callback is called after `Finalize`. -/
  closed : s.trace.Pairwise fun e e' => e.1.isFinalize = true → e.2 ≠ 0 → e'.2 ≠ e.2
  /-- What has left its slot has been finalised. -/
  left : ∀ id ∈ s.entered, id ≠ 0 → (∃ m ∈ s.stored, m.id = id) ∨ Finalized s id
  /-- A generator below the current one is resting. -/
  resting : ∀ m ∈ s.stored, Lazy m → s.current.map MovementGenerator.id ≠ some m.id → Resting s m
  /-- A generator outside the slots has not been touched. -/
  untouched : ∀ m ∈ s.queued ++ future, Lazy m → s.flags m.id = none

variable {g : MovementGenerator}

variable {active movementInform : Bool}

variable {m' : MovementGenerator}

namespace MotionMaster

variable {s : MotionMaster} {future : List MovementGenerator} {m : MovementGenerator} {c : Call}

/-! ### Callbacks -/

@[simp] theorem call_generators : (s.call c m).generators = s.generators := rfl
@[simp] theorem call_current : (s.call c m).current = s.current := rfl
@[simp] theorem call_delayed : (s.call c m).delayed = s.delayed := rfl

/-- Only the map and the bits of the unit change when a base state is cleared. -/
theorem clearBaseUnitState_eq : s.clearBaseUnitState m =
    { s with
      baseUnitStatesMap := if m.baseUnitState = 0 then s.baseUnitStatesMap
        else s.baseUnitStatesMap.filter (· ≠ (m.baseUnitState, m.id))
      unitState := if m.baseUnitState = 0 then s.unitState
        else if (s.baseUnitStatesMap.filter (· ≠ (m.baseUnitState, m.id))).any
          (·.1 == m.baseUnitState) then s.unitState else s.unitState.ldiff m.baseUnitState } := by
  by_cases hzero : m.baseUnitState = 0
  · simp only [clearBaseUnitState, if_pos hzero]
  · simp only [clearBaseUnitState, if_neg hzero]

theorem removeAt_generators :
    (s.removeAt m active movementInform).generators =
      s.generators.filter (·.priority ≠ m.priority) := by
  rw [removeAt, clearBaseUnitState_eq]
  rfl

theorem removeAt_defaultGenerator :
    (s.removeAt m active movementInform).defaultGenerator = s.defaultGenerator := by
  rw [removeAt, clearBaseUnitState_eq]
  rfl

theorem mem_foldl_removeAt {active : MovementGenerator → Bool} {gs : List MovementGenerator} :
    g ∈ (gs.foldl (fun s m => s.removeAt m (active m) false) s).generators ↔
      g ∈ s.generators ∧ ∀ m ∈ gs, g.priority ≠ m.priority := by
  induction gs generalizing s with
  | nil => simp
  | cons m gs ih =>
    rw [foldl_cons, ih, removeAt_generators, mem_filter]
    simp only [decide_eq_true_eq, mem_cons, forall_eq_or_imp, and_assoc]

theorem flagsOf_call_self : (s.call c m).flagsOf m = c.effect m (s.flagsOf m) := by
  simp [flagsOf, call]

theorem flagsOf_call_of_ne (h : m'.id ≠ m.id) : (s.call c m).flagsOf m' = s.flagsOf m' := by
  simp [flagsOf, call, Function.update_of_ne h]

theorem flagsOf_removeAt_of_ne (h : m'.id ≠ m.id) : (s.removeAt m active movementInform).flagsOf m' = s.flagsOf m' := by
  rw [removeAt, clearBaseUnitState_eq]
  exact flagsOf_call_of_ne h

/-- `Remove` of a type there is. -/
theorem act_remove {type : MovementGeneratorType} {slot : MovementSlot} (htype : type ≠ .maxDb) :
    s.act (.remove type slot) =
      if s.delayed then { s with delayedActions := s.delayedActions ++ [.remove type slot] }
      else s.directAct (.remove type slot) := by
  cases type <;> first | rfl | exact absurd rfl htype

theorem finalized_call {id : ℕ} :
    Finalized (s.call c m) id ↔ Finalized s id ∨ (m.id = id ∧ c.isFinalize = true) := by
  simp [Finalized, call, exists_or]

end MotionMaster

theorem not_lazy_idle : ¬Lazy idleMovementGenerator := by
  rintro ⟨-, h | h⟩ <;> cases h

/-- A lazy generator is not the static one. -/
theorem Lazy.id_ne {m : MovementGenerator} (h : Lazy m) (hdistinct : Distinct ms) (hm : m ∈ ms) : m.id ≠ 0 :=
  fun hid => not_lazy_idle (hdistinct.static m hm hid ▸ h)

namespace Sound

variable {s : MotionMaster} {future : List MovementGenerator} {m : MovementGenerator} {c : Call}

section

variable (h : Sound s future)
include h

theorem id_ne_of_stored (hm : m ∈ s.stored) (hm' : m' ∈ s.queued ++ future) (hid : m'.id ≠ 0) : m.id ≠ m'.id := by
  have hdistinct := h.distinct
  rw [append_assoc] at hdistinct
  intro heq
  exact hdistinct.ne_of_append hm hm' (heq ▸ hid) heq

/-- A callback other than `Finalize` of a generator that has not been finalised. -/
theorem call (hc : c.isFinalize = false)
    (halive : m.id ≠ 0 → ¬Finalized s m.id)
    (hresting : ∀ g ∈ s.stored, Lazy g → s.current.map MovementGenerator.id ≠ some g.id →
      g.id = m.id → Resting (s.call c m) g)
    (huntouched : ∀ g ∈ s.queued ++ future, Lazy g → g.id ≠ m.id) : Sound (s.call c m) future where
  sorted := h.sorted
  distinct := h.distinct
  states := h.states
  unitState := h.unitState
  alive g hg hid := by
    rw [MotionMaster.finalized_call, hc]
    simpa using h.alive g hg hid
  closed := by
    refine pairwise_append.mpr ⟨h.closed, pairwise_singleton _ _, ?_⟩
    intro e he e' he' hfinalize hid
    obtain rfl := mem_singleton.mp he'
    intro heq
    have hmid : m.id = e.2 := heq
    exact halive (hmid ▸ hid) ⟨e, he, heq.symm, hfinalize⟩
  left id hid hne := by
    rcases h.left id hid hne with hstored | hfinalized
    · exact Or.inl hstored
    · exact Or.inr (MotionMaster.finalized_call.mpr (Or.inl hfinalized))
  resting g hg hlazy hcurrent := by
    by_cases heq : g.id = m.id
    · exact hresting g hg hlazy hcurrent heq
    · rw [Resting, MotionMaster.flagsOf_call_of_ne heq]
      exact h.resting g hg hlazy hcurrent
  untouched g hg hlazy := by
    have hne := huntouched g hg hlazy
    simp only [MotionMaster.call, Function.update_of_ne hne]
    exact h.untouched g hg hlazy

omit h in
theorem mem_stored_of_current (hm : s.current = some m) : m ∈ s.stored := by
  rw [current] at hm
  rw [stored, mem_append]
  cases hgenerators : s.generators with
  | nil =>
    rw [hgenerators] at hm
    exact Or.inl (by simpa using hm)
  | cons top rest =>
    rw [hgenerators] at hm
    exact Or.inr (by simpa [eq_comm] using Or.inl (Option.some.inj hm))

theorem alive_of_stored (hm : m ∈ s.stored) (hid : m.id ≠ 0) : ¬Finalized s m.id :=
  h.alive m (mem_append_left _ (mem_append_left _ hm)) hid

/-- A callback of the current generator. -/
theorem call_current (hm : s.current = some m) (hc : c.isFinalize = false) :
    Sound (s.call c m) future := by
  have hstored := mem_stored_of_current hm
  refine h.call hc (h.alive_of_stored hstored) (fun g _ _ hcurrent heq => ?_) fun g hg hlazy heq => ?_
  · rw [hm, Option.map_some, heq] at hcurrent
    exact absurd rfl hcurrent
  · have hid : g.id ≠ 0 := hlazy.id_ne h.distinct (by
      rw [append_assoc]
      exact mem_append_right _ hg)
    exact h.id_ne_of_stored hstored hg hid heq.symm

/-- `Deactivate` of a stored generator. -/
theorem deactivate (hm : m ∈ s.stored) : Sound (s.call .deactivate m) future := by
  refine h.call rfl (h.alive_of_stored hm) (fun g hg hlazy _ heq => ?_) fun g hg hlazy heq => ?_
  · have hmem : g ∈ s.stored ++ s.queued ++ future :=
      mem_append_left _ (mem_append_left _ hg)
    have hid := hlazy.id_ne h.distinct hmem
    have hstatic : isStatic m = false := by simpa [isStatic, ← heq] using hid
    have hself : (s.call .deactivate m).flagsOf g = (s.call .deactivate m).flagsOf m := by
      rw [h.distinct.eq_of_id hmem (mem_append_left _ (mem_append_left _ hm)) heq]
    rw [Resting, hself, flagsOf_call_self]
    exact Or.inr (by simp [Call.effect, hstatic])
  · have hid : g.id ≠ 0 := hlazy.id_ne h.distinct (by
      rw [append_assoc]
      exact mem_append_right _ hg)
    exact h.id_ne_of_stored hm hg hid heq.symm

omit h in
/-- `Initialize` of an immediate generator that is not stored. -/
theorem call_immediate (h : Sound s (m :: future)) (himmediate : m.immediate = true)
    (hc : c.isFinalize = false) : Sound (s.call c m) (m :: future) := by
  refine h.call hc (h.alive m (by simp)) (fun g hg hlazy _ heq => ?_) fun g hg hlazy heq => ?_
  · have hid := hlazy.id_ne h.distinct (mem_append_left _ (mem_append_left _ hg))
    exact absurd heq (h.id_ne_of_stored hg (by simp) (heq ▸ hid))
  · have hmem : g ∈ s.stored ++ s.queued ++ m :: future := by
      rw [append_assoc]
      exact mem_append_right _ hg
    have := h.distinct.eq_of_id hmem (mem_append_right _ mem_cons_self) heq
    rw [Lazy, this, himmediate] at hlazy
    cases hlazy.1

/-- A generator to come that is dropped. -/
theorem drop {future' : List MovementGenerator} (hsub : future'.Sublist future) : Sound s future' :=
  { h with
    distinct := h.distinct.sublist (List.Sublist.append_left hsub _)
    alive := fun g hg => h.alive g ((List.Sublist.append_left hsub _).subset hg)
    untouched := fun g hg => h.untouched g ((List.Sublist.append_left hsub _).subset hg) }

end

/-- An operation is queued, with its generators. -/
theorem delay (a : Action) (h : Sound s (a.generators ++ future)) :
    Sound { s with delayedActions := s.delayedActions ++ [a] } future := by
  have hqueued : queued { s with delayedActions := s.delayedActions ++ [a] } ++ future =
      s.queued ++ (a.generators ++ future) := by
    simp [queued]
  refine ⟨h.sorted, ?_, h.states, h.unitState, ?_, h.closed, h.left, h.resting, ?_⟩
  · rw [append_assoc, hqueued, ← append_assoc]
    exact h.distinct
  · rw [append_assoc, hqueued, ← append_assoc]
    exact h.alive
  · rw [hqueued]
    exact h.untouched

/-! ### Removal -/

theorem nodup_priority {gs : List MovementGenerator}
    (hsorted : gs.Pairwise fun a b => a.priority > b.priority) :
    (gs.map MovementGenerator.priority).Nodup :=
  pairwise_map.mpr (hsorted.imp fun hlt => Nat.ne_of_gt hlt)

/-- Two generators of the set with one priority are the same. -/
theorem eq_of_priority {gs : List MovementGenerator}
    (hsorted : gs.Pairwise fun a b => a.priority > b.priority) (ha : a ∈ gs) (hb : b ∈ gs)
    (heq : a.priority = b.priority) : a = b :=
  inj_on_of_nodup_map (nodup_priority hsorted) ha hb heq

/-- The set without the generator of one priority. -/
theorem mem_filter_priority (hsorted : s.generators.Pairwise fun a b => a.priority > b.priority)
    (hm : m ∈ s.generators) :
    g ∈ s.generators.filter (·.priority ≠ m.priority) ↔ g ∈ s.generators ∧ g ≠ m := by
  rw [mem_filter, decide_eq_true_eq]
  exact and_congr_right fun hg => not_congr
    ⟨fun heq => eq_of_priority hsorted hg hm heq, fun heq => congrArg _ heq⟩

theorem mem_stored_of_generators (hm : m ∈ s.generators) : m ∈ s.stored :=
  mem_append_right _ hm

theorem mem_owned_of_stored (hm : m ∈ s.stored) : m ∈ s.stored ++ s.queued ++ future :=
  mem_append_left _ (mem_append_left _ hm)

theorem mem_owned_of_generators (hm : m ∈ s.generators) : m ∈ s.stored ++ s.queued ++ future :=
  mem_owned_of_stored (mem_stored_of_generators hm)

section

variable (h : Sound s future) (hm : m ∈ s.generators)
include h hm

/-- The map without the pair of the generator. -/
private theorem states_erase :
    (s.baseUnitStatesMap.filter (· ≠ (m.baseUnitState, m.id))).Perm
      (((s.generators.filter (·.priority ≠ m.priority)).filter (·.baseUnitState ≠ 0)).map
        fun g => (g.baseUnitState, g.id)) := by
  refine (h.states.filter _).trans (List.Perm.of_eq ?_)
  rw [filter_map, filter_filter, filter_filter]
  refine congrArg _ (filter_congr fun g hg => ?_)
  have hpriority : g.priority = m.priority ↔ g = m :=
    ⟨fun heq => eq_of_priority h.sorted hg hm heq, fun heq => congrArg _ heq⟩
  have hpair : (g.baseUnitState, g.id) = (m.baseUnitState, m.id) ↔ g = m := by
    refine ⟨fun heq => ?_, fun heq => by rw [heq]⟩
    exact h.distinct.eq_of_id (mem_owned_of_generators hg) (mem_owned_of_generators hm)
      (Prod.mk.inj heq).2
  simp only [Function.comp_apply, ne_eq, hpriority, hpair, Bool.and_comm]

/-- A generator without base state is not in the map. -/
private theorem filter_erase (hzero : m.baseUnitState = 0) :
    (s.generators.filter (·.priority ≠ m.priority)).filter (·.baseUnitState ≠ 0) =
      s.generators.filter (·.baseUnitState ≠ 0) := by
  rw [filter_filter]
  refine filter_congr fun g hg => ?_
  by_cases hpriority : g.priority = m.priority
  · rw [eq_of_priority h.sorted hg hm hpriority, hzero]
    simp
  · simp [hpriority]

/-- The bits of the unit when one generator leaves. -/
private theorem unitState_erase (i : ℕ) :
    (if (s.baseUnitStatesMap.filter (· ≠ (m.baseUnitState, m.id))).any (·.1 == m.baseUnitState)
      then s.unitState else s.unitState.ldiff m.baseUnitState).testBit i = true ↔
      ∃ g ∈ s.generators.filter (·.priority ≠ m.priority), g.baseUnitState.testBit i = true := by
  have hany : (s.baseUnitStatesMap.filter (· ≠ (m.baseUnitState, m.id))).any
      (·.1 == m.baseUnitState) = true ↔ ∃ g ∈ s.generators, g ≠ m ∧ g.baseUnitState ≠ 0 ∧
        g.baseUnitState = m.baseUnitState := by
    simp only [any_eq_true, (states_erase h hm).mem_iff, mem_map]
    constructor
    · rintro ⟨e, ⟨g, hmem, rfl⟩, heq⟩
      obtain ⟨hg, hzero⟩ := mem_filter.mp hmem
      obtain ⟨hg, hne⟩ := (mem_filter_priority h.sorted hm).mp hg
      exact ⟨g, hg, hne, by simpa using hzero, by simpa using heq⟩
    · rintro ⟨g, hg, hne, hzero, heq⟩
      have hmem := (mem_filter_priority h.sorted hm).mpr ⟨hg, hne⟩
      exact ⟨_, ⟨g, mem_filter.mpr ⟨hmem, by simpa using hzero⟩, rfl⟩, by simpa using heq⟩
  simp only [mem_filter_priority h.sorted hm]
  split_ifs with hshared
  · rw [h.unitState]
    obtain ⟨g', hg', hne', -, heq'⟩ := hany.mp hshared
    constructor
    · rintro ⟨g, hg, hbit⟩
      by_cases hgm : g = m
      · exact ⟨g', ⟨hg', hne'⟩, by rw [heq', ← hgm, hbit]⟩
      · exact ⟨g, ⟨hg, hgm⟩, hbit⟩
    · rintro ⟨g, ⟨hg, -⟩, hbit⟩
      exact ⟨g, hg, hbit⟩
  · rw [Nat.testBit_ldiff, Bool.and_eq_true, h.unitState]
    constructor
    · rintro ⟨⟨g, hg, hbit⟩, hnot⟩
      refine ⟨g, ⟨hg, fun heq => ?_⟩, hbit⟩
      rw [← heq, hbit] at hnot
      cases hnot
    · rintro ⟨g, ⟨hg, hne⟩, hbit⟩
      refine ⟨⟨g, hg, hbit⟩, ?_⟩
      have hzero : g.baseUnitState ≠ 0 := by
        intro hzero
        rw [hzero, Nat.zero_testBit] at hbit
        cases hbit
      rcases h.distinct.states g (mem_owned_of_generators hg) m (mem_owned_of_generators hm) with
        heq | hdisjoint
      · exact absurd (hany.mpr ⟨g, hg, hne, hzero, heq⟩) hshared
      · have hand := congrArg (·.testBit i) hdisjoint
        simpa [hbit] using hand

end

/-- The current generator once another has left the set. -/
theorem current_erase (hsorted : s.generators.Pairwise fun a b => a.priority > b.priority)
    (hm : m ∈ s.generators) (hcurrent : s.current ≠ some m) :
    ({ s with generators := s.generators.filter (·.priority ≠ m.priority) } :
      MotionMaster).current = s.current := by
  rw [current, current]
  cases hgenerators : s.generators with
  | nil => rfl
  | cons top rest =>
    have hne : top.priority ≠ m.priority := by
      intro heq
      refine hcurrent ?_
      have := eq_of_priority hsorted (by rw [hgenerators]; exact mem_cons_self) hm heq
      rw [current, hgenerators, this]
      rfl
    rw [filter_cons_of_pos (by simpa using hne)]
    rfl

section

variable (h : Sound s future)
include h

/-- Of a list of distinct generators and one of them, the others have another address. -/
theorem id_ne_of_erase (hm : m ∈ s.generators)
    (hg : g ∈ s.defaultGenerator.toList ++ s.generators.filter (·.priority ≠ m.priority) ++
      s.queued ++ future) (hid : g.id ≠ 0) : g.id ≠ m.id := by
  intro heq
  have hdistinct := h.distinct
  have hperm : (s.stored ++ s.queued ++ future).Perm (m :: (s.defaultGenerator.toList ++
      s.generators.filter (·.priority ≠ m.priority) ++ s.queued ++ future)) := by
    have hgenerators : s.generators.Perm
        (m :: s.generators.filter (·.priority ≠ m.priority)) := by
      simpa using Keyed.perm_cons_filter (nodup_priority h.sorted) hm
    refine ((((hgenerators.append_left _).trans perm_middle).append_right _).append_right _).trans
      (List.Perm.of_eq ?_)
    simp
  exact (hdistinct.perm hperm).ne_of_mem hg (heq ▸ hid) heq

/-- A generator leaves its slot and is finalised. -/
theorem leave (hm : m ∈ s.stored) {d : Option MovementGenerator}
    {gs : List MovementGenerator} {map : List (ℕ × ℕ)} {bits : ℕ} (active movementInform : Bool)
    (hsub : (d.toList ++ gs).Sublist s.stored)
    (hsorted : gs.Pairwise fun a b => a.priority > b.priority)
    (hne : ∀ g ∈ d.toList ++ gs ++ s.queued ++ future, g.id ≠ 0 → g.id ≠ m.id)
    (hrest : ∀ g ∈ s.stored, g.id ≠ m.id → g ∈ d.toList ++ gs)
    (hcurrent : ∀ g ∈ d.toList ++ gs, g.id ≠ m.id → s.current.map MovementGenerator.id = some g.id →
      (gs.head?.or d).map MovementGenerator.id = some g.id)
    (hstates : map.Perm ((gs.filter (·.baseUnitState ≠ 0)).map fun g => (g.baseUnitState, g.id)))
    (hunitState : ∀ i, bits.testBit i = true ↔ ∃ g ∈ gs, g.baseUnitState.testBit i = true) :
    Sound { s.call (.finalize active movementInform) m with
      defaultGenerator := d, generators := gs, baseUnitStatesMap := map, unitState := bits }
      future := by
  have howned := (hsub.append_right s.queued).append_right future
  refine ⟨hsorted, h.distinct.sublist howned, hstates, hunitState, ?_, ?_, ?_, ?_, ?_⟩
  · intro g hg hid
    rintro ⟨e, he, heq, hfinalize⟩
    rcases mem_append.mp he with he | he
    · exact h.alive g (howned.subset hg) hid ⟨e, he, heq, hfinalize⟩
    · obtain rfl := mem_singleton.mp he
      exact hne g hg hid heq.symm
  · refine pairwise_append.mpr ⟨h.closed, pairwise_singleton _ _, ?_⟩
    intro e he e' he' hfinalize hid
    obtain rfl := mem_singleton.mp he'
    intro heq
    have hmid : m.id = e.2 := heq
    exact h.alive_of_stored hm (hmid ▸ hid) ⟨e, he, heq.symm, hfinalize⟩
  · intro id hid hzero
    rcases h.left id hid hzero with ⟨g, hg, rfl⟩ | ⟨e, he, heq, hfinalize⟩
    · by_cases hgm : g.id = m.id
      · refine Or.inr ⟨(.finalize active movementInform, m.id), ?_, hgm.symm, rfl⟩
        exact mem_append_right _ (mem_singleton.mpr rfl)
      · exact Or.inl ⟨g, hrest g hg hgm, rfl⟩
    · exact Or.inr ⟨e, mem_append_left _ he, heq, hfinalize⟩
  · intro g hg hlazy hnot
    have hid := hlazy.id_ne h.distinct (mem_owned_of_stored (hsub.subset hg))
    have hgm := hne g (mem_append_left _ (mem_append_left _ hg)) hid
    have hresting := h.resting g (hsub.subset hg) hlazy fun hg' => hnot (hcurrent g hg hgm hg')
    have hflags := MotionMaster.flagsOf_call_of_ne (s := s) (c := .finalize active movementInform) hgm
    rw [Resting] at hresting ⊢
    exact hflags ▸ hresting
  · intro g hg hlazy
    have hg' : g ∈ s.queued ++ future := hg
    have hmem : g ∈ d.toList ++ gs ++ s.queued ++ future := by
      rw [append_assoc]
      exact mem_append_right _ hg'
    have hgm := hne g hmem (hlazy.id_ne h.distinct (howned.subset hmem))
    have huntouched := h.untouched g hg' hlazy
    simpa [MotionMaster.call, Function.update_of_ne hgm] using huntouched

/-- A generator is taken out of the set. -/
theorem removeAt (hm : m ∈ s.generators) (active movementInform : Bool) :
    Sound (s.removeAt m active movementInform) future := by
  rw [MotionMaster.removeAt, MotionMaster.clearBaseUnitState_eq]
  have hsub : (s.generators.filter (·.priority ≠ m.priority)).Sublist s.generators := filter_sublist
  refine h.leave (mem_stored_of_generators hm) active movementInform
    (List.Sublist.append_left hsub _) (h.sorted.sublist hsub) (fun g hg => h.id_ne_of_erase hm hg)
    (fun g hg hgm => ?_) (fun g _ hgm hcurrent => ?_) ?_ fun i => ?_
  · rcases mem_append.mp hg with hg | hg
    · exact mem_append_left _ hg
    · refine mem_append_right _ ((mem_filter_priority h.sorted hm).mpr ⟨hg, fun heq => ?_⟩)
      exact hgm (congrArg _ heq)
  · have hcurrentm : s.current ≠ some m := by
      intro heq
      rw [heq, Option.map_some, Option.some_inj] at hcurrent
      exact hgm hcurrent.symm
    exact (congrArg (Option.map MovementGenerator.id)
      (current_erase h.sorted hm hcurrentm)).trans hcurrent
  · by_cases hzero : m.baseUnitState = 0
    · have hstates := h.states
      rw [← filter_erase h hm hzero] at hstates
      simp only [hzero]
      exact hstates
    · simp only [hzero]
      exact states_erase h hm
  · by_cases hzero : m.baseUnitState = 0
    · simp only [hzero]
      refine (h.unitState i).trans ⟨?_, fun ⟨g, hg, hbit⟩ => ⟨g, hsub.subset hg, hbit⟩⟩
      rintro ⟨g, hg, hbit⟩
      refine ⟨g, (mem_filter_priority h.sorted hm).mpr ⟨hg, fun heq => ?_⟩, hbit⟩
      rw [heq, hzero, Nat.zero_testBit] at hbit
      cases hbit
    · simp only [hzero]
      exact unitState_erase h hm i

/-- The default generator is finalised and its slot empty. -/
theorem leaveDefault (hm : s.defaultGenerator = some m) (active movementInform : Bool) :
    Sound { s.call (.finalize active movementInform) m with defaultGenerator := none } future := by
  have hstored : s.stored = m :: s.generators := by rw [stored, hm]; rfl
  refine @Sound.leave _ _ _ h (by rw [hstored]; exact mem_cons_self) none s.generators
    s.baseUnitStatesMap s.unitState active movementInform ?_ h.sorted (fun g hg hid => ?_)
    (fun g hg hgm => ?_) (fun g hg hgm hcurrent => ?_) h.states h.unitState
  · rw [hstored]
    exact sublist_cons_self m s.generators
  · have hdistinct := h.distinct
    rw [hstored] at hdistinct
    exact fun heq => hdistinct.ne_of_mem hg (heq ▸ hid) heq
  · rw [hstored] at hg
    rcases mem_cons.mp hg with rfl | hg
    · exact absurd rfl hgm
    · exact hg
  · cases hgenerators : s.generators with
    | nil =>
      rw [hgenerators] at hg
      cases hg
    | cons top rest =>
      rw [current, hgenerators] at hcurrent
      exact hcurrent

end

/-! ### Addition -/

/-- A new default generator in an empty slot. -/
theorem enterDefault (h : Sound s (m :: future)) (hnone : s.defaultGenerator = none) {es : List ℕ}
    (hes : ∀ id ∈ es, id ∈ s.entered ∨ id = m.id) (pending : Bool) :
    Sound { s with
      defaultGenerator := some m, staticInitializationPending := pending, entered := es } future := by
  have hstored : s.stored = s.generators := by rw [stored, hnone]; rfl
  have hperm : (s.stored ++ s.queued ++ m :: future).Perm (m :: s.generators ++ s.queued ++ future) := by
    rw [hstored]
    refine perm_middle.trans (List.Perm.of_eq ?_)
    simp
  refine ⟨h.sorted, h.distinct.perm hperm, h.states, h.unitState,
    fun g hg => h.alive g (hperm.mem_iff.mpr hg), h.closed, ?_, ?_, ?_⟩
  · intro id hid hzero
    rcases hes id hid with hid | rfl
    · rcases h.left id hid hzero with ⟨g, hg, heq⟩ | hfinalized
      · rw [hstored] at hg
        exact Or.inl ⟨g, mem_cons_of_mem m hg, heq⟩
      · exact Or.inr hfinalized
    · exact Or.inl ⟨m, mem_cons_self, rfl⟩
  · intro g hg hlazy hnot
    rcases mem_cons.mp hg with rfl | hg
    · have huntouched := h.untouched g (by simp) hlazy
      have hflags : s.flagsOf g = g.flags := by rw [flagsOf, huntouched]; rfl
      have hresting : Resting s g := by
        rw [Resting, hflags]
        exact hlazy.2
      exact hresting
    · refine h.resting g (hstored ▸ hg) hlazy fun hcurrent => hnot ?_
      rw [current, hnone] at hcurrent
      cases hgenerators : s.generators with
      | nil =>
        rw [hgenerators] at hg
        cases hg
      | cons top rest =>
        rw [hgenerators] at hcurrent
        exact hcurrent
  · exact fun g hg => h.untouched g ((List.Sublist.append_left (sublist_cons_self m future) _).subset hg)

/-- The static generator can always come again. -/
theorem addIdle (h : Sound s future) : Sound s (idleMovementGenerator :: future) := by
  have hperm : (s.stored ++ s.queued ++ idleMovementGenerator :: future).Perm
      (idleMovementGenerator :: (s.stored ++ s.queued ++ future)) := perm_middle
  have hdistinct : Distinct (idleMovementGenerator :: (s.stored ++ s.queued ++ future)) := by
    refine ⟨h.distinct.nodup, ?_, ?_⟩
    · intro g hg hid
      rcases mem_cons.mp hg with rfl | hg
      · rfl
      · exact h.distinct.static g hg hid
    · intro g hg g' hg'
      rcases mem_cons.mp hg with rfl | hg
      · exact Or.inr (Nat.zero_and _)
      · rcases mem_cons.mp hg' with rfl | hg'
        · exact Or.inr (Nat.and_zero _)
        · exact h.distinct.states g hg g' hg'
  refine ⟨h.sorted, hdistinct.perm hperm.symm, h.states, h.unitState, ?_, h.closed, h.left,
    h.resting, ?_⟩
  · intro g hg hid
    rcases mem_cons.mp (hperm.mem_iff.mp hg) with rfl | hg
    · exact absurd rfl hid
    · exact h.alive g hg hid
  · intro g hg hlazy
    have hg' : g ∈ idleMovementGenerator :: (s.queued ++ future) :=
      (perm_middle.mem_iff (a := g)).mp hg
    rcases mem_cons.mp hg' with rfl | hg'
    · exact absurd hlazy not_lazy_idle
    · exact h.untouched g hg' hlazy

theorem directClearDefault (h : Sound s future) : Sound s.directClearDefault future := by
  rw [MotionMaster.directClearDefault]
  cases hdefault : s.defaultGenerator with
  | none => exact h
  | some m =>
    exact (h.leaveDefault hdefault s.generators.isEmpty false).addIdle.enterDefault rfl
      (fun _ hid => Or.inl hid) true

theorem directAddDefault (h : Sound s (m :: future)) : Sound (s.directAddDefault m) future := by
  have hes : ∀ id ∈ s.entered ++ [m.id], id ∈ s.entered ∨ id = m.id := by
    simpa using hid
  rw [MotionMaster.directAddDefault]
  cases hdefault : s.defaultGenerator with
  | none => exact h.enterDefault hdefault hes _
  | some old => exact (h.leaveDefault hdefault s.generators.isEmpty false).enterDefault rfl hes _

/-- The generators that a filter selects leave one after the other. -/
theorem foldl_removeAt {active : MovementGenerator → Bool} {gs : List MovementGenerator}
    (hgs : gs.Pairwise fun a b => a.priority > b.priority) (h : Sound s future)
    (hsub : ∀ g ∈ gs, g ∈ s.generators) :
    Sound (gs.foldl (fun s m => s.removeAt m (active m) false) s) future := by
  induction gs generalizing s with
  | nil => exact h
  | cons g gs ih =>
    obtain ⟨hlt, hgs⟩ := pairwise_cons.mp hgs
    refine ih hgs (h.removeAt (hsub g mem_cons_self) _ _) fun g' hg' => ?_
    rw [removeAt_generators]
    refine mem_filter.mpr ⟨hsub g' (mem_cons_of_mem g hg'), ?_⟩
    simpa using Nat.ne_of_lt (hlt g' hg')

theorem directClearWhere (h : Sound s future) (filter : MovementGenerator → Bool) :
    Sound (s.directClearWhere filter) future :=
  h.foldl_removeAt (h.sorted.sublist filter_sublist) fun _ hg => mem_of_mem_filter hg

/-- With the set empty there is nothing to clear. -/
theorem clearBaseUnitStates (h : Sound s future) (hnil : s.generators = []) :
    Sound s.clearBaseUnitStates future := by
  have hstates := h.states
  rw [hnil] at hstates
  have hmap : s.baseUnitStatesMap = [] := hstates.eq_nil
  have hunitState := h.unitState
  refine ⟨h.sorted, h.distinct, ?_, fun i => ?_, h.alive, h.closed, h.left, h.resting, h.untouched⟩
  · rw [MotionMaster.clearBaseUnitStates]
    rw [hnil]
    exact List.Perm.refl _
  · have hbit := hunitState i
    rw [MotionMaster.clearBaseUnitStates, hmap]
    simpa [Nat.testBit_ldiff] using hbit

theorem directClear (h : Sound s future) : Sound s.directClear future := by
  rw [MotionMaster.directClear]
  cases hgenerators : s.generators with
  | nil => exact h.clearBaseUnitStates hgenerators
  | cons top rest =>
    have hsorted := h.sorted
    rw [hgenerators] at hsorted
    obtain ⟨hlt, hrest⟩ := pairwise_cons.mp hsorted
    have htop := h.removeAt (m := top) (by rw [hgenerators]; exact mem_cons_self) true false
    have hmem : ∀ {g}, g ∈ (s.removeAt top true false).generators ↔ g ∈ rest := by
      intro g
      rw [MotionMaster.removeAt_generators, hgenerators, mem_filter, mem_cons]
      constructor
      · rintro ⟨rfl | hg, hne⟩
        · simp at hne
        · exact hg
      · exact fun hg => ⟨Or.inr hg, by simpa using Nat.ne_of_lt (hlt g hg)⟩
    refine (@Sound.foldl_removeAt _ _ (fun _ => false) _ hrest htop fun g hg => hmem.mpr hg).clearBaseUnitStates ?_
    refine eq_nil_iff_forall_not_mem.mpr fun g hg => ?_
    obtain ⟨hg, hne⟩ := MotionMaster.mem_foldl_removeAt.mp hg
    exact hne g (hmem.mp hg) rfl

/-! ### The active slot -/

/-- The lower bound is the first generator whose priority is not higher. -/
theorem lowerBound_spec {gs : List MovementGenerator}
    (hsorted : gs.Pairwise fun a b => a.priority > b.priority)
    (h : lowerBound gs m = some g) :
    g ∈ gs ∧ g.priority ≤ m.priority ∧
      ∀ g' ∈ gs, g'.priority ≤ m.priority → g'.priority ≤ g.priority := by
  refine ⟨mem_of_find?_eq_some h, by simpa using List.find?_some h, ?_⟩
  induction gs with
  | nil => cases h
  | cons a gs ih =>
    obtain ⟨hlt, hgs⟩ := pairwise_cons.mp hsorted
    rw [lowerBound, List.find?_cons] at h
    intro g' hg' hle
    split at h
    · rcases mem_cons.mp hg' with rfl | hg'
      · exact Nat.le_of_eq (congrArg _ (Option.some.inj h))
      · exact Option.some.inj h ▸ Nat.le_of_lt (hlt g' hg')
    · rename_i hhigher
      rcases mem_cons.mp hg' with rfl | hg'
      · simp at hhigher
        omega
      · exact ih hgs h g' hg' hle

theorem lowerBound_eq_none {gs : List MovementGenerator}
    (h : lowerBound gs m = none) (hg : g ∈ gs) :
    g.priority > m.priority := by
  simpa using List.find?_eq_none.mp h g hg

/-- The set has room for a generator: none has its priority, and the current one is resting when the new
one comes first. -/
structure Room (s : MotionMaster) (m : MovementGenerator) : Prop where
  ne : ∀ g ∈ s.generators, g.priority ≠ m.priority
  resting : ∀ g, s.current = some g → (∀ g' ∈ s.generators, m.priority > g'.priority) → Lazy g →
    Resting s g

/-- The current generator after `Deactivate`. -/
theorem resting_deactivate (h : Sound s future) (hm : m ∈ s.stored) (hlazy : Lazy m) :
    Resting (s.call .deactivate m) m := by
  have hid := hlazy.id_ne h.distinct (mem_owned_of_stored hm)
  have hstatic : isStatic m = false := by simpa [isStatic] using hid
  rw [Resting, flagsOf_call_self]
  exact Or.inr (by simp [Call.effect, hstatic])

/-- The generator that becomes the current one when another is taken out is resting. -/
theorem resting_removeAt (h : Sound s future) (hm : m ∈ s.generators)
    {a : MovementGenerator} (ha : (s.removeAt m active movementInform).current = some a)
    (hlazy : Lazy a) (hcurrent : s.current = some m) :
    Resting (s.removeAt m active movementInform) a := by
  have hstored := mem_stored_of_current ha
  rw [stored, removeAt_generators,
    removeAt_defaultGenerator] at hstored
  have hold : a ∈ s.stored :=
    (List.Sublist.append_left filter_sublist s.defaultGenerator.toList).subset hstored
  have hid := hlazy.id_ne h.distinct (mem_owned_of_stored hold)
  have hne := h.id_ne_of_erase hm (mem_append_left _ (mem_append_left _ hstored)) hid
  have hresting := h.resting a hold hlazy fun heq => hne ?_
  · rw [Resting, flagsOf_removeAt_of_ne hne]
    exact hresting
  · rw [hcurrent, Option.map_some, Option.some_inj] at heq
    exact heq.symm

/-- **Room is made** for a new generator. -/
theorem makePlace (h : Sound s (m :: future)) : Sound (s.makePlace m) (m :: future) ∧
    (m.immediate = false → Room (s.makePlace m) m) := by
  rw [MotionMaster.makePlace]
  cases hgenerators : s.generators with
  | nil =>
    cases hdefault : s.defaultGenerator with
    | none =>
      refine ⟨h, fun _ => ⟨fun g hg => ?_, fun g hg => ?_⟩⟩
      · rw [hgenerators] at hg
        cases hg
      · rw [MotionMaster.current, hgenerators, hdefault] at hg
        cases hg
    | some d =>
      have hcurrent : s.current = some d := by
        rw [MotionMaster.current, hgenerators, hdefault]
        rfl
      have hd := mem_stored_of_current hcurrent
      refine ⟨h.deactivate hd, fun _ => ⟨fun g hg => ?_, fun g hg _ hlazy => ?_⟩⟩
      · rw [MotionMaster.call_generators, hgenerators] at hg
        cases hg
      · rw [MotionMaster.call_current, hcurrent, Option.some_inj] at hg
        exact hg ▸ h.resting_deactivate hd (hg ▸ hlazy)
  | cons top rest =>
    have hsorted := h.sorted
    rw [hgenerators] at hsorted
    have htop : top ∈ s.generators := by rw [hgenerators]; exact mem_cons_self
    have hcurrent : s.current = some top := by
      rw [MotionMaster.current, hgenerators]
      rfl
    cases hbound : MotionMaster.lowerBound (top :: rest) m with
    | none =>
      simp only [hbound]
      have hhigher : ∀ g ∈ s.generators, g.priority > m.priority := fun g hg =>
        lowerBound_eq_none hbound (hgenerators ▸ hg)
      refine ⟨h, fun _ => ⟨fun g hg => Nat.ne_of_gt (hhigher g hg), fun g _ hfirst => ?_⟩⟩
      have := hfirst top htop
      have := hhigher top htop
      omega
    | some g =>
      obtain ⟨hg, hle, hlast⟩ := lowerBound_spec hsorted hbound
      have hg' : g ∈ s.generators := hgenerators ▸ hg
      simp only [hbound]
      have hbelow : g ≠ top → top.priority > g.priority := by
        intro hne
        rcases mem_cons.mp hg with rfl | hrest
        · exact absurd rfl hne
        · exact (pairwise_cons.mp hsorted).1 g hrest
      split_ifs with hreplace hfirst
      · simp only [Bool.and_eq_true, Bool.not_eq_true', decide_eq_false_iff_not] at hreplace
        have heq : g.priority = m.priority := by omega
        refine ⟨h.removeAt hg' _ _, fun _ => ⟨fun a ha => ?_, fun a ha hfirst hlazy => ?_⟩⟩
        · rw [MotionMaster.removeAt_generators] at ha
          simpa [heq] using (mem_filter.mp ha).2
        · refine h.resting_removeAt hg' ha hlazy (hcurrent.trans (congrArg some ?_))
          by_contra hne
          have hgt := hbelow fun heq => hne heq.symm
          have hmem : top ∈ (s.removeAt g (g.id == top.id) false).generators := by
            rw [MotionMaster.removeAt_generators]
            exact mem_filter.mpr ⟨htop, by simpa using Nat.ne_of_gt hgt⟩
          have := hfirst top hmem
          omega
      · refine ⟨h.deactivate (mem_stored_of_generators htop), fun himmediate => ⟨?_, ?_⟩⟩
        · intro a ha heq
          have := hlast a (hgenerators ▸ ha) (Nat.le_of_eq heq)
          simp only [himmediate, Bool.not_false, Bool.true_and, Bool.not_eq_true',
            decide_eq_false_iff_not] at hreplace
          omega
        · intro a ha _ hlazy
          rw [MotionMaster.call_current, hcurrent, Option.some_inj] at ha
          subst ha
          exact h.resting_deactivate (mem_stored_of_generators htop) hlazy
      · have hgt := hbelow fun heq => hfirst (by simp [heq])
        refine ⟨h, fun himmediate => ⟨fun a ha heq => ?_, fun a _ hfirst' => ?_⟩⟩
        · have := hlast a (hgenerators ▸ ha) (Nat.le_of_eq heq)
          simp only [himmediate, Bool.not_false, Bool.true_and, Bool.not_eq_true',
            decide_eq_false_iff_not] at hreplace
          omega
        · -- the current one keeps its place, so the new one does not come first
          have hhigher : ¬top.priority ≤ m.priority := fun hle' => by
            have := hlast top mem_cons_self hle'
            omega
          have := hfirst' top htop
          omega

/-- A new priority finds its place in the set. -/
theorem insert_perm {gs : List MovementGenerator} (hne : ∀ g ∈ gs, g.priority ≠ m.priority) :
    (MotionMaster.insert m gs).Perm (m :: gs) := by
  induction gs with
  | nil => exact List.Perm.refl _
  | cons g gs ih =>
    have hg := hne g mem_cons_self
    rw [MotionMaster.insert]
    split_ifs with hlt hgt
    · exact List.Perm.refl _
    · exact ((ih fun a ha => hne a (mem_cons_of_mem g ha)).cons g).trans (List.Perm.swap m g gs)
    · omega

theorem insert_sorted {gs : List MovementGenerator} (hne : ∀ g ∈ gs, g.priority ≠ m.priority)
    (hsorted : gs.Pairwise fun a b => a.priority > b.priority) :
    (MotionMaster.insert m gs).Pairwise fun a b => a.priority > b.priority := by
  induction gs with
  | nil => exact pairwise_singleton _ _
  | cons g gs ih =>
    obtain ⟨hlt, hgs⟩ := pairwise_cons.mp hsorted
    have hne' : ∀ a ∈ gs, a.priority ≠ m.priority := fun a ha => hne a (mem_cons_of_mem g ha)
    rw [MotionMaster.insert]
    split_ifs with hfirst hlater
    · refine pairwise_cons.mpr ⟨fun a ha => ?_, hsorted⟩
      rcases mem_cons.mp ha with rfl | ha
      · exact hfirst
      · have := hlt a ha
        omega
    · refine pairwise_cons.mpr ⟨fun a ha => ?_, ih hne' hgs⟩
      rcases mem_cons.mp ((insert_perm hne').mem_iff.mp ha) with rfl | ha
      · exact hlater
      · exact hlt a ha
    · exact hsorted

/-- The first of the set after the insertion. -/
theorem head_insert {gs : List MovementGenerator}
    (hsorted : gs.Pairwise fun a b => a.priority > b.priority)
    (hne : ∀ g ∈ gs, g.priority ≠ m.priority) :
    ((MotionMaster.insert m gs).head? = some m ∧ ∀ g ∈ gs, m.priority > g.priority) ∨
      ((MotionMaster.insert m gs).head? = gs.head? ∧ gs ≠ []) := by
  cases gs with
  | nil => exact Or.inl ⟨rfl, by simp⟩
  | cons g gs =>
    rw [MotionMaster.insert]
    split_ifs with hfirst hlater
    · refine Or.inl ⟨rfl, fun a ha => ?_⟩
      rcases mem_cons.mp ha with rfl | ha
      · exact hfirst
      · have := (pairwise_cons.mp hsorted).1 a ha
        omega
    · exact Or.inr ⟨rfl, cons_ne_nil _ _⟩
    · exact Or.inr ⟨rfl, cons_ne_nil _ _⟩

variable (slot : MovementSlot)

section

variable (h : Sound s (m :: future))
include h

/-- A new generator in the set. -/
theorem enterActive (hroom : Room s m) :
    Sound ({ s with
      entered := s.entered ++ [m.id]
      generators := MotionMaster.insert m s.generators }.addBaseUnitState m) future := by
  have hperm := insert_perm hroom.ne
  have heq : ({ s with
      entered := s.entered ++ [m.id]
      generators := MotionMaster.insert m s.generators } : MotionMaster).addBaseUnitState m = { s with
        entered := s.entered ++ [m.id]
        generators := MotionMaster.insert m s.generators
        baseUnitStatesMap := if m.baseUnitState = 0 then s.baseUnitStatesMap
          else s.baseUnitStatesMap ++ [(m.baseUnitState, m.id)]
        unitState := s.unitState ||| m.baseUnitState } := by
    by_cases hzero : m.baseUnitState = 0
    · simp [MotionMaster.addBaseUnitState, hzero]
    · simp [MotionMaster.addBaseUnitState, hzero]
  have howned : (s.stored ++ s.queued ++ m :: future).Perm
      (s.defaultGenerator.toList ++ MotionMaster.insert m s.generators ++ s.queued ++ future) := by
    refine perm_middle.trans ?_
    refine List.Perm.trans ?_ (((hperm.symm.append_left _).append_right _).append_right _)
    rw [MotionMaster.stored]
    refine List.Perm.trans (List.Perm.of_eq (by simp)) ((perm_middle.symm.append_right _).append_right _)
  rw [heq]
  refine ⟨insert_sorted hroom.ne h.sorted, h.distinct.perm howned, ?_, fun i => ?_,
    fun g hg => h.alive g (howned.mem_iff.mpr hg), h.closed, ?_, ?_, ?_⟩
  · have hfilter := hperm.filter fun g => decide (g.baseUnitState ≠ 0)
    have hmap := hfilter.map fun g : MovementGenerator => (g.baseUnitState, g.id)
    refine List.Perm.trans ?_ hmap.symm
    by_cases hzero : m.baseUnitState = 0
    · simpa [hzero] using h.states
    · rw [filter_cons_of_pos (by simpa using hzero), map_cons]
      simp only [hzero]
      exact (h.states.append_right _).trans (perm_append_singleton _ _)
  · rw [Nat.testBit_or, Bool.or_eq_true, h.unitState]
    constructor
    · rintro (⟨g, hg, hbit⟩ | hbit)
      · exact ⟨g, hperm.mem_iff.mpr (mem_cons_of_mem m hg), hbit⟩
      · exact ⟨m, hperm.mem_iff.mpr mem_cons_self, hbit⟩
    · rintro ⟨g, hg, hbit⟩
      rcases mem_cons.mp (hperm.mem_iff.mp hg) with rfl | hg
      · exact Or.inr hbit
      · exact Or.inl ⟨g, hg, hbit⟩
  · intro id hid hzero
    rcases mem_append.mp hid with hid | hid
    · rcases h.left id hid hzero with ⟨g, hg, heq⟩ | hfinalized
      · refine Or.inl ⟨g, ?_, heq⟩
        rcases mem_append.mp hg with hg | hg
        · exact mem_append_left _ hg
        · exact mem_append_right _ (hperm.mem_iff.mpr (mem_cons_of_mem m hg))
      · exact Or.inr hfinalized
    · obtain rfl := mem_singleton.mp hid
      exact Or.inl ⟨m, mem_append_right _ (hperm.mem_iff.mpr mem_cons_self), rfl⟩
  · intro g hg hlazy hnot
    have hg' : g = m ∨ g ∈ s.stored := by
      rcases mem_append.mp hg with hg | hg
      · exact Or.inr (mem_append_left _ hg)
      · rcases mem_cons.mp (hperm.mem_iff.mp hg) with rfl | hg
        · exact Or.inl rfl
        · exact Or.inr (mem_append_right _ hg)
    rcases hg' with rfl | hg'
    · have hflags : s.flagsOf g = g.flags := by
        rw [MotionMaster.flagsOf, h.untouched g (by simp) hlazy]
        rfl
      have hresting : Resting s g := by
        rw [Resting, hflags]
        exact hlazy.2
      exact hresting
    · by_cases hcurrent : s.current.map MovementGenerator.id = some g.id
      · obtain ⟨c, hc, hid⟩ := Option.map_eq_some_iff.mp hcurrent
        obtain rfl : c = g := h.distinct.eq_of_id (mem_owned_of_stored (mem_stored_of_current hc))
          (mem_owned_of_stored hg') hid
        rcases head_insert h.sorted hroom.ne with ⟨-, hfirst⟩ | ⟨hhead, -⟩
        · exact hroom.resting c hc hfirst hlazy
        · refine absurd ?_ hnot
          have hsame : ({ s with
              entered := s.entered ++ [m.id]
              generators := MotionMaster.insert m s.generators } : MotionMaster).current =
                s.current := by
            exact congrArg (Option.or · s.defaultGenerator) hhead
          exact (congrArg _ hsame).trans hcurrent
      · exact h.resting g hg' hlazy hcurrent
  · exact fun g hg => h.untouched g ((List.Sublist.append_left (sublist_cons_self m future) _).subset hg)

/-- An immediate generator is finalised without having been stored. -/
theorem passImmediate (active movementInform : Bool) :
    Sound ({ s with entered := s.entered ++ [m.id] }.call (.finalize active movementInform) m)
      future := by
  have hperm : (s.stored ++ s.queued ++ m :: future).Perm (m :: (s.stored ++ s.queued ++ future)) :=
    perm_middle
  have hdistinct := h.distinct.perm hperm
  have hsub : (s.stored ++ s.queued ++ future).Sublist (s.stored ++ s.queued ++ m :: future) :=
    List.Sublist.append_left (sublist_cons_self m future) _
  have hne : ∀ g ∈ s.stored ++ s.queued ++ future, g.id ≠ 0 → g.id ≠ m.id :=
    fun g hg hid heq => hdistinct.ne_of_mem hg (heq ▸ hid) heq
  refine ⟨h.sorted, h.distinct.sublist hsub, h.states, h.unitState, ?_, ?_, ?_, ?_, ?_⟩
  · intro g hg hid hfinalized
    rcases MotionMaster.finalized_call.mp hfinalized with hfinalized | ⟨heq, -⟩
    · exact h.alive g (hsub.subset hg) hid hfinalized
    · exact hne g hg hid heq.symm
  · refine pairwise_append.mpr ⟨h.closed, pairwise_singleton _ _, ?_⟩
    intro e he e' he' hfinalize hid
    obtain rfl := mem_singleton.mp he'
    intro heq
    have hmid : m.id = e.2 := heq
    exact h.alive m (by simp) (hmid ▸ hid) ⟨e, he, heq.symm, hfinalize⟩
  · intro id hid hzero
    rcases mem_append.mp hid with hid | hid
    · rcases h.left id hid hzero with hstored | hfinalized
      · exact Or.inl hstored
      · exact Or.inr (MotionMaster.finalized_call.mpr (Or.inl hfinalized))
    · exact Or.inr (MotionMaster.finalized_call.mpr (Or.inr ⟨(mem_singleton.mp hid).symm, rfl⟩))
  · intro g hg hlazy hcurrent
    have hgm := hne g (mem_owned_of_stored hg) (hlazy.id_ne h.distinct (mem_owned_of_stored hg))
    have hresting : Resting s g := h.resting g hg hlazy hcurrent
    have hflags := MotionMaster.flagsOf_call_of_ne (s := { s with entered := s.entered ++ [m.id] })
      (c := .finalize active movementInform) hgm
    rw [Resting] at hresting ⊢
    exact hflags ▸ hresting
  · intro g hg hlazy
    have hg' : g ∈ s.queued ++ future := hg
    have hmem : g ∈ s.stored ++ s.queued ++ future := by
      rw [append_assoc]
      exact mem_append_right _ hg'
    have hgm := hne g hmem (hlazy.id_ne h.distinct (hsub.subset hmem))
    have huntouched := h.untouched g
      ((List.Sublist.append_left (sublist_cons_self m future) _).subset hg') hlazy
    simpa [MotionMaster.call, Function.update_of_ne hgm] using huntouched

theorem directAdd : Sound (s.directAdd m slot) future := by
  cases slot with
  | default => exact h.directAddDefault
  | active =>
    obtain ⟨hplace, hroom⟩ := h.makePlace
    rw [directAdd, directAddActive]
    cases himmediate : m.immediate with
    | true => exact hplace.passImmediate true true
    | false => exact hplace.enterActive (hroom himmediate)

end

/-! ### The operations -/

section

variable (h : Sound s (m :: future))
include h

theorem addOrDelay (initialized : Bool) : Sound (s.addOrDelay m slot initialized) future := by
  rw [MotionMaster.addOrDelay]
  split_ifs
  · exact delay (.add m slot initialized) h
  · exact h.directAdd slot

theorem add (initialized : Bool) : Sound (s.add m slot initialized) future := by
  rw [MotionMaster.add]
  split_ifs with himmediate htop hinitialized
  · rw [Bool.and_eq_true] at himmediate
    exact (h.call_immediate himmediate.1 rfl).addOrDelay slot _
  · rw [Bool.and_eq_true] at himmediate
    exact (h.call_immediate himmediate.1 rfl).drop (sublist_cons_self m future)
  · exact h.drop (sublist_cons_self m future)
  · exact h.addOrDelay slot initialized

theorem directInitialize (initialized : Bool) : Sound (s.directInitialize m initialized) future :=
  h.directClearDefault.directClear.add .default initialized

end

theorem directAct (a : Action) (h : Sound s (a.generators ++ future)) :
    Sound (s.directAct a) future := by
  cases a with
  | add m slot initialized => exact h.add slot initialized
  | remove type slot =>
    cases slot with
    | default =>
      simp only [MotionMaster.directAct]
      split_ifs
      · exact h.directClearDefault
      · exact h
    | active => exact h.directClearWhere _
  | clear => exact h.directClear
  | clearSlot slot =>
    cases slot with
    | default => exact h.directClearDefault
    | active => exact h.directClear
  | clearPriority priority => exact h.directClearWhere _
  | init m initialized => exact h.directInitialize initialized

theorem act (a : Action) (h : Sound s (a.generators ++ future)) : Sound (s.act a) future := by
  have hdrop := h.drop (sublist_append_right a.generators future)
  have hdelay := delay a h
  have hdirect := directAct a h
  cases a with
  | add m slot initialized => exact hdirect
  | init m initialized =>
    simp only [MotionMaster.act]
    split_ifs
    · exact hdrop
    · exact hdelay
    · exact hdirect
  | remove type slot =>
    by_cases htype : type = .maxDb
    · subst htype
      exact h
    · rw [MotionMaster.act_remove htype]
      split_ifs
      · exact hdelay
      · exact hdirect
  | _ =>
    simp only [MotionMaster.act]
    split_ifs
    · exact hdelay
    · exact hdirect

theorem foldl_act {actions : List Action}
    (h : Sound s (actions.flatMap Action.generators ++ future)) :
    Sound (actions.foldl MotionMaster.act s) future := by
  induction actions generalizing s with
  | nil => exact h
  | cons a actions ih =>
    rw [flatMap_cons, append_assoc] at h
    exact ih (h.act a)

theorem resolveDelayedActions (h : Sound s future) : Sound s.resolveDelayedActions future := by
  refine foldl_act ⟨h.sorted, ?_, h.states, h.unitState, ?_, h.closed, h.left, h.resting, ?_⟩
  · have hdistinct := h.distinct
    simpa [queued, stored] using hdistinct
  · intro g hg
    refine h.alive g ?_
    simpa [queued, stored] using hg
  · intro g hg
    exact h.untouched g (by simpa [queued] using hg)

theorem interruptOnTeleport (h : Sound s future) : Sound s.interruptOnTeleport future := by
  rw [MotionMaster.interruptOnTeleport]
  cases hcurrent : s.current with
  | none => exact h
  | some top =>
    simp only
    split_ifs
    · exact h
    · exact h.deactivate (mem_stored_of_current hcurrent)

end Sound

end IscServer.Movement
