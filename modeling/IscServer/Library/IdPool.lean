import Mathlib.Data.List.Nodup
import Mathlib.Data.List.Perm.Basic

/-!
# Pools of Numbers

A pool hands out numbers and takes them back. It keeps a queue of numbers that were given back and a
bound below which all numbers have been handed out at some time: a number is taken from the front of
the queue or, if that is empty, at the bound, which rises; one that is given back joins the end of
the queue, unless it is the last one below the bound, which then falls.

## Main results

* `IdPool.Sound` — the numbers in use and those in the queue are distinct and below the bound.
* `IdPool.Sound.take_notMem` — a number that is taken was not in use.
* `IdPool.Sound.take`, `IdPool.Sound.give` — taking and giving back keep the pool sound.
-/

/-- A pool of numbers: the queue and the bound. -/
structure IdPool where
  queue : List ℕ
  bound : ℕ
  deriving DecidableEq, Repr

namespace IdPool

open List

/-- The number that is taken next. -/
def next (p : IdPool) : ℕ :=
  match p.queue with
  | [] => p.bound
  | id :: _ => id

/-- The pool after a number has been taken. -/
def take (p : IdPool) : IdPool :=
  match p.queue with
  | [] => { p with bound := p.bound + 1 }
  | _ :: rest => { p with queue := rest }

/-- The pool after a number has been given back. -/
def give (p : IdPool) (id : ℕ) : IdPool :=
  if id + 1 = p.bound then { p with bound := p.bound - 1 }
  else { p with queue := p.queue ++ [id] }

/-- The numbers in use and those in the queue are distinct and below the bound. -/
structure Sound (p : IdPool) (used : List ℕ) : Prop where
  nodup : (used ++ p.queue).Nodup
  lt_bound : ∀ id ∈ used ++ p.queue, id < p.bound

variable {p : IdPool} {used used' : List ℕ} {id : ℕ}

section

variable (h : p.Sound used)
include h

theorem Sound.nodup_used : used.Nodup := (nodup_append.mp h.nodup).1

theorem Sound.nodup_queue : p.queue.Nodup := (nodup_append.mp h.nodup).2.1

/-- A number in the queue is not in use. -/
theorem Sound.notMem_of_queue (hid : id ∈ p.queue) : id ∉ used :=
  fun hused => (nodup_append.mp h.nodup).2.2 id hused id hid rfl

theorem Sound.perm (hperm : used'.Perm used) : p.Sound used' where
  nodup := (hperm.append_right p.queue).nodup_iff.mpr h.nodup
  lt_bound id hid := h.lt_bound id ((hperm.append_right p.queue).mem_iff.mp hid)

/-- Numbers may be lost. -/
theorem Sound.sublist (hsub : used'.Sublist used) : p.Sound used' where
  nodup := h.nodup.sublist (hsub.append_right p.queue)
  lt_bound id hid := h.lt_bound id ((hsub.append_right p.queue).subset hid)

/-- **Taking**: the number was not in use. -/
theorem Sound.take_notMem : p.next ∉ used := by
  obtain ⟨queue, bound⟩ := p
  cases queue with
  | nil => exact fun hused => Nat.lt_irrefl _ (h.lt_bound bound (mem_append_left _ hused))
  | cons id rest => exact h.notMem_of_queue mem_cons_self

/-- A pool from which a number has been taken is sound for it as well. -/
theorem Sound.take : p.take.Sound (p.next :: used) := by
  obtain ⟨queue, bound⟩ := p
  cases queue with
  | nil =>
    have hold : ∀ id ∈ used, id < bound := fun id hid => h.lt_bound id (mem_append_left _ hid)
    refine ⟨?_, ?_⟩
    · refine (append_nil (bound :: used)).symm ▸ nodup_cons.mpr ⟨?_, h.nodup_used⟩
      exact fun hid => Nat.lt_irrefl _ (hold _ hid)
    · intro id hid
      rcases mem_cons.mp ((append_nil (bound :: used)) ▸ hid) with rfl | hid
      · exact Nat.lt_succ_self _
      · exact Nat.lt_succ_of_lt (hold id hid)
  | cons id rest =>
    have hperm : (used ++ id :: rest).Perm (id :: used ++ rest) := perm_middle
    exact ⟨hperm.nodup_iff.mp h.nodup, fun x hx => h.lt_bound x (hperm.mem_iff.mpr hx)⟩

/-- A number that is taken may get lost. -/
theorem Sound.take_lost : p.take.Sound used :=
  h.take.sublist (sublist_cons_self _ _)

end

/-- **Giving back** a number that was in use. -/
theorem Sound.give (h : p.Sound (id :: used)) : (p.give id).Sound used := by
  rw [IdPool.give]
  by_cases hlast : id + 1 = p.bound
  · rw [if_pos hlast]
    obtain ⟨hnew, hnodup⟩ := nodup_cons.mp h.nodup
    refine ⟨hnodup, fun x hx => ?_⟩
    have hlt := h.lt_bound x (mem_cons_of_mem _ hx)
    have hne : x ≠ id := fun heq => hnew (heq ▸ hx)
    dsimp only
    omega
  · rw [if_neg hlast]
    have hperm : (used ++ (p.queue ++ [id])).Perm (id :: used ++ p.queue) := by
      rw [← append_assoc]
      exact perm_append_singleton id (used ++ p.queue)
    exact ⟨hperm.nodup_iff.mpr h.nodup, fun x hx => h.lt_bound x (hperm.mem_iff.mp hx)⟩

end IdPool
