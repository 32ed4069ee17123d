import Mathlib.Data.List.Nodup

/-!
# Neighbours in a List

`Adjacent l x y` says that `y` comes right behind `x` in `l`. In a list without duplicates every element has
at most one successor and one predecessor; the first has no predecessor and the last no successor.
-/

namespace Neighbours

open List

variable {α : Type}

/-- `y` is the successor of `x`. -/
def Adjacent : List α → α → α → Prop
  | a :: b :: l, x, y => (a = x ∧ b = y) ∨ Adjacent (b :: l) x y
  | [_], _, _ => False
  | [], _, _ => False

variable {l : List α} {a x y z : α}

theorem not_adjacent_nil : ¬ Adjacent [] x y := id

theorem adjacent_cons : Adjacent (a :: l) x y ↔ (a = x ∧ l.head? = some y) ∨ Adjacent l x y := by
  cases l with
  | nil => exact ⟨False.elim, fun h => h.elim (fun h => nomatch h.2) id⟩
  | cons b l => exact or_congr_left (and_congr_right' Option.some_inj.symm)

/-- A new last element succeeds the old one. -/
theorem adjacent_concat : Adjacent (l ++ [z]) x y ↔ Adjacent l x y ∨
    (l.getLast? = some x ∧ z = y) := by
  induction l with
  | nil => simp [Adjacent]
  | cons a l ih =>
    rw [cons_append, adjacent_cons, adjacent_cons, ih]
    cases l with
    | nil => simp [Adjacent]
    | cons b l =>
      exact or_assoc.symm

section

variable (h : Adjacent l x y)
include h

theorem Adjacent.mem : x ∈ l ∧ y ∈ l.tail := by
  induction l with
  | nil => exact absurd h not_adjacent_nil
  | cons a l ih =>
    rcases adjacent_cons.mp h with ⟨rfl, hhead⟩ | h
    · exact ⟨mem_cons_self, mem_of_head? hhead⟩
    · exact ⟨mem_cons_of_mem _ (ih h).1, mem_of_mem_tail (ih h).2⟩

theorem Adjacent.mem_left : x ∈ l := h.mem.1

theorem Adjacent.mem_right : y ∈ l := mem_of_mem_tail h.mem.2

/-- The first element has no predecessor. -/
theorem Adjacent.ne_head (hnodup : l.Nodup) : l.head? ≠ some y := by
  cases l with
  | nil => exact absurd h not_adjacent_nil
  | cons a l =>
    rintro ⟨rfl⟩
    exact (nodup_cons.mp hnodup).1 h.mem.2

/-- The last element has no successor. -/
theorem Adjacent.ne_getLast (hnodup : l.Nodup) : l.getLast? ≠ some x := by
  induction l with
  | nil => exact absurd h not_adjacent_nil
  | cons a l ih =>
    obtain ⟨hnotin, hnodup⟩ := nodup_cons.mp hnodup
    intro hlast
    rcases adjacent_cons.mp h with ⟨rfl, hhead⟩ | h
    · cases l with
      | nil => cases hhead
      | cons b l =>
        exact hnotin (mem_of_getLast? hlast)
    · cases l with
      | nil => exact absurd h not_adjacent_nil
      | cons b l =>
        exact ih h hnodup hlast

end

/-- A successor is unique. -/
theorem Adjacent.right_unique (hnodup : l.Nodup) (h : Adjacent l x y) (h' : Adjacent l x z) :
    y = z := by
  induction l with
  | nil => exact absurd h not_adjacent_nil
  | cons a l ih =>
    obtain ⟨hnotin, hnodup⟩ := nodup_cons.mp hnodup
    rcases adjacent_cons.mp h with ⟨rfl, hhead⟩ | h
    · rcases adjacent_cons.mp h' with ⟨-, hhead'⟩ | h'
      · exact Option.some.inj (hhead.symm.trans hhead')
      · exact absurd h'.mem_left hnotin
    · rcases adjacent_cons.mp h' with ⟨rfl, -⟩ | h'
      · exact absurd h.mem_left hnotin
      · exact ih hnodup h h'

/-- Every element but the last has a successor. -/
theorem exists_adjacent (hx : x ∈ l) (hlast : l.getLast? ≠ some x) : ∃ y, Adjacent l x y := by
  induction l with
  | nil => cases hx
  | cons a l ih =>
    cases l with
    | nil =>
      rw [mem_singleton.mp hx] at hlast
      exact absurd rfl hlast
    | cons b l =>
      rcases mem_cons.mp hx with rfl | hx
      · exact ⟨b, adjacent_cons.mpr (Or.inl ⟨rfl, rfl⟩)⟩
      · obtain ⟨y, hy⟩ := ih hx hlast
        exact ⟨y, adjacent_cons.mpr (Or.inr hy)⟩

end Neighbours
