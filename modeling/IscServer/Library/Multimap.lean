import Mathlib.Order.Defs.LinearOrder

/-!
# Sorted Containers with Equal Keys

An ordered container that admits equal keys is a list sorted by key.

* `insert` — insertion of one element at the upper bound of its key.
-/

namespace Multimap

variable {α τ : Type} [LinearOrder τ] (key : α → τ)

/-- Insert an element behind every element whose key is not greater, so that elements of one key stand in
the order of their insertion. -/
def insert (a : α) : List α → List α
  | [] => [a]
  | b :: l => if key a < key b then a :: b :: l else b :: insert a l

end Multimap
