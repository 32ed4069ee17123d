import Mathlib.Algebra.Order.BigOperators.Group.Finset
import Mathlib.Data.Finset.Max

/-!
# Exploring Links with a Work List

Values are linked to other values, and some of them are known. A work list explores the links: the least
value leaves the list; if it is known it is kept, and the values it is linked to join the list unless they
have been kept before. Values that are not known lead nowhere.

Each value is kept at most once, so the links of each known value are looked at at most once. This bounds
the number of rounds, and the recursion counts them down.

## Main results

* `WorkList.mem_explore_iff` — what is left to be found, at any point of the exploration.
* `WorkList.mem_expand_iff` — a value is found exactly when it is known and can be reached.
* `WorkList.iterate_round` — the loop ends with what `expand` finds.
-/

namespace WorkList

variable {α : Type} [LinearOrder α] (known : Finset α) (links : α → Finset α)

/-- The rounds of the loop over the work list. -/
def explore : ℕ → Finset α → Finset α → Finset α
  | 0, _, found => found
  | n + 1, todo, found =>
    if h : todo.Nonempty then
      let a := todo.min' h
      if a ∈ known then
        explore n (todo.erase a ∪ (links a).filter (· ∉ insert a found)) (insert a found)
      else explore n (todo.erase a) found
    else found

/-- The rounds that are enough. -/
def rounds (todo found : Finset α) : ℕ := todo.card + ∑ a ∈ known \ found, (links a).card

/-- All that is found from the values of a list. -/
def expand (start : Finset α) : Finset α :=
  explore known links (rounds known links start ∅) start ∅

/-- A known value and a value it is linked to. -/
def Link (a b : α) : Prop := a ∈ known ∧ b ∈ links a

/-- The value can be reached from one of the list. -/
def Reaches (todo : Finset α) (a : α) : Prop := ∃ b ∈ todo, Relation.ReflTransGen (Link known links) b a

/-- What holds in each round: no value of the list has been found, and the links of the values found have
been looked at. -/
structure Open (todo found : Finset α) : Prop where
  disjoint : ∀ a ∈ todo, a ∉ found
  seen : ∀ a ∈ found, ∀ b ∈ links a, b ∈ known → b ∈ found ∨ b ∈ todo

variable {known links} {todo found : Finset α} {a p : α}

omit [LinearOrder α] in
/-- What a value that has been found leads to is found too, or can be reached from the list. -/
theorem Open.of_found (h : Open known links todo found) (ha : a ∈ found)
    (hreach : Relation.ReflTransGen (Link known links) a p) (hp : p ∈ known) :
    p ∈ found ∨ Reaches known links todo p := by
  induction hreach using Relation.ReflTransGen.head_induction_on with
  | refl => exact Or.inl ha
  | head hlink hrest ih =>
    next a b =>
    have hb : b ∈ known := by
      rcases Relation.ReflTransGen.cases_head hrest with rfl | ⟨c, hc, -⟩
      · exact hp
      · exact hc.1
    rcases h.seen a ha b hlink.2 hb with hfound | htodo
    · exact ih hfound
    · exact Or.inr ⟨b, htodo, hrest⟩

/-- A known value leaves the list. -/
theorem Open.keep (h : Open known links todo found) :
    Open known links (todo.erase a ∪ (links a).filter (· ∉ insert a found)) (insert a found) := by
  refine ⟨fun b hb => ?_, fun b hb c hc hknown => ?_⟩
  · rcases Finset.mem_union.mp hb with hb | hb
    · rw [Finset.mem_insert, not_or]
      exact ⟨Finset.ne_of_mem_erase hb, h.disjoint b (Finset.mem_of_mem_erase hb)⟩
    · exact (Finset.mem_filter.mp hb).2
  · by_cases hfound : c ∈ insert a found
    · exact Or.inl hfound
    · refine Or.inr (Finset.mem_union.mpr ?_)
      rcases Finset.mem_insert.mp hb with rfl | hb
      · exact Or.inr (Finset.mem_filter.mpr ⟨hc, hfound⟩)
      · rw [Finset.mem_insert, not_or] at hfound
        have htodo := (h.seen b hb c hc hknown).resolve_left hfound.2
        exact Or.inl (Finset.mem_erase.mpr ⟨hfound.1, htodo⟩)

/-- An unknown value leaves the list. -/
theorem Open.drop (h : Open known links todo found) (ha : a ∉ known) :
    Open known links (todo.erase a) found := by
  refine ⟨fun b hb => h.disjoint b (Finset.mem_of_mem_erase hb), fun b hb c hc hknown => ?_⟩
  have hne : c ≠ a := fun heq => ha (heq ▸ hknown)
  exact (h.seen b hb c hc hknown).imp_right fun htodo => Finset.mem_erase.mpr ⟨hne, htodo⟩

/-- A known value that leaves the list takes at least one round with it. -/
theorem rounds_keep (ha : a ∈ todo) (hknown : a ∈ known) (hfound : a ∉ found) :
    rounds known links (todo.erase a ∪ (links a).filter (· ∉ insert a found)) (insert a found) + 1 ≤
      rounds known links todo found := by
  have hmem : a ∈ known \ found := Finset.mem_sdiff.mpr ⟨hknown, hfound⟩
  have hsum := Finset.add_sum_erase (known \ found) (fun b => (links b).card) hmem
  have herase : known \ insert a found = (known \ found).erase a := by
    ext b
    simp only [Finset.mem_sdiff, Finset.mem_insert, Finset.mem_erase]
    tauto
  have hcard := Finset.card_union_le (todo.erase a) ((links a).filter (· ∉ insert a found))
  have hfilter := Finset.card_filter_le (links a) (· ∉ insert a found)
  have htodo := Finset.card_erase_add_one ha
  rw [rounds, rounds, herase]
  omega

/-- **What is left to be found**: with enough rounds the values found so far, and the known values that
can be reached from the list. -/
theorem mem_explore_iff {n : ℕ} (h : Open known links todo found)
    (hn : rounds known links todo found ≤ n) :
    p ∈ explore known links n todo found ↔ p ∈ found ∨ (p ∈ known ∧ Reaches known links todo p) := by
  induction n generalizing todo found with
  | zero =>
    have hempty : todo = ∅ := Finset.card_eq_zero.mp (by rw [rounds] at hn; omega)
    subst hempty
    simp [explore, Reaches]
  | succ n ih =>
    rw [explore]
    by_cases hne : todo.Nonempty
    · obtain ⟨a, ha⟩ : ∃ a, a = todo.min' hne := ⟨_, rfl⟩
      have hmem : a ∈ todo := ha ▸ todo.min'_mem hne
      simp only [dif_pos hne, ← ha]
      by_cases hknown : a ∈ known
      · have hround := (@rounds_keep _ _ _ links) hmem hknown (h.disjoint a hmem)
        have hkeep := h.keep (a := a)
        rw [if_pos hknown, ih hkeep (by omega)]
        constructor
        · rintro (hp | ⟨hp, b, hb, hreach⟩)
          · rcases Finset.mem_insert.mp hp with rfl | hp
            · exact Or.inr ⟨hknown, p, hmem, Relation.ReflTransGen.refl⟩
            · exact Or.inl hp
          · refine Or.inr ⟨hp, ?_⟩
            rcases Finset.mem_union.mp hb with hb | hb
            · exact ⟨b, Finset.mem_of_mem_erase hb, hreach⟩
            · exact ⟨a, hmem, hreach.head ⟨hknown, (Finset.mem_filter.mp hb).1⟩⟩
        · rintro (hp | ⟨hp, b, hb, hreach⟩)
          · exact Or.inl (Finset.mem_insert_of_mem hp)
          · by_cases hba : b = a
            · subst hba
              exact (hkeep.of_found (Finset.mem_insert_self b found) hreach hp).imp_right
                fun hreaches => ⟨hp, hreaches⟩
            · exact Or.inr ⟨hp, b, Finset.mem_union_left _ (Finset.mem_erase.mpr ⟨hba, hb⟩), hreach⟩
      · have hcard := Finset.card_erase_add_one hmem
        rw [if_neg hknown, ih (h.drop hknown) (by rw [rounds] at hn ⊢; omega)]
        refine or_congr_right (and_congr_right fun hp => ?_)
        constructor
        · rintro ⟨b, hb, hreach⟩
          exact ⟨b, Finset.mem_of_mem_erase hb, hreach⟩
        · rintro ⟨b, hb, hreach⟩
          refine ⟨b, Finset.mem_erase.mpr ⟨?_, hb⟩, hreach⟩
          rintro rfl
          rcases Relation.ReflTransGen.cases_head hreach with rfl | ⟨c, hc, -⟩
          · exact hknown hp
          · exact hknown hc.1
    · rw [Finset.not_nonempty_iff_eq_empty] at hne
      subst hne
      simp [Reaches]

/-- **Exploration finds what can be reached.** -/
theorem mem_expand_iff {start : Finset α} :
    p ∈ expand known links start ↔ p ∈ known ∧ Reaches known links start p := by
  have hopen : Open known links start ∅ :=
    ⟨fun _ _ => Finset.notMem_empty _, fun _ ha => absurd ha (Finset.notMem_empty _)⟩
  rw [expand, mem_explore_iff hopen le_rfl]
  simp

/-! ### The loop ends -/

variable (known links) in
/-- A round of the loop. -/
def round (s : Finset α × Finset α) : Finset α × Finset α :=
  if h : s.1.Nonempty then
    let a := s.1.min' h
    if a ∈ known then (s.1.erase a ∪ (links a).filter (· ∉ insert a s.2), insert a s.2)
    else (s.1.erase a, s.2)
  else s

theorem round_empty (found : Finset α) : round known links (∅, found) = (∅, found) :=
  dif_neg Finset.not_nonempty_empty

theorem explore_eq_iterate (n : ℕ) (todo found : Finset α) :
    explore known links n todo found = ((round known links)^[n] (todo, found)).2 := by
  induction n generalizing todo found with
  | zero => rfl
  | succ n ih =>
    rw [explore, Function.iterate_succ_apply, round]
    split_ifs with hne
    · dsimp only
      split_ifs
      · exact ih _ _
      · exact ih _ _
    · obtain rfl := Finset.not_nonempty_iff_eq_empty.mp hne
      exact (congrArg Prod.snd (Function.iterate_fixed (round_empty found) n)).symm

/-- With enough rounds nothing is left in the list. -/
theorem iterate_round_fst {n : ℕ} (h : Open known links todo found)
    (hn : rounds known links todo found ≤ n) : ((round known links)^[n] (todo, found)).1 = ∅ := by
  induction n generalizing todo found with
  | zero =>
    change todo = ∅
    exact Finset.card_eq_zero.mp (by rw [rounds] at hn; omega)
  | succ n ih =>
    rw [Function.iterate_succ_apply, round]
    by_cases hne : todo.Nonempty
    · have hmem := todo.min'_mem hne
      rw [dif_pos hne]
      dsimp only
      split_ifs with hknown
      · have hround := (@rounds_keep _ _ _ links) hmem hknown (h.disjoint _ hmem)
        exact ih h.keep (by omega)
      · have hcard := Finset.card_erase_add_one hmem
        exact ih (h.drop hknown) (by rw [rounds] at hn ⊢; omega)
    · obtain rfl := Finset.not_nonempty_iff_eq_empty.mp hne
      rw [dif_neg hne, Function.iterate_fixed (round_empty found)]

/-- **The loop ends**, with all that is found. -/
theorem iterate_round (start : Finset α) :
    (round known links)^[rounds known links start ∅] (start, ∅) = (∅, expand known links start) := by
  have hopen : Open known links start ∅ :=
    ⟨fun _ _ => Finset.notMem_empty _, fun _ ha => absurd ha (Finset.notMem_empty _)⟩
  exact Prod.ext (iterate_round_fst hopen le_rfl) (explore_eq_iterate _ start ∅).symm

end WorkList
