import Mathlib

/-!
# Prefixes in the Lexicographic Order

In a list that is sorted by its keys, words over an ordered alphabet, the entries whose keys start
with a given word stand together, and they begin at the lower bound of that word.

## Main results

* `prefix_of_between` — the words with a prefix form an interval.
* `takeWhile_prefix_lowerBound` — to walk from the lower bound as long as the keys have the prefix is
  to visit all entries whose keys have it.
-/

namespace PrefixOrder

open List

variable {α β : Type} [LinearOrder α] {p y w : List α}

/-- A word is not above its extensions. -/
theorem le_of_starts (h : p <+: y) : p ≤ y := by
  induction p generalizing y with
  | nil => exact not_lt.mp (not_lt_nil y)
  | cons c p ih =>
    obtain ⟨y, rfl, hpre⟩ := cons_prefix_iff.mp h
    refine not_lt.mp fun hlt => ?_
    rcases cons_lt_cons_iff.mp hlt with hcc | ⟨-, hlt⟩
    · exact lt_irrefl c hcc
    · exact not_lt.mpr (ih hpre) hlt

/-- **The words with a prefix are an interval.** -/
theorem prefix_of_between (hlo : p ≤ y) (hhi : y < p ++ w) : p <+: y := by
  induction p generalizing y with
  | nil => exact nil_prefix
  | cons c p ih =>
    cases y with
    | nil => exact absurd (nil_lt_cons c p) (not_lt.mpr hlo)
    | cons d y =>
      rcases cons_lt_cons_iff.mp hhi with hdc | ⟨rfl, hlt⟩
      · exact absurd (cons_lt_cons_iff.mpr (Or.inl hdc)) (not_lt.mpr hlo)
      · have hle : p ≤ y := not_lt.mp fun hyp =>
          not_lt.mpr hlo (cons_lt_cons_iff.mpr (Or.inr ⟨rfl, hyp⟩))
        exact prefix_cons_inj d |>.mpr (ih hle hlt)

variable {key : β → List α} {starts below : β → Bool} {entries : List β}

/-- Entries sorted by their keys, without two of one key. -/
def SortedBy (key : β → List α) (entries : List β) : Prop :=
  entries.Pairwise fun a b => key a < key b

/-- Entries of one key are the same. -/
theorem SortedBy.eq_of_key (h : SortedBy key entries) {e e' : β} (he : e ∈ entries)
    (he' : e' ∈ entries) (heq : key e = key e') : e = e' := by
  have hnodup : (entries.map key).Nodup := pairwise_map.mpr (h.imp fun hlt => ne_of_lt hlt)
  exact inj_on_of_nodup_map hnodup he he' heq

/-- From entries that are not below the word, those with the prefix come first. -/
theorem takeWhile_prefix (hstarts : ∀ e, starts e = true ↔ p <+: key e)
    (hsorted : SortedBy key entries) (hlo : ∀ e ∈ entries, p ≤ key e) :
    entries.takeWhile starts = entries.filter starts := by
  induction entries with
  | nil => rfl
  | cons e entries ih =>
    obtain ⟨he, hlo⟩ := forall_mem_cons.mp hlo
    obtain ⟨habove, hsorted⟩ := pairwise_cons.mp hsorted
    by_cases hpre : starts e = true
    · rw [takeWhile_cons_of_pos hpre, filter_cons_of_pos hpre, ih hsorted hlo]
    · have hnone : ∀ e' ∈ entries, ¬ starts e' = true := by
        intro e' he' hstart
        obtain ⟨w, hw⟩ := (hstarts e').mp hstart
        exact hpre ((hstarts e).mpr (prefix_of_between he (hw ▸ habove e' he')))
      rw [takeWhile_cons_of_neg hpre, filter_cons_of_neg hpre, eq_comm, filter_eq_nil_iff]
      exact hnone

/-- **Prefix search.** The entries from the lower bound on, as long as they have the prefix, are all
entries that have it. -/
theorem takeWhile_prefix_lowerBound (hstarts : ∀ e, starts e = true ↔ p <+: key e)
    (hbelow : ∀ e, below e = true ↔ key e < p) (hsorted : SortedBy key entries) :
    (entries.dropWhile below).takeWhile starts = entries.filter starts := by
  induction entries with
  | nil => rfl
  | cons e entries ih =>
    obtain ⟨habove, hrest⟩ := pairwise_cons.mp hsorted
    by_cases hlt : below e = true
    · have hnot : ¬ starts e = true := fun hstart =>
        not_lt.mpr (le_of_starts ((hstarts e).mp hstart)) ((hbelow e).mp hlt)
      rw [dropWhile_cons_of_pos hlt, ih hrest, filter_cons_of_neg hnot]
    · rw [dropWhile_cons_of_neg hlt]
      have he : p ≤ key e := not_lt.mp fun hkey => hlt ((hbelow e).mpr hkey)
      refine takeWhile_prefix hstarts hsorted (forall_mem_cons.mpr ⟨he, fun e' he' => ?_⟩)
      exact le_of_lt (lt_of_le_of_lt he (habove e' he'))

end PrefixOrder
