import Mathlib

/-!
# Lists of Records with a Key

A list of records in which no two have the same key is a finite map. `find` looks a record up and
`put` overwrites the record with the same key.

## Main results

* `find_eq_some_iff` — in a list with distinct keys a record is found exactly when it is in the list.
* `find_put`, `put_put`, `put_self` — how the two operations compose.
* `countP_put`, `sum_put` — overwriting one record changes a count, or a sum, by that record.
* `perm_cons_filter` — a record and the records with other keys.
* `find_foldl_assign`, `foldl_assign_of_nodup` — records that are added one after the other.
* `Holds.assign`, `Holds.delete` — a table that has exactly the rows of some records.
-/

namespace Keyed

open List

variable {κ α : Type} {key : α → κ} {L : List α} {a b : α} {k : κ}

/-- Records with the same key are the same. -/
theorem eq_of_key (hnodup : (L.map key).Nodup) (ha : a ∈ L) (hb : b ∈ L) (h : key a = key b) :
    a = b :=
  inj_on_of_nodup_map hnodup ha hb h

variable [DecidableEq κ]

/-- The record with a key. -/
def find (key : α → κ) (L : List α) (k : κ) : Option α := L.find? fun a => key a = k

/-- Overwrite the record with the key of `a`. -/
def put (key : α → κ) (L : List α) (a : α) : List α := L.map fun b => if key b = key a then a else b

theorem mem_of_find (h : find key L k = some a) : a ∈ L := mem_of_find?_eq_some h

theorem key_of_find (h : find key L k = some a) : key a = k := by
  simpa using List.find?_some h

theorem find_eq_none_iff : find key L k = none ↔ ∀ a ∈ L, key a ≠ k := by
  rw [find, List.find?_eq_none]
  simp only [decide_eq_true_eq]

theorem find_cons : find key (b :: L) k = if key b = k then some b else find key L k := by
  rw [find, List.find?_cons]
  split_ifs with h
  · rw [decide_eq_true h]
  · rw [decide_eq_false h]
    rfl

/-- A record is found under its key. -/
theorem find_of_mem (hnodup : (L.map key).Nodup) (ha : a ∈ L) : find key L (key a) = some a := by
  cases h : find key L (key a) with
  | none => exact absurd rfl (find_eq_none_iff.mp h a ha)
  | some b => rw [eq_of_key hnodup (mem_of_find h) ha (key_of_find h)]

theorem find_eq_some_iff (hnodup : (L.map key).Nodup) :
    find key L k = some a ↔ a ∈ L ∧ key a = k := by
  constructor
  · exact fun h => ⟨mem_of_find h, key_of_find h⟩
  · rintro ⟨ha, rfl⟩
    exact find_of_mem hnodup ha

/-! ### Overwriting -/

theorem keys_put : (put key L a).map key = L.map key := by
  rw [put, map_map]
  refine map_congr_left fun b _ => ?_
  by_cases h : key b = key a
  · rw [Function.comp_apply, if_pos h, h]
  · rw [Function.comp_apply, if_neg h]

theorem mem_put_iff : b ∈ put key L a ↔ (b = a ∧ key a ∈ L.map key) ∨ (b ∈ L ∧ key b ≠ key a) := by
  rw [put, mem_map]
  constructor
  · rintro ⟨c, hc, rfl⟩
    by_cases h : key c = key a
    · rw [if_pos h]
      exact Or.inl ⟨rfl, h ▸ mem_map_of_mem hc⟩
    · rw [if_neg h]
      exact Or.inr ⟨hc, h⟩
  · rintro (⟨rfl, hmem⟩ | ⟨hb, hne⟩)
    · obtain ⟨c, hc, hkey⟩ := mem_map.mp hmem
      exact ⟨c, hc, if_pos hkey⟩
    · exact ⟨b, hb, if_neg hne⟩

/-- Looking up after overwriting. -/
theorem find_put : find key (put key L a) k =
    if key a = k ∧ key a ∈ L.map key then some a else find key L k := by
  induction L with
  | nil => rw [if_neg (by rintro ⟨-, h⟩; cases h)]; rfl
  | cons b L ih =>
    rw [put, map_cons, ← put, find_cons, ih, find_cons, map_cons]
    by_cases hb : key b = key a <;> by_cases hk : key a = k
    · subst hk
      simp [hb]
    · simp [hb, hk]
    · subst hk
      simp [hb, Ne.symm hb]
    · simp [hb, hk]

/-- Overwriting the record that was found. -/
theorem find_put_self (h : find key L (key a) ≠ none) : find key (put key L a) (key a) = some a := by
  obtain ⟨b, hb⟩ := Option.ne_none_iff_exists'.mp h
  have hmem : key a ∈ L.map key := key_of_find hb ▸ mem_map_of_mem (mem_of_find hb)
  rw [find_put, if_pos ⟨rfl, hmem⟩]

theorem find_put_of_ne (h : key a ≠ k) : find key (put key L a) k = find key L k := by
  rw [find_put, if_neg fun hk => h hk.1]

/-- The last one of two records stays. -/
theorem put_put (h : key b = key a) : put key (put key L a) b = put key L b := by
  rw [put, put, put, map_map]
  refine map_congr_left fun c _ => ?_
  by_cases hc : key c = key a
  · rw [Function.comp_apply, if_pos hc, if_pos h.symm, if_pos (hc.trans h.symm)]
  · rw [Function.comp_apply, if_neg hc]

section

variable (hnodup : (L.map key).Nodup) (ha : a ∈ L)
include hnodup ha

/-- Overwriting a record with itself. -/
theorem put_self : put key L a = L := by
  have hid : ∀ b ∈ L, (if key b = key a then a else b) = b := by
    intro b hb
    split_ifs with h
    · exact eq_of_key hnodup ha hb h.symm
    · rfl
  exact (map_congr_left hid).trans (map_id'' (fun _ => rfl) L)

/-- **Sums** after one record has been overwritten. -/
theorem sum_put (h : key b = key a) (f : α → ℕ) :
    ((put key L b).map f).sum + f a = (L.map f).sum + f b := by
  induction L with
  | nil => cases ha
  | cons c L ih =>
    obtain ⟨hc, hnodup⟩ := nodup_cons.mp hnodup
    rw [put, map_cons, ← put, map_cons, sum_cons, map_cons, sum_cons]
    rcases mem_cons.mp ha with rfl | ha
    · have hrest : put key L b = L := by
        refine (map_congr_left fun d hd => if_neg fun hd' => hc ?_).trans
          (map_id'' (fun _ => rfl) L)
        rw [← h, ← hd']
        exact mem_map_of_mem hd
      rw [if_pos h.symm, hrest]
      omega
    · have hne : key c ≠ key b := by
        rw [h]
        exact fun hkey => hc (hkey ▸ mem_map_of_mem ha)
      have hih := ih hnodup ha
      rw [if_neg hne]
      omega

/-- **Counting** after one record has been overwritten. -/
theorem countP_put (h : key b = key a) (p : α → Bool) :
    (put key L b).countP p + (if p a then 1 else 0) = L.countP p + if p b then 1 else 0 := by
  have hsum : ∀ M : List α, M.countP p = (M.map fun c => if p c then 1 else 0).sum := by
    intro M
    induction M with
    | nil => rfl
    | cons c M ih => rw [countP_cons, map_cons, sum_cons, ih, Nat.add_comm]
  rw [hsum, hsum]
  exact sum_put hnodup ha h _

end

variable (L' : List α)

theorem put_append : put key (L ++ L') a = put key L a ++ put key L' a :=
  map_append

/-- What does not depend on more than what stays is not changed by overwriting. -/
theorem map_put {γ : Type} (g : α → γ) (h : ∀ b ∈ L, key b = key a → g b = g a) :
    (put key L a).map g = L.map g := by
  rw [put, map_map]
  refine map_congr_left fun b hb => ?_
  rw [Function.comp_apply]
  split_ifs with hkey
  · exact (h b hb hkey).symm
  · rfl

/-! ### Taking one record out -/

/-- A record and the records with other keys. -/
theorem perm_cons_filter (hnodup : (L.map key).Nodup) (ha : a ∈ L) :
    L.Perm (a :: L.filter fun b => !(key b = key a)) := by
  induction L with
  | nil => cases ha
  | cons c L ih =>
    obtain ⟨hc, hnodup⟩ := nodup_cons.mp hnodup
    rcases mem_cons.mp ha with rfl | ha
    · have hrest : ∀ b ∈ L, (!(key b = key a : Bool)) = true := by
        intro b hb
        have hne : key b ≠ key a := fun hkey => hc (hkey ▸ mem_map_of_mem hb)
        rw [decide_eq_false hne]
        rfl
      rw [filter_cons_of_neg (by simp), filter_eq_self.mpr hrest]
    · have hne : key c ≠ key a := fun hkey => hc (hkey ▸ mem_map_of_mem ha)
      rw [filter_cons_of_pos (by simp [hne])]
      exact ((ih hnodup ha).cons c).trans (List.Perm.swap a c _)

/-- Counting without one record. -/
theorem countP_filter_add (hnodup : (L.map key).Nodup) (ha : a ∈ L) (p : α → Bool) :
    L.countP p = (L.filter fun b => !(key b = key a)).countP p + if p a then 1 else 0 := by
  rw [(perm_cons_filter hnodup ha).countP_eq p, countP_cons]

/-- What each record contributes is counted at most once, if only one key contributes. -/
theorem countP_flatMap_le_one {β : Type} {f : α → List β} {p : β → Bool}
    (hnodup : (L.map key).Nodup) (hother : ∀ a ∈ L, key a ≠ k → (f a).countP p = 0)
    (hone : ∀ a ∈ L, (f a).countP p ≤ 1) : (L.flatMap f).countP p ≤ 1 := by
  induction L with
  | nil => exact Nat.zero_le 1
  | cons a L ih =>
    obtain ⟨hnot, hnodup⟩ := nodup_cons.mp hnodup
    rw [flatMap_cons, countP_append]
    by_cases hkey : key a = k
    · have hrest : (L.flatMap f).countP p = 0 := by
        refine countP_eq_zero.mpr fun c hc hp => ?_
        obtain ⟨b, hb, hc⟩ := mem_flatMap.mp hc
        have hzero := hother b (mem_cons_of_mem a hb) fun hb' =>
          hnot (mem_map.mpr ⟨b, hb, hb'.trans hkey.symm⟩)
        exact countP_eq_zero.mp hzero c hc hp
      rw [hrest, Nat.add_zero]
      exact hone a mem_cons_self
    · rw [hother a mem_cons_self hkey, Nat.zero_add]
      exact ih hnodup (fun b hb => hother b (mem_cons_of_mem a hb))
        fun b hb => hone b (mem_cons_of_mem a hb)

/-- Records with another key are found as before. -/
theorem find_filter_of_ne {k' : κ} (h : k' ≠ k) :
    find key (L.filter fun b => !(key b = k)) k' = find key L k' := by
  rw [find, List.find?_filter, find]
  congr 1
  funext b
  by_cases hkey : key b = k'
  · simp [hkey, h]
  · simp [hkey]

/-- Records that are chosen by their keys. -/
theorem find_filter_key (P : κ → Bool) :
    find key (L.filter fun b => P (key b)) k = if P k = true then find key L k else none := by
  rw [find, List.find?_filter]
  split_ifs with hP
  · congr 1
    funext b
    by_cases hkey : key b = k <;> simp [hkey, hP]
  · refine List.find?_eq_none.mpr fun b _ => ?_
    simp only [decide_eq_true_eq, not_and]
    rintro hb rfl
    exact hP hb

theorem find_append : find key (L ++ L') k = (find key L k).or (find key L' k) :=
  List.find?_append

/-! ### Adding records -/

/-- Add a record in place of those with its key. -/
def assign (key : α → κ) (L : List α) (a : α) : List α := (L.filter fun b => !(key b = key a)) ++ [a]

theorem mem_assign_iff : b ∈ assign key L a ↔ b = a ∨ (b ∈ L ∧ key b ≠ key a) := by
  rw [assign, mem_append, mem_singleton, mem_filter, or_comm]
  simp only [Bool.not_eq_eq_eq_not, Bool.not_true, decide_eq_false_iff_not]

theorem find_assign : find key (assign key L a) k = if key a = k then some a else find key L k := by
  by_cases h : key a = k
  · have hnone : find key (L.filter fun b => !(key b = key a)) k = none := by
      refine find_eq_none_iff.mpr fun b hb hkey => ?_
      obtain ⟨-, hne⟩ := mem_filter.mp hb
      simp [hkey, h] at hne
    rw [assign, find_append, hnone, find_cons, if_pos h, if_pos h]
    rfl
  · rw [assign, find_append, find_filter_of_ne (Ne.symm h), find_cons, if_neg h, if_neg h]
    exact Option.or_none

theorem nodup_assign (hnodup : (L.map key).Nodup) : ((assign key L a).map key).Nodup := by
  rw [assign, map_append]
  refine List.Nodup.append (hnodup.sublist (filter_sublist.map key)) (nodup_singleton _) ?_
  intro x hx hxa
  obtain ⟨b, hb, rfl⟩ := mem_map.mp hx
  obtain ⟨-, hne⟩ := mem_filter.mp hb
  simp [mem_singleton.mp hxa] at hne

variable {as : List α}

theorem find_foldl_assign_of_notMem (h : k ∉ as.map key) :
    find key (as.foldl (assign key) L) k = find key L k := by
  induction as generalizing L with
  | nil => rfl
  | cons c as ih =>
    rw [map_cons, mem_cons, not_or] at h
    rw [foldl_cons, ih h.2, find_assign, if_neg (Ne.symm h.1)]

/-- Of records with distinct keys each is found. -/
theorem find_foldl_assign (hnodup : (as.map key).Nodup) (ha : a ∈ as) :
    find key (as.foldl (assign key) L) (key a) = some a := by
  induction as generalizing L with
  | nil => cases ha
  | cons c as ih =>
    obtain ⟨hc, hnodup⟩ := nodup_cons.mp hnodup
    rw [foldl_cons]
    rcases mem_cons.mp ha with rfl | ha
    · rw [find_foldl_assign_of_notMem hc, find_assign, if_pos rfl]
    · exact ih hnodup ha

theorem nodup_foldl_assign (hnodup : (L.map key).Nodup) :
    ((as.foldl (assign key) L).map key).Nodup := by
  induction as generalizing L with
  | nil => exact hnodup
  | cons c as ih => exact ih (nodup_assign hnodup)

/-- Records that are told apart by their keys are all there in the end. -/
theorem mem_foldl_assign_iff (hkeys : ∀ c ∈ L ++ as, ∀ d ∈ as, key c = key d → c = d) :
    b ∈ as.foldl (assign key) L ↔ b ∈ L ++ as := by
  induction as generalizing L with
  | nil => rw [append_nil, foldl_nil]
  | cons c as ih =>
    have hmem : ∀ d, d ∈ assign key L c ++ as ↔ d ∈ L ++ c :: as := by
      intro d
      simp only [mem_append, mem_cons, mem_assign_iff]
      constructor
      · rintro ((rfl | ⟨hd, -⟩) | hd)
        · exact Or.inr (Or.inl rfl)
        · exact Or.inl hd
        · exact Or.inr (Or.inr hd)
      · rintro (hd | rfl | hd)
        · by_cases hkey : key d = key c
          · exact Or.inl (Or.inl (hkeys d (mem_append_left _ hd) c mem_cons_self hkey))
          · exact Or.inl (Or.inr ⟨hd, hkey⟩)
        · exact Or.inl (Or.inl rfl)
        · exact Or.inr hd
    rw [foldl_cons, ih fun d hd e he => hkeys d ((hmem d).mp hd) e (mem_cons_of_mem _ he)]
    exact hmem b

/-- Records with new keys are appended. -/
theorem foldl_assign_of_nodup (hnodup : ((L ++ as).map key).Nodup) :
    as.foldl (assign key) L = L ++ as := by
  induction as generalizing L with
  | nil => exact (append_nil L).symm
  | cons c as ih =>
    have hnew : assign key L c = L ++ [c] := by
      rw [assign, filter_eq_self.mpr]
      intro b hb
      rw [map_append, map_cons] at hnodup
      have hne : key b ≠ key c := fun hkey => (nodup_append.mp hnodup).2.2 (key b)
        (mem_map_of_mem hb) (key c) mem_cons_self hkey
      simp [hne]
    rw [foldl_cons, hnew, ih (by rw [append_assoc]; exact hnodup), append_assoc]
    rfl

/-! ### Tables -/

/-- The rows of a table, whose key is unique, are exactly these records. -/
structure Holds (key : α → κ) (rows records : List α) : Prop where
  nodup : (rows.map key).Nodup
  mem_iff : ∀ a, a ∈ rows ↔ a ∈ records

variable {rows records records' : List α}

/-- A row that is written replaces the one with its key. -/
theorem Holds.assign (h : Holds key rows records)
    (hrecords : ∀ b, b ∈ records' ↔ b = a ∨ (b ∈ records ∧ key b ≠ key a)) :
    Holds key (assign key rows a) records' where
  nodup := nodup_assign h.nodup
  mem_iff b := by rw [mem_assign_iff, hrecords, h.mem_iff]

/-- The row with a key is deleted. -/
theorem Holds.delete (h : Holds key rows records)
    (hrecords : ∀ b, b ∈ records' ↔ b ∈ records ∧ key b ≠ k) :
    Holds key (rows.filter fun b => !(key b = k)) records' where
  nodup := h.nodup.sublist (filter_sublist.map key)
  mem_iff b := by
    rw [mem_filter, hrecords, h.mem_iff]
    simp only [Bool.not_eq_eq_eq_not, Bool.not_true, decide_eq_false_iff_not]

end Keyed
