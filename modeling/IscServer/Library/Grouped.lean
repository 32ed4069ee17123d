import IscServer.Library.Keyed

/-!
# Folding a List Group by Group

A loop goes once through a list whose items belong to groups and keeps one value for each group. The
first item of a group opens it with a value `top`; every item is then combined into the value of its
group, which may fail and stop the whole loop; a group whose value is `dead` is not looked at again.

## Main results

* `groups_eq_none_iff` — the loop fails exactly when the items of one group, taken alone, fail.
* `mem_groups_iff` — what it leaves for a group is what the items of that group alone give.
-/

namespace Grouped

open List Option

variable {ι κ V : Type} [DecidableEq κ] (group : ι → κ) (top : V) (dead : V → Bool)
  (combine : V → ι → Option V)

/-- One item: its group is opened when it is new and passed over when it is dead. -/
def step (store : List (κ × V)) (i : ι) : Option (List (κ × V)) :=
  match Keyed.find Prod.fst store (group i) with
  | none => (combine top i).map fun v => Keyed.assign Prod.fst store (group i, v)
  | some (_, v) =>
    if dead v then some store
    else (combine v i).map fun v' => Keyed.assign Prod.fst store (group i, v')

/-- The whole loop. -/
def groups (items : List ι) : Option (List (κ × V)) :=
  items.foldlM (step group top dead combine) []

/-- One item of a group, when the items of the others are left out. -/
def stepAlone (v : V) (i : ι) : Option V := if dead v then some v else combine v i

/-- The items of one group. -/
def alone (items : List ι) : Option V := items.foldlM (stepAlone dead combine) top

/-- The items that belong to a group. -/
def only (k : κ) (items : List ι) : List ι := items.filter fun i => group i = k

variable {group top dead combine} {items : List ι} {store : List (κ × V)} {k : κ} {v : V} {i : ι}

/-- The loop combines the items of its list and no others. -/
theorem groups_congr {combine' : V → ι → Option V}
    (h : ∀ i ∈ items, ∀ v, combine v i = combine' v i) :
    groups group top dead combine items = groups group top dead combine' items := by
  have hfold : ∀ store, items.foldlM (step group top dead combine) store =
      items.foldlM (step group top dead combine') store := by
    induction items with
    | nil => exact fun _ => rfl
    | cons i items ih =>
      intro store
      have hstep : step group top dead combine store i = step group top dead combine' store i := by
        simp only [step, h i mem_cons_self]
      simp only [foldlM_cons, hstep, ih fun j hj => h j (mem_cons_of_mem i hj)]
  exact hfold []

theorem mem_only : i ∈ only group k items ↔ i ∈ items ∧ group i = k := by
  simp [only]

theorem only_append_singleton : only group k (items ++ [i]) =
    if group i = k then only group k items ++ [i] else only group k items := by
  by_cases h : group i = k <;> simp [only, h]

theorem alone_append_singleton :
    alone top dead combine (items ++ [i]) =
      (alone top dead combine items).bind fun v => stepAlone dead combine v i := by
  cases h : List.foldlM (stepAlone dead combine) top items with
  | none => simp [alone, h]
  | some v => simp [alone, h]

theorem groups_append_singleton :
    groups group top dead combine (items ++ [i]) =
      (groups group top dead combine items).bind fun store => step group top dead combine store i := by
  cases h : List.foldlM (step group top dead combine) [] items with
  | none => simp [groups, h]
  | some v => simp [groups, h]

/-- What the loop keeps is, for every group that has been opened, what its items alone give. -/
structure Kept (group : ι → κ) (top : V) (dead : V → Bool) (combine : V → ι → Option V)
    (items : List ι) (store : List (κ × V)) : Prop where
  nodup : (store.map Prod.fst).Nodup
  find_eq : ∀ k, Keyed.find Prod.fst store k =
    if k ∈ items.map group then (alone top dead combine (only group k items)).map (Prod.mk k)
    else none
  alone_ne : ∀ k, alone top dead combine (only group k items) ≠ none

/-- A group that was never opened holds no item yet. -/
theorem only_eq_nil (h : k ∉ items.map group) : only group k items = [] := by
  refine filter_eq_nil_iff.mpr fun i hi hk => h ?_
  exact mem_map.mpr ⟨i, hi, by simpa using hk⟩

/-- One more item changes the value of its own group only. -/
private theorem kept_assign (hkept : Kept group top dead combine items store)
    (h : alone top dead combine (only group (group i) (items ++ [i])) = some v) :
    Kept group top dead combine (items ++ [i]) (Keyed.assign Prod.fst store (group i, v)) := by
  refine ⟨Keyed.nodup_assign hkept.nodup, fun k => ?_, fun k => ?_⟩
  · rw [Keyed.find_assign]
    by_cases hk : group i = k
    · subst hk
      rw [if_pos rfl, if_pos (by simp), h]
      rfl
    · rw [if_neg hk, hkept.find_eq k, only_append_singleton, if_neg hk]
      have hmem : (k ∈ (items ++ [i]).map group) = (k ∈ items.map group) := by
        simp [Ne.symm hk]
      simp only [hmem]
  · by_cases hk : group i = k
    · subst hk
      rw [h]
      exact some_ne_none v
    · rw [only_append_singleton, if_neg hk]
      exact hkept.alone_ne k

variable (hdead : dead top = false)

include hdead

/-- The step taken for an item is the step of its group alone. -/
private theorem step_of_kept (hkept : Kept group top dead combine items store) (i : ι) :
    (∃ v, alone top dead combine (only group (group i) (items ++ [i])) = some v ∧
        ∃ store', step group top dead combine store i = some store' ∧
          Kept group top dead combine (items ++ [i]) store') ∨
      (alone top dead combine (only group (group i) (items ++ [i])) = none ∧
        step group top dead combine store i = none) := by
  have halone : alone top dead combine (only group (group i) (items ++ [i])) =
      (alone top dead combine (only group (group i) items)).bind
        fun v => stepAlone dead combine v i := by
    rw [only_append_singleton, if_pos rfl, alone_append_singleton]
  have hfind := hkept.find_eq (group i)
  by_cases hopen : group i ∈ items.map group
  · rw [if_pos hopen] at hfind
    obtain ⟨v, hv⟩ := ne_none_iff_exists'.mp (hkept.alone_ne (group i))
    rw [hv, map_some] at hfind
    rw [hv, bind_some, stepAlone] at halone
    by_cases hd : dead v
    · rw [if_pos hd] at halone
      refine Or.inl ⟨v, halone, store, ?_, ⟨hkept.nodup, fun k => ?_, fun k => ?_⟩⟩
      · rw [step, hfind]
        exact if_pos hd
      · rw [hkept.find_eq k]
        by_cases hk : group i = k
        · subst hk
          rw [if_pos hopen, if_pos (by simp), halone, hv]
        · have hmem : (k ∈ (items ++ [i]).map group) = (k ∈ items.map group) := by
            simp [Ne.symm hk]
          simp only [hmem, only_append_singleton, if_neg hk]
      · by_cases hk : group i = k
        · subst hk
          rw [halone]
          exact some_ne_none v
        · rw [only_append_singleton, if_neg hk]
          exact hkept.alone_ne k
    · rw [if_neg hd] at halone
      cases hc : combine v i with
      | none => exact Or.inr ⟨halone.trans hc, by rw [step, hfind]; simp [hd, hc]⟩
      | some v' =>
        refine Or.inl ⟨v', halone.trans hc, _, ?_, kept_assign hkept (halone.trans hc)⟩
        rw [step, hfind]
        simp [hd, hc]
  · rw [if_neg hopen] at hfind
    rw [only_eq_nil hopen] at halone
    have halone : alone top dead combine (only group (group i) (items ++ [i])) = combine top i := by
      rw [halone, alone, foldlM_nil]
      simp [stepAlone, hdead]
    cases hc : combine top i with
    | none => exact Or.inr ⟨halone.trans hc, by rw [step, hfind]; simp [hc]⟩
    | some v' =>
      refine Or.inl ⟨v', halone.trans hc, _, ?_, kept_assign hkept (halone.trans hc)⟩
      rw [step, hfind]
      simp [hc]

/-- **The loop is the groups taken alone**: it ends with what they give, or fails when one of them
does. -/
theorem kept_or_none (items : List ι) :
    (∃ store, groups group top dead combine items = some store ∧
        Kept group top dead combine items store) ∨
      (groups group top dead combine items = none ∧
        ∃ k, alone top dead combine (only group k items) = none) := by
  induction items using List.reverseRecOn with
  | nil =>
    refine Or.inl ⟨[], rfl, nodup_nil, fun k => ?_, fun k => ?_⟩
    · rfl
    · exact some_ne_none top
  | append_singleton items i ih =>
    rw [groups_append_singleton]
    rcases ih with ⟨store, hstore, hkept⟩ | ⟨hnone, k, hk⟩
    · rw [hstore, bind_some]
      rcases step_of_kept hdead hkept i with ⟨v, -, store', hstep, hkept'⟩ | ⟨hk, hstep⟩
      · exact Or.inl ⟨store', hstep, hkept'⟩
      · exact Or.inr ⟨hstep, group i, hk⟩
    · rw [hnone]
      refine Or.inr ⟨rfl, k, ?_⟩
      by_cases h : group i = k
      · rw [only_append_singleton, if_pos h, alone_append_singleton, hk]
        rfl
      · rw [only_append_singleton, if_neg h]
        exact hk

theorem groups_eq_none_iff : groups group top dead combine items = none ↔
    ∃ k, alone top dead combine (only group k items) = none := by
  rcases @kept_or_none _ _ _ _ group _ _ combine hdead items with ⟨store, hstore, hkept⟩ | ⟨hnone, hk⟩
  · simp only [hstore, reduceCtorEq, false_iff, not_exists]
    exact hkept.alone_ne
  · exact ⟨fun _ => hk, fun _ => hnone⟩

/-- What the loop leaves for a group. -/
theorem mem_groups_iff (h : groups group top dead combine items = some store) :
    (k, v) ∈ store ↔
      k ∈ items.map group ∧ alone top dead combine (only group k items) = some v := by
  rcases @kept_or_none _ _ _ _ group _ _ combine hdead items with ⟨store', hstore, hkept⟩ | ⟨hnone, -⟩
  · obtain rfl : store' = store := by simpa [hstore] using h
    have hiff := Keyed.find_eq_some_iff (a := (k, v)) (k := k) hkept.nodup
    rw [hkept.find_eq k] at hiff
    by_cases hk : k ∈ items.map group
    · simpa [hk] using hiff.symm
    · simpa [hk] using hiff
  · rw [hnone] at h
    cases h

end Grouped
