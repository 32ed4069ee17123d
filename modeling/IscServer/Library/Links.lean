import Mathlib.Data.Finset.Card

/-!
# Cutting the Cycles of Links

A value has a link to at most one other, so that the links from it make one chain. The chain comes
to an end, or it runs into a cycle. A walk along the chain that remembers where it has been finds
the cycle: it stops at the value whose link leads back. Cutting this link leaves the chain with an
end and takes nothing but a link of that cycle.

## Main results

* `walk_isSome`, `ends_of_walk_none`, `ends_of_walk_some` — the walk comes to a result, and what
  the result means.
* `Cuts.cut` — cutting a link of a cycle that is left removes at most one link of each cycle.
* `Cuts.existsUnique` — once all chains end, exactly one link of each cycle has been removed.
* `exists_rank` — where all chains end, a rank grows along the links.
-/

namespace Links

open List

variable {α : Type} {f g : α → Option α} {a b c : α}

/-- The chain of links from one value comes to another. -/
abbrev Leads (f : α → Option α) : α → α → Prop := Relation.ReflTransGen fun x y => f x = some y

/-- The links from a value lead back to it. -/
def OnCycle (f : α → Option α) (a : α) : Prop := ∃ b, f a = some b ∧ Leads f b a

/-- The chain of links from a value comes to an end. -/
def Ends (f : α → Option α) (a : α) : Prop := Acc (fun y x => f x = some y) a

/-! ### Cycles -/

theorem OnCycle.leads_back (h : OnCycle f a) (hab : Leads f a b) : Leads f b a := by
  obtain ⟨c, hc, hca⟩ := h
  induction hab with
  | refl => exact .refl
  | tail _ hxb ih =>
    obtain rfl | ⟨y, hxy, hya⟩ := ih.cases_head
    · obtain rfl := Option.some.inj (hxb.symm.trans hc)
      exact hca
    · obtain rfl := Option.some.inj (hxb.symm.trans hxy)
      exact hya

theorem OnCycle.of_leads (h : OnCycle f a) (hab : Leads f a b) : OnCycle f b := by
  obtain rfl | ⟨y, hby, hya⟩ := (h.leads_back hab).cases_head
  · exact h
  · exact ⟨y, hby, hya.trans hab⟩

theorem Ends.not_onCycle (h : Ends f a) : ¬ OnCycle f a := by
  induction h with
  | intro a _ ih =>
    rintro ⟨b, hab, hba⟩
    exact ih b hab (OnCycle.of_leads ⟨b, hab, hba⟩ (.single hab))

/-- Fewer links make no chain longer. -/
theorem Ends.mono (h : Ends f a) (hgf : ∀ x y, g x = some y → f x = some y) : Ends g a :=
  Subrelation.accessible (fun {y x} => hgf x y) h

/-! ### Removed links -/

/-- Some links of cycles have been removed, at most one of each cycle. -/
structure Cuts (f g : α → Option α) : Prop where
  kept : ∀ a, g a = f a ∨ g a = none ∧ OnCycle f a
  once : ∀ a b, OnCycle f a → Leads f a b → g a ≠ f a → g b ≠ f b → a = b

namespace Cuts

theorem refl (f : α → Option α) : Cuts f f :=
  ⟨fun _ => Or.inl rfl, fun _ _ _ _ hne => absurd rfl hne⟩

theorem link (h : Cuts f g) (hab : g a = some b) : f a = some b := by
  obtain heq | ⟨hnone, -⟩ := h.kept a
  · exact heq ▸ hab
  · exact absurd (hnone.symm.trans hab) nofun

theorem onCycle (h : Cuts f g) (hc : OnCycle g c) : OnCycle f c := by
  obtain ⟨b, hcb, hbc⟩ := hc
  exact ⟨b, h.link hcb, Relation.ReflTransGen.mono (fun _ _ => h.link) b c hbc⟩

/-- No link of a cycle that is left has been removed. -/
theorem intact (h : Cuts f g) (hc : OnCycle g c) (hcb : Leads f c b) : Leads g c b ∧ g b = f b := by
  have hkept : ∀ {x}, Leads g c x → g x = f x := by
    intro x hcx
    obtain ⟨y, hxy, -⟩ := hc.of_leads hcx
    rw [hxy, h.link hxy]
  induction hcb with
  | refl => exact ⟨.refl, hkept .refl⟩
  | tail _ hxy ih =>
    have hcy := ih.1.tail (ih.2.trans hxy)
    exact ⟨hcy, hkept hcy⟩

/-- **One link of each cycle**: once all chains end, exactly one has been removed. -/
theorem existsUnique (h : Cuts f g) (hends : ∀ b, Ends g b) (ha : OnCycle f a) :
    ∃! b, Leads f a b ∧ g b ≠ f b := by
  have hexists : ∃ b, Leads f a b ∧ g b ≠ f b := by
    by_contra hnone
    have hsame : ∀ b, Leads f a b → g b = f b := fun b hab =>
      not_not.mp fun hne => hnone ⟨b, hab, hne⟩
    obtain ⟨b, hab, hba⟩ := ha
    have hleads : ∀ x, Leads f b x → Leads g b x := by
      intro x hbx
      induction hbx with
      | refl => exact .refl
      | tail hbx hxy ih => exact ih.tail ((hsame _ (.head hab hbx)).trans hxy)
    exact (hends a).not_onCycle ⟨b, (hsame a .refl).trans hab, hleads a hba⟩
  obtain ⟨b, hab, hb⟩ := hexists
  refine ⟨b, ⟨hab, hb⟩, fun b' hb' => ?_⟩
  exact h.once b' b (ha.of_leads hb'.1) ((ha.leads_back hb'.1).trans hab) hb'.2 hb

end Cuts

variable [DecidableEq α]

/-- Remove the link of a value. -/
def cut (f : α → Option α) (c : α) : α → Option α := Function.update f c none

theorem cut_link (h : cut f c a = some b) : f a = some b := by
  unfold cut at h
  by_cases hac : a = c
  · rw [hac, Function.update_self] at h
    exact absurd h nofun
  · rwa [Function.update_of_ne hac] at h

/-- Cutting a link of a cycle that is left. -/
theorem Cuts.cut (h : Cuts f g) (hc : OnCycle g c) : Cuts f (cut g c) := by
  have hother : ∀ {x}, x ≠ c → Links.cut g c x = g x := fun hne => Function.update_of_ne hne _ _
  refine ⟨fun a => ?_, fun a b ha hab hga hgb => ?_⟩
  · by_cases hac : a = c
    · exact Or.inr ⟨hac ▸ Function.update_self .., hac ▸ h.onCycle hc⟩
    · rw [hother hac]
      exact h.kept a
  · by_cases hac : a = c <;> by_cases hbc : b = c
    · rw [hac, hbc]
    · rw [hother hbc] at hgb
      exact absurd (h.intact hc (hac ▸ hab)).2 hgb
    · rw [hother hac] at hga
      exact absurd (h.intact hc (hbc ▸ ha.leads_back hab)).2 hga
    · rw [hother hac] at hga
      rw [hother hbc] at hgb
      exact h.once a b ha hab hga hgb

/-! ### Walking -/

/-- Walk along the links, remembering where the walk has been: the value whose link leads back, if
there is one. The walk takes the given number of steps at most. -/
def walk (f : α → Option α) : ℕ → List α → α → Option (Option α)
  | 0, _, _ => none
  | n + 1, visited, a =>
    match f a with
    | none => some none
    | some b => if b ∈ a :: visited then some (some a) else walk f n (a :: visited) b

variable {visited : List α}

/-- **The walk comes to a result**: it visits no value with a link twice. -/
theorem walk_isSome {keys : Finset α} (hkeys : ∀ a b, f a = some b → a ∈ keys) {n : ℕ}
    (hnodup : visited.Nodup) (hsub : ∀ v ∈ visited, v ∈ keys)
    (ha : a ∉ visited) (hn : keys.card < n + visited.length) :
    ∃ r, walk f n visited a = some r := by
  induction n generalizing visited a with
  | zero =>
    have hle : visited.toFinset.card ≤ keys.card :=
      Finset.card_le_card fun v hv => hsub v (mem_toFinset.mp hv)
    rw [toFinset_card_of_nodup hnodup] at hle
    omega
  | succ n ih =>
    rw [walk]
    cases hab : f a with
    | none => exact ⟨_, rfl⟩
    | some b =>
      dsimp only
      by_cases hb : b ∈ a :: visited
      · exact ⟨_, if_pos hb⟩
      · rw [if_neg hb]
        refine ih (nodup_cons.mpr ⟨ha, hnodup⟩) ?_ hb (by rw [length_cons]; omega)
        exact forall_mem_cons.mpr ⟨hkeys a b hab, hsub⟩

theorem ends_of_walk_none {n : ℕ} (h : walk f n visited a = some none) : Ends f a := by
  induction n generalizing visited a with
  | zero => exact absurd h nofun
  | succ n ih =>
    rw [walk] at h
    refine .intro a fun y hay => ?_
    rw [hay] at h
    dsimp only at h
    split_ifs at h
    · exact absurd (Option.some.inj h) nofun
    · exact ih h

/-- **The value that a walk finds** is on a cycle, and without its link the chain ends. -/
theorem ends_of_walk_some {n : ℕ} (h : walk f n visited a = some (some c))
    (hvisited : ∀ v ∈ visited, Leads f v a) : OnCycle f c ∧ Ends (cut f c) a := by
  have hnone : Ends (cut f c) c := .intro c fun y hy => by
    rw [cut, Function.update_self] at hy
    exact absurd hy nofun
  induction n generalizing visited a with
  | zero => exact absurd h nofun
  | succ n ih =>
    rw [walk] at h
    cases hab : f a with
    | none =>
      rw [hab] at h
      exact absurd (Option.some.inj h) nofun
    | some b =>
      rw [hab] at h
      dsimp only at h
      split_ifs at h with hb
      · obtain rfl := Option.some.inj (Option.some.inj h)
        refine ⟨⟨b, hab, ?_⟩, hnone⟩
        obtain rfl | hb := mem_cons.mp hb
        · exact .refl
        · exact hvisited b hb
      · obtain ⟨hcycle, hends⟩ := ih h (forall_mem_cons.mpr
          ⟨.single hab, fun v hv => (hvisited v hv).tail hab⟩)
        refine ⟨hcycle, .intro a fun y hy => ?_⟩
        obtain rfl := Option.some.inj (hab.symm.trans (cut_link hy))
        exact hends

/-! ### Ranks -/

omit [DecidableEq α] in
/-- **A rank that grows along the links**: the number of values whose chains come by. -/
theorem exists_rank {keys : Finset α} (hkeys : ∀ a b, f a = some b → a ∈ keys)
    (hends : ∀ a, Ends f a) : ∃ rank : α → ℕ, ∀ a b, f a = some b → rank a < rank b := by
  classical
  refine ⟨fun b => (keys.filter fun x => Leads f x b ∧ x ≠ b).card, fun a b hab => ?_⟩
  have hne : ∀ {x}, Leads f x a → x ≠ b := by
    rintro x hxa rfl
    exact (hends a).not_onCycle ⟨x, hab, hxa⟩
  refine Finset.card_lt_card (Finset.ssubset_iff_of_subset ?_ |>.mpr ⟨a, ?_, ?_⟩)
  · intro x hx
    obtain ⟨hkey, hxa, -⟩ := Finset.mem_filter.mp hx
    exact Finset.mem_filter.mpr ⟨hkey, hxa.tail hab, hne hxa⟩
  · exact Finset.mem_filter.mpr ⟨hkeys a b hab, .single hab, hne .refl⟩
  · exact fun ha => (Finset.mem_filter.mp ha).2.2 rfl

end Links
