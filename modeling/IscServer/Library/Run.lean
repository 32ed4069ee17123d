import Mathlib.Data.List.Basic

/-!
# Runs of a Step Function

A system is a step function `step : σ → ε → σ` on states and events; a run over a list of
events is its left fold. This module packages the two inductions that results about runs need.

* `Along step P s es` says that every step of the run meets `P`, a condition on the state
  before the step and its event. `Along.invariant` carries an invariant through such a run.
* `foldl_range` is the induction on the rounds of a loop over a range.
* A **refinement** relates a step function that handles events in bulk to one that handles
  them atom by atom. When each bulk step is the fold of its atoms (`Refines`), a run depends
  only on the concatenation of the atoms (`Refines.run_eq`): the cutting into events is not
  observable.
-/

namespace Run

open List

variable {σ τ ε α : Type}

/-- Every step of the run from `s` over the events meets `P` in the state before it. -/
def Along (step : σ → ε → σ) (P : σ → ε → Prop) : σ → List ε → Prop
  | _, [] => True
  | s, e :: es => P s e ∧ Along step P (step s e) es

/-- The steps of a run can be checked one after the other. -/
instance decidableAlong (step : σ → ε → σ) (P : σ → ε → Prop) [∀ s e, Decidable (P s e)] :
    (s : σ) → (es : List ε) → Decidable (Along step P s es)
  | _, [] => isTrue trivial
  | s, e :: es =>
    have := decidableAlong step P (step s e) es
    inferInstanceAs (Decidable (_ ∧ _))

variable {step : σ → ε → σ} {P Q : σ → ε → Prop}

variable {s : σ} {es : List ε}

/-- **Invariants of runs**: an invariant kept by every step that meets `P` holds at the end of
every run whose steps meet `P`. -/
theorem Along.invariant (Inv : σ → Prop) (hstep : ∀ s e, Inv s → P s e → Inv (step s e))
    (hs : Inv s) (h : Along step P s es) : Inv (es.foldl step s) := by
  induction es generalizing s with
  | nil => exact hs
  | cons e es ih => exact ih (hstep s e hs h.1) h.2

/-- Two conditions that agree in every state of an invariant agree along every run from such a
state; the invariant may rely on the condition itself. -/
theorem along_congr (Inv : σ → Prop) (hiff : ∀ s e, Inv s → (P s e ↔ Q s e))
    (hstep : ∀ s e, Inv s → Q s e → Inv (step s e)) (es : List ε) (hs : Inv s) :
    Along step P s es ↔ Along step Q s es := by
  induction es generalizing s with
  | nil => exact Iff.rfl
  | cons e es ih =>
    constructor
    · rintro ⟨hp, h⟩
      have hq := (hiff s e hs).mp hp
      exact ⟨hq, (ih (hstep s e hs hq)).mp h⟩
    · rintro ⟨hq, h⟩
      exact ⟨(hiff s e hs).mpr hq, (ih (hstep s e hs hq)).mpr h⟩

/-- Two conditions that agree in every state of an invariant on the events that meet `A` agree
along every run of such events. -/
theorem along_iff_of_along {A : σ → ε → Prop} (Inv : σ → Prop)
    (hiff : ∀ s e, Inv s → A s e → (P s e ↔ Q s e))
    (hstep : ∀ s e, Inv s → A s e → Q s e → Inv (step s e)) (hs : Inv s) (h : Along step A s es) :
    Along step P s es ↔ Along step Q s es := by
  induction es generalizing s with
  | nil => exact Iff.rfl
  | cons e es ih =>
    obtain ⟨ha, h⟩ := h
    constructor
    · rintro ⟨hp, hrest⟩
      have hq := (hiff s e hs ha).mp hp
      exact ⟨hq, (ih (hstep s e hs ha hq) h).mp hrest⟩
    · rintro ⟨hq, hrest⟩
      exact ⟨(hiff s e hs ha).mpr hq, (ih (hstep s e hs ha hq) h).mpr hrest⟩

/-- What an invariant and the condition give at each step holds along the run. -/
theorem Along.imp_of_invariant (Inv : σ → Prop) (hstep : ∀ s e, Inv s → P s e → Inv (step s e))
    (himp : ∀ s e, Inv s → P s e → Q s e) (hs : Inv s) (h : Along step P s es) :
    Along step Q s es := by
  induction es generalizing s with
  | nil => trivial
  | cons e es ih => exact ⟨himp s e hs h.1, ih (hstep s e hs h.1) h.2⟩

variable {fs : List ε}

/-- The steps of a run over two lists are those over the first and then those over the second. -/
theorem along_append :
    Along step P s (es ++ fs) ↔ Along step P s es ∧ Along step P (es.foldl step s) fs := by
  induction es generalizing s with
  | nil => exact ⟨fun h => ⟨trivial, h⟩, fun h => h.2⟩
  | cons e es ih =>
    constructor
    · rintro ⟨he, h⟩
      exact ⟨⟨he, (ih.mp h).1⟩, (ih.mp h).2⟩
    · rintro ⟨⟨he, hes⟩, hfs⟩
      exact ⟨he, ih.mpr ⟨hes, hfs⟩⟩

/-- **What a step can spoil**: a property that a step keeps exactly if it meets the condition holds
at the end of a run exactly if it held at the start and every step met the condition. -/
theorem foldl_iff_along {G : σ → Prop} (Inv : σ → Prop) (hkeep : ∀ s e, Inv s → Inv (step s e))
    (hiff : ∀ s e, Inv s → (G (step s e) ↔ G s ∧ P s e)) (es : List ε) (hs : Inv s) :
    G (es.foldl step s) ↔ G s ∧ Along step P s es := by
  induction es generalizing s with
  | nil => exact ⟨fun h => ⟨h, trivial⟩, fun h => h.1⟩
  | cons e es ih =>
    rw [foldl_cons, ih (hkeep s e hs), hiff s e hs, Along, and_assoc]

/-- Two conditions on the steps can be joined. -/
theorem Along.and {s : σ} {es : List ε} (hp : Along step P s es) (hq : Along step Q s es) :
    Along step (fun s e => P s e ∧ Q s e) s es := by
  induction es generalizing s with
  | nil => trivial
  | cons e es ih => exact ⟨⟨hp.1, hq.1⟩, ih hp.2 hq.2⟩

variable {R : ε → Prop}

/-- A condition on the events alone can be added to the condition on the steps. -/
theorem Along.and_mem {s : σ} {es : List ε} (h : Along step P s es) (hes : ∀ e ∈ es, R e) :
    Along step (fun s e => P s e ∧ R e) s es := by
  induction es generalizing s with
  | nil => trivial
  | cons e es ih =>
    obtain ⟨he, hes⟩ := forall_mem_cons.mp hes
    exact ⟨⟨h.1, he⟩, ih h.2 hes⟩

/-- Events that meet the condition in every state. -/
theorem along_of_forall_mem (h : ∀ s e, R e → P s e) {s : σ} {es : List ε} (hes : ∀ e ∈ es, R e) :
    Along step P s es := by
  induction es generalizing s with
  | nil => trivial
  | cons e es ih =>
    obtain ⟨he, hes⟩ := forall_mem_cons.mp hes
    exact ⟨h s e he, ih hes⟩

/-- A step that meets no condition at all meets the trivial one. -/
theorem along_of_forall (h : ∀ s e, P s e) (s : σ) (es : List ε) : Along step P s es := by
  induction es generalizing s with
  | nil => trivial
  | cons e es ih => exact ⟨h s e, ih _⟩

/-- **Loops over a range**: what holds before the first round, and of `k + 1` rounds if it holds of
`k`, holds after all rounds. -/
theorem foldl_range {f : σ → ℕ → σ} (Inv : ℕ → σ → Prop) (n : ℕ) (hs : Inv 0 s)
    (hround : ∀ k < n, ∀ t, Inv k t → Inv (k + 1) (f t k)) : Inv n ((List.range n).foldl f s) := by
  induction n with
  | zero => exact hs
  | succ n ih =>
    rw [range_succ, foldl_append]
    exact hround n (Nat.lt_succ_self n) _ (ih fun k hk => hround k (Nat.lt_succ_of_lt hk))

/-- A bulk step function **refines** an atomic one on the steps that meet `P`: each bulk step
keeps the invariant and, seen through `abs`, is the fold of the atoms of its event. -/
structure Refines (step : σ → ε → σ) (P : σ → ε → Prop) (Inv : σ → Prop) (abs : σ → τ)
    (atom : τ → α → τ) (atoms : ε → List α) : Prop where
  keeps : ∀ s e, Inv s → P s e → Inv (step s e)
  simulates : ∀ s e, Inv s → P s e → abs (step s e) = (atoms e).foldl atom (abs s)

variable {Inv : σ → Prop} {abs : σ → τ} {atom : τ → α → τ} {atoms : ε → List α}

/-- A run of the bulk step function is the fold of all atoms. -/
theorem Refines.run_eq_foldl (h : Refines step P Inv abs atom atoms) (hs : Inv s)
    (halong : Along step P s es) :
    abs (es.foldl step s) = (es.flatMap atoms).foldl atom (abs s) := by
  induction es generalizing s with
  | nil => rfl
  | cons e es ih =>
    obtain ⟨hp, halong⟩ := halong
    rw [foldl_cons, ih (h.keeps s e hs hp) halong, h.simulates s e hs hp,
      flatMap_cons, foldl_append]

/-- **Independence of the cutting.** Two runs over events with the same atoms end in the same
abstract state. -/
theorem Refines.run_eq (h : Refines step P Inv abs atom atoms) (hs : Inv s)
    (hes : Along step P s es) (hfs : Along step P s fs)
    (hatoms : es.flatMap atoms = fs.flatMap atoms) :
    abs (es.foldl step s) = abs (fs.foldl step s) := by
  rw [h.run_eq_foldl hs hes, h.run_eq_foldl hs hfs, hatoms]

end Run
