import IscServer.Library.Run

/-!
# Programs that Log their Primitive Steps

A program over a state with a fixed set of primitive operations can be modelled as a function on
`Traced` states: the state together with the log of the operations made so far. Every change of
the state goes through `emit`, so the log explains the state, and a condition on the primitive
steps (an operation in the state before it) can be asked of the log of a whole program, whatever
the control flow between the steps.

* `Ensures P Q s s'` — `s'` was reached from `s` by logged steps, and `Q` holds if each of these
  steps meets `P`. `Ensures.refl`, `Ensures.emit` and `Ensures.trans` follow the structure of a
  program: nothing, one primitive step, one part after the other.
* `Emits V s s'` — all logged steps from `s` to `s'` meet `V`.

The two come together in `Emits.invariant`: when the steps a program emits are valid by its
control flow and meet a condition by hypothesis, an invariant of such steps survives the program.
-/

/-- A state with the log of the primitive operations that led to it. -/
structure Traced (σ ο : Type) where
  core : σ
  trace : List ο

namespace Traced

variable {σ ο : Type} {apply : σ → ο → σ} {P V : σ → ο → Prop} {Q R : Prop}
  {s s' s'' : Traced σ ο} {op : ο}

/-- Make one primitive step and log it. -/
def emit (apply : σ → ο → σ) (s : Traced σ ο) (op : ο) : Traced σ ο :=
  ⟨apply s.core op, s.trace ++ [op]⟩

/-- `s'` comes from `s` by the logged steps `ops`. -/
def Leads (apply : σ → ο → σ) (s s' : Traced σ ο) (ops : List ο) : Prop :=
  s'.trace = s.trace ++ ops ∧ s'.core = ops.foldl apply s.core

theorem Leads.nil : Leads apply s s [] := ⟨(List.append_nil _).symm, rfl⟩

theorem Leads.append {ops ops' : List ο} (h : Leads apply s s' ops) (h' : Leads apply s' s'' ops') : Leads apply s s'' (ops ++ ops') := by
  refine ⟨?_, ?_⟩
  · rw [h'.1, h.1, List.append_assoc]
  · rw [h'.2, h.2, List.foldl_append]

/-! ### What a program ensures -/

/-- `s'` was reached from `s` by logged steps, and `Q` holds if each of them meets `P`. -/
def Ensures (apply : σ → ο → σ) (P : σ → ο → Prop) (Q : Prop) (s s' : Traced σ ο) : Prop :=
  ∃ ops, Leads apply s s' ops ∧ (Run.Along apply P s.core ops → Q)

/-- Nothing was done. -/
theorem Ensures.refl (h : Q) : Ensures apply P Q s s := ⟨[], Leads.nil, fun _ => h⟩

/-- One primitive step. -/
theorem Ensures.emit (h : P s.core op → Q) : Ensures apply P Q s (s.emit apply op) :=
  ⟨[op], ⟨rfl, rfl⟩, fun hops => h hops.1⟩

/-- One part of a program after the other: the second part relies on what the first one
ensures. -/
theorem Ensures.trans (h : Ensures apply P Q s s') (h' : Ensures apply P (Q → R) s' s'') :
    Ensures apply P R s s'' := by
  obtain ⟨ops, hleads, hq⟩ := h
  obtain ⟨ops', hleads', hr⟩ := h'
  refine ⟨ops ++ ops', hleads.append hleads', fun halong => ?_⟩
  obtain ⟨hfirst, hsecond⟩ := Run.along_append.mp halong
  rw [← hleads.2] at hsecond
  exact hr hsecond (hq hfirst)

/-- A weaker conclusion. -/
theorem Ensures.mono (h : Ensures apply P Q s s') (hqr : Q → R) : Ensures apply P R s s' := by
  obtain ⟨ops, hleads, hq⟩ := h
  exact ⟨ops, hleads, fun halong => hqr (hq halong)⟩

/-- Parts that carry a fact along: the second starts with what the first ends with. -/
theorem Ensures.comp {A B C : Prop} (h : Ensures apply P (A → B) s s')
    (h' : Ensures apply P (B → C) s' s'') : Ensures apply P (A → C) s s'' :=
  h.trans (h'.mono fun hbc hab ha => hbc (hab ha))

variable {core : σ}

/-- From an empty log, the whole log is what has to meet the condition. -/
theorem Ensures.of_start (h : Ensures apply P Q ⟨core, []⟩ s')
    (halong : Run.Along apply P core s'.trace) : Q := by
  obtain ⟨ops, hleads, hq⟩ := h
  rw [hleads.1, List.nil_append] at halong
  exact hq halong

/-! ### What a program emits -/

/-- All logged steps from `s` to `s'` meet `V`. -/
def Emits (apply : σ → ο → σ) (V : σ → ο → Prop) (s s' : Traced σ ο) : Prop :=
  ∃ ops, Leads apply s s' ops ∧ Run.Along apply V s.core ops

/-- Nothing was done. -/
theorem Emits.refl : Emits apply V s s := ⟨[], Leads.nil, trivial⟩

/-- One primitive step. -/
theorem Emits.emit (h : V s.core op) : Emits apply V s (s.emit apply op) :=
  ⟨[op], ⟨rfl, rfl⟩, h, trivial⟩

/-- One part of a program after the other. -/
theorem Emits.trans (h : Emits apply V s s') (h' : Emits apply V s' s'') : Emits apply V s s'' := by
  obtain ⟨ops, hleads, hv⟩ := h
  obtain ⟨ops', hleads', hv'⟩ := h'
  refine ⟨ops ++ ops', hleads.append hleads', Run.along_append.mpr ⟨hv, ?_⟩⟩
  rwa [← hleads.2]

/-- A weaker condition on the steps. -/
theorem Emits.mono {W : σ → ο → Prop} (h : Emits apply V s s') (hvw : ∀ s op, V s op → W s op) :
    Emits apply W s s' := by
  obtain ⟨ops, hleads, hv⟩ := h
  exact ⟨ops, hleads, Run.Along.imp_of_invariant (fun _ => True) (fun _ _ _ _ => trivial)
    (fun s op _ => hvw s op) trivial hv⟩

variable (Inv : σ → Prop)

/-- An invariant of the valid steps survives a part of a program that emits valid steps only. -/
theorem Emits.keeps (hstep : ∀ s op, Inv s → V s op → Inv (apply s op)) (h : Emits apply V s s')
    (hs : Inv s.core) : Inv s'.core := by
  obtain ⟨ops, hleads, hv⟩ := h
  rw [hleads.2]
  exact Run.Along.invariant Inv hstep hs hv

/-- What a part of a program ensures may rest on a fact about the state it starts in. -/
theorem Emits.ensures (h : Emits apply V s s') (hq : Q → Ensures apply P R s s') :
    Ensures apply P (Q → R) s s' := by
  by_cases hQ : Q
  · exact (hq hQ).mono fun hr _ => hr
  · obtain ⟨ops, hleads, -⟩ := h
    exact ⟨ops, hleads, fun _ hQ' => absurd hQ' hQ⟩

/-- **Invariants of programs**: an invariant kept by the valid steps that meet `P` survives a
program that emits valid steps only, if the steps in its log meet `P`. -/
theorem Emits.invariant (hstep : ∀ s op, Inv s → V s op ∧ P s op → Inv (apply s op))
    (h : Emits apply V ⟨core, []⟩ s') (halong : Run.Along apply P core s'.trace) (hcore : Inv core) :
    Inv s'.core := by
  obtain ⟨ops, hleads, hv⟩ := h
  rw [hleads.1, List.nil_append] at halong
  rw [hleads.2]
  exact Run.Along.invariant Inv hstep hcore (hv.and halong)

end Traced
