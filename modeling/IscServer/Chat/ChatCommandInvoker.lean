import IscServer.Chat.ChatCommandFresh

/-!
# The Search over Optional Parameters

`CommandInvoker` looks for a choice of present and absent `Optional` parameters under which the
parameters consume the whole string, and tries present before absent. The slots of the parameters
outlive a failed attempt: a `QuotedString` that has collected characters in one keeps them.

## Main results

* `consumeFromOffset_spec` — what the search finds, and what it leaves in the slots.
* `total_of_choice` — the search ends when the attempts before a choice end.
* `parsesAfresh_iff` — the handler is called with the values parsed afresh exactly when the attempts
  before the choice end and leave nothing in a quoted string that is read from quotes.
* `quotedString_keeps_attempt` — a command line on which it is called with something else.
-/

namespace IscServer.ChatCommands

open List Option

variable {tolower : Char → ℕ} {texts : Texts} {rounds : ℕ} {args rest a b : List Char} {π : List ℕ}
  {ps : List Param} {cs cs' : List Bool} {k : ℕ}

/-! ### Choices -/

/-- The parameters consume the whole string, each parsed afresh, when the optional ones are present
or absent as the choice says. -/
inductive Choice (tolower : Char → ℕ) :
    (ps : List Param) → List Char → List Bool → Slots ps → Prop
  | nil : Choice tolower [] [] [] ()
  | required {t : ArgType} {ps : List Param} {args rest : List Char} {cs : List Bool} {v : Val t}
      {values : Slots ps} : Parses tolower t args v rest → Choice tolower ps rest cs values →
      Choice tolower (.required t :: ps) args cs (v, values)
  | present {t : ArgType} {ps : List Param} {args rest : List Char} {cs : List Bool} {v : Val t}
      {values : Slots ps} : Parses tolower t args v rest → Choice tolower ps rest cs values →
      Choice tolower (.optional t :: ps) args (true :: cs) (some v, values)
  | absent {t : ArgType} {ps : List Param} {args : List Char} {cs : List Bool} {values : Slots ps} :
      Choice tolower ps args cs values →
      Choice tolower (.optional t :: ps) args (false :: cs) (none, values)

/-- One choice comes before another: where they first differ, it says present. -/
def Before (cs cs' : List Bool) : Prop :=
  ∃ common s s', cs = common ++ true :: s ∧ cs' = common ++ false :: s'

/-- The first choice, trying present before absent at each optional parameter from left to right. -/
def First (tolower : Char → ℕ) (ps : List Param) (args : List Char) (cs : List Bool)
    (values : Slots ps) : Prop :=
  Choice tolower ps args cs values ∧
    ∀ cs' values', Choice tolower ps args cs' values' → ¬ Before cs' cs

/-- Parsing along a choice comes to the parameter with index `k`, and what is left of the string there
is `a`. The list says what was chosen for the optional parameters before it. -/
inductive Reaches (tolower : Char → ℕ) : List Param → List Char → List Bool → ℕ → List Char → Prop
  | here {p : Param} {ps : List Param} {args : List Char} : Reaches tolower (p :: ps) args [] 0 args
  | required {t : ArgType} {ps : List Param} {args rest a : List Char} {cs : List Bool} {k : ℕ}
      {v : Val t} : Parses tolower t args v rest → Reaches tolower ps rest cs k a →
      Reaches tolower (.required t :: ps) args cs (k + 1) a
  | present {t : ArgType} {ps : List Param} {args rest a : List Char} {cs : List Bool} {k : ℕ}
      {v : Val t} : Parses tolower t args v rest → Reaches tolower ps rest cs k a →
      Reaches tolower (.optional t :: ps) args (true :: cs) (k + 1) a
  | absent {t : ArgType} {ps : List Param} {args a : List Char} {cs : List Bool} {k : ℕ} :
      Reaches tolower ps args cs k a →
      Reaches tolower (.optional t :: ps) args (false :: cs) (k + 1) a

/-! ### The slots -/

/-- The type of a parameter. -/
def Param.type : Param → ArgType
  | .required t => t
  | .optional t => t

/-- The attempt at the parameter with index `k` has an end. -/
def FinishesAt (tolower : Char → ℕ) (ps : List Param) (k : ℕ) (a : List Char) : Prop :=
  ∀ p, ps[k]? = some p → Finishes tolower p.type a

/-- An attempt puts characters into a quoted string of the slot with index `k`. The slot of an
optional parameter is constructed afresh. -/
def LeavesAt (tolower : Char → ℕ) (ps : List Param) (k : ℕ) (a : List Char) (π : List ℕ) : Prop :=
  ∃ t, ps[k]? = some (.required t) ∧ Leaves tolower t a π

/-- An attempt reads a quoted string of the slot with index `k` from a token in quotes. -/
def QuotesAt (tolower : Char → ℕ) (ps : List Param) (k : ℕ) (a : List Char) (π : List ℕ) : Prop :=
  ∃ t, ps[k]? = some (.required t) ∧ Quotes tolower t a π

/-- A quoted string in the slot with index `k`. -/
def contentAt : (ps : List Param) → Slots ps → ℕ → List ℕ → List Char
  | [], _, _, _ => []
  | .required t :: _, (v, _), 0, π => content t v π
  | .optional _ :: _, _, 0, _ => []
  | _ :: ps, (_, slots), k + 1, π => contentAt ps slots k π

/-- The attempts before a choice have an end: those under earlier choices, and those at the optional
parameters that the choice leaves out. -/
def EndsBefore (tolower : Char → ℕ) (ps : List Param) (args : List Char) (cs : List Bool) : Prop :=
  ∀ cs' k a, Before (cs' ++ [true]) cs → Reaches tolower ps args cs' k a → FinishesAt tolower ps k a

/-- No attempt under an earlier choice has put characters into a quoted string that the choice reads
from a token in quotes. -/
def Untouched (tolower : Char → ℕ) (ps : List Param) (args : List Char) (cs : List Bool) : Prop :=
  ∀ pre k b π, pre <+: cs → Reaches tolower ps args pre k b → QuotesAt tolower ps k b π →
    ∀ cs' a, Before cs' cs → Reaches tolower ps args cs' k a → ¬ LeavesAt tolower ps k a π

/-- **The arguments are parsed afresh**: the handler is called if and only if there is a choice, and
then with the values of the first one. -/
def ParsesAfresh (tolower : Char → ℕ) (texts : Texts) (ps : List Param) (args : List Char) : Prop :=
  ((∃ values, Calls tolower texts ps args values) ↔
    ∃ cs values, Choice tolower ps args cs values) ∧
  ∀ values, Calls tolower texts ps args values → ∃ cs, First tolower ps args cs values

/-! ### The order of the choices -/

theorem not_before_nil_left : ¬ Before [] cs := by
  rintro ⟨common, s, s', h, -⟩
  cases common <;> cases h

theorem not_before_nil_right : ¬ Before cs [] := by
  rintro ⟨common, s, s', -, h⟩
  cases common <;> cases h

theorem before_true_false : Before (true :: cs) (false :: cs') := ⟨[], cs, cs', rfl, rfl⟩

theorem not_before_false_true : ¬ Before (false :: cs) (true :: cs') := by
  rintro ⟨common, s, s', h, h'⟩
  cases common with
  | nil => cases h
  | cons c common =>
    obtain ⟨rfl, -⟩ := List.cons.inj h
    cases (List.cons.inj h').1

theorem before_cons_iff (c : Bool) : Before (c :: cs) (c :: cs') ↔ Before cs cs' := by
  constructor
  · rintro ⟨common, s, s', h, h'⟩
    cases common with
    | nil =>
      obtain ⟨rfl, -⟩ := List.cons.inj h
      cases (List.cons.inj h').1
    | cons d common => exact ⟨common, s, s', (List.cons.inj h).2, (List.cons.inj h').2⟩
  · rintro ⟨common, s, s', rfl, rfl⟩
    exact ⟨c :: common, s, s', rfl, rfl⟩

/-! ### Positions behind a parameter -/

variable {t : ArgType} {v : Val t}

variable {p : Param}

theorem reaches_zero_iff : Reaches tolower (p :: ps) args cs 0 a ↔ cs = [] ∧ a = args := by
  constructor
  · intro h
    cases h
    exact ⟨rfl, rfl⟩
  · rintro ⟨rfl, rfl⟩
    exact Reaches.here

theorem reaches_required_iff : Reaches tolower (.required t :: ps) args cs (k + 1) a ↔
    ∃ v rest, Parses tolower t args v rest ∧ Reaches tolower ps rest cs k a := by
  constructor
  · intro h
    cases h with
    | required hparse h => exact ⟨_, _, hparse, h⟩
  · rintro ⟨v, rest, hparse, h⟩
    exact Reaches.required hparse h

theorem finishesAt_zero : FinishesAt tolower (p :: ps) 0 a ↔ Finishes tolower p.type a :=
  ⟨fun h => h p rfl, fun h q hq => by obtain rfl := Option.some.inj hq; exact h⟩

theorem finishesAt_succ :
    FinishesAt tolower (p :: ps) (k + 1) a ↔ FinishesAt tolower ps k a := Iff.rfl

theorem leavesAt_required : LeavesAt tolower (.required t :: ps) 0 a π ↔ Leaves tolower t a π := by
  constructor
  · rintro ⟨t', ht', h⟩
    obtain rfl := Param.required.inj (Option.some.inj ht')
    exact h
  · exact fun h => ⟨t, rfl, h⟩

theorem quotesAt_required : QuotesAt tolower (.required t :: ps) 0 a π ↔ Quotes tolower t a π := by
  constructor
  · rintro ⟨t', ht', h⟩
    obtain rfl := Param.required.inj (Option.some.inj ht')
    exact h
  · exact fun h => ⟨t, rfl, h⟩

theorem not_leavesAt_optional : ¬ LeavesAt tolower (.optional t :: ps) 0 a π := by
  rintro ⟨t', ht', -⟩
  cases ht'

theorem not_quotesAt_optional : ¬ QuotesAt tolower (.optional t :: ps) 0 a π := by
  rintro ⟨t', ht', -⟩
  cases ht'

theorem contentAt_required (w : Val t) (slots : Slots ps) :
    contentAt (.required t :: ps) (w, slots) 0 π = content t w π := rfl

theorem contentAt_required_succ (w : Val t) (slots : Slots ps) :
    contentAt (.required t :: ps) (w, slots) (k + 1) π = contentAt ps slots k π := rfl

theorem contentAt_optional_succ (w : Option (Val t)) (slots : Slots ps) :
    contentAt (.optional t :: ps) (w, slots) (k + 1) π = contentAt ps slots k π := rfl

theorem finishes_of_none (h : parse tolower rounds t args = some none) : Finishes tolower t args :=
  ⟨rounds, by rw [h]; exact some_ne_none _⟩

theorem contentAt_fresh (ps : List Param) (k : ℕ) (π : List ℕ) :
    contentAt ps (freshSlots ps) k π = [] := by
  induction ps generalizing k with
  | nil => rfl
  | cons p ps ih =>
    cases k with
    | zero =>
      cases p with
      | required t => exact content_fresh t π
      | optional t => rfl
    | succ k =>
      cases p with
      | required t => exact ih k
      | optional t => exact ih k

/-! ### Choices behind a parameter -/

theorem choice_required_iff (hparse : Parses tolower t args v rest)
    {values : Slots (.required t :: ps)} :
    Choice tolower (.required t :: ps) args cs values ↔
      values.1 = v ∧ Choice tolower ps rest cs values.2 := by
  constructor
  · intro h
    cases h with
    | required hfirst h =>
      obtain ⟨rfl, rfl⟩ := hparse.unique hfirst
      exact ⟨rfl, h⟩
  · rintro ⟨rfl, h⟩
    exact Choice.required hparse h

variable {values : Slots ps}

theorem First.required (hparse : Parses tolower t args v rest)
    (h : First tolower ps rest cs values) :
    First tolower (.required t :: ps) args cs (v, values) :=
  ⟨Choice.required hparse h.1, fun cs' _ hchoice =>
    h.2 cs' _ ((choice_required_iff hparse).mp hchoice).2⟩

theorem First.present (hparse : Parses tolower t args v rest)
    (h : First tolower ps rest cs values) :
    First tolower (.optional t :: ps) args (true :: cs) (some v, values) := by
  refine ⟨Choice.present hparse h.1, fun cs' values' hchoice hbefore => ?_⟩
  cases hchoice with
  | present hfirst hchoice =>
    obtain ⟨-, rfl⟩ := hparse.unique hfirst
    exact h.2 _ _ hchoice ((before_cons_iff true).mp hbefore)
  | absent _ => exact not_before_false_true hbefore

theorem First.absent (h : First tolower ps args cs values)
    (hno : ∀ v rest cs values, Parses tolower t args v rest → ¬ Choice tolower ps rest cs values) :
    First tolower (.optional t :: ps) args (false :: cs) (none, values) := by
  refine ⟨Choice.absent h.1, fun cs' values' hchoice hbefore => ?_⟩
  cases hchoice with
  | present hfirst hchoice => exact hno _ _ _ _ hfirst hchoice
  | absent hchoice => exact h.2 _ _ hchoice ((before_cons_iff false).mp hbefore)

/-! ### What the search finds -/

/-- The search has failed: there is no choice, every attempt has ended, and a quoted string is empty
afterwards if and only if it was before and no attempt has put characters into it. -/
structure Fails (tolower : Char → ℕ) (ps : List Param) (slots : Slots ps) (args : List Char)
    (slots' : Slots ps) : Prop where
  noChoice : ∀ cs values, ¬ Choice tolower ps args cs values
  ends : ∀ cs k a, Reaches tolower ps args cs k a → FinishesAt tolower ps k a
  keeps : ∀ k π, contentAt ps slots' k π = [] ↔ contentAt ps slots k π = [] ∧
    ∀ cs a, Reaches tolower ps args cs k a → ¬ LeavesAt tolower ps k a π

/-- The quoted strings that a choice reads from quotes were empty at the start, and no earlier attempt
has put characters into them. -/
def Clean (tolower : Char → ℕ) (ps : List Param) (slots : Slots ps) (args : List Char)
    (cs : List Bool) : Prop :=
  ∀ pre k b π, pre <+: cs → Reaches tolower ps args pre k b → QuotesAt tolower ps k b π →
    contentAt ps slots k π = [] ∧
      ∀ cs' a, Before cs' cs → Reaches tolower ps args cs' k a → ¬ LeavesAt tolower ps k a π

/-- The search has found the first choice, and the slots hold its values if and only if the quoted
strings that it reads were clean. -/
structure Finds (tolower : Char → ℕ) (ps : List Param) (slots : Slots ps) (args : List Char)
    (slots' : Slots ps) (cs : List Bool) (values : Slots ps) : Prop where
  first : First tolower ps args cs values
  ends : EndsBefore tolower ps args cs
  same : slots' = values ↔ Clean tolower ps slots args cs

/-- What the search does, by the rest of the string if it is successful. -/
def Searched (tolower : Char → ℕ) (ps : List Param) (slots : Slots ps) (args : List Char) :
    Option (List Char) → Slots ps → Prop
  | none, slots' => Fails tolower ps slots args slots'
  | some rest, slots' => rest = [] ∧ ∃ cs values, Finds tolower ps slots args slots' cs values

/-! ### Required parameters -/

section Required

variable {w w' : Val t} {slots slots' values : Slots ps}

/-- No attempt with the parameter leaves characters in a quoted string of it. -/
theorem leavesAt_first_iff {π : List ℕ} : (∀ cs a, Reaches tolower (.required t :: ps) args cs 0 a →
    ¬ LeavesAt tolower (.required t :: ps) 0 a π) ↔ ¬ Leaves tolower t args π := by
  refine ⟨fun h hleaves => h [] args Reaches.here (leavesAt_required.mpr hleaves),
    fun h cs a hreach => ?_⟩
  obtain ⟨-, rfl⟩ := reaches_zero_iff.mp hreach
  rwa [leavesAt_required]

theorem Fails.of_not_parses (hnone : parse tolower rounds t args = some none)
    (hkeeps : ∀ π, content t w' π = [] ↔ content t w π = [] ∧ ¬ Leaves tolower t args π) :
    Fails tolower (.required t :: ps) (w, slots) args (w', slots) := by
  have hstop : ∀ v rest, ¬ Parses tolower t args v rest := fun v rest h => h.not_none hnone
  refine ⟨fun cs values h => ?_, fun cs k a h => ?_, fun k π => ?_⟩
  · cases h with
    | required hparse _ => exact hstop _ _ hparse
  · cases h with
    | here => exact finishesAt_zero.mpr (finishes_of_none hnone)
    | required hparse _ => exact absurd hparse (hstop _ _)
  · cases k with
    | zero =>
      rw [contentAt_required, contentAt_required, hkeeps, leavesAt_first_iff]
    | succ k =>
      refine ⟨fun h => ⟨h, fun cs a hreach => ?_⟩, And.left⟩
      obtain ⟨v, rest, hparse, -⟩ := reaches_required_iff.mp hreach
      exact absurd hparse (hstop v rest)

section

variable (hparse : Parses tolower t args v rest)
include hparse

theorem Fails.required
    (hkeeps : ∀ π, content t w' π = [] ↔ content t w π = [] ∧ ¬ Leaves tolower t args π)
    (h : Fails tolower ps slots rest slots') :
    Fails tolower (.required t :: ps) (w, slots) args (w', slots') := by
  refine ⟨fun cs values hchoice => ?_, fun cs k a hreach => ?_, fun k π => ?_⟩
  · exact h.noChoice cs _ ((choice_required_iff hparse).mp hchoice).2
  · cases hreach with
    | here =>
      exact finishesAt_zero.mpr hparse.finishes
    | required hfirst hreach =>
      obtain ⟨-, rfl⟩ := hparse.unique hfirst
      exact h.ends _ _ _ hreach
  · cases k with
    | zero =>
      rw [contentAt_required, contentAt_required, hkeeps, leavesAt_first_iff]
    | succ k =>
      rw [contentAt_required_succ, contentAt_required_succ, h.keeps]
      refine and_congr_right fun _ => ⟨fun h cs a hreach => ?_, fun h cs a hreach => ?_⟩
      · obtain ⟨_, _, hfirst, hreach⟩ := reaches_required_iff.mp hreach
        obtain ⟨-, rfl⟩ := hparse.unique hfirst
        exact h cs a hreach
      · exact h cs a (Reaches.required hparse hreach)

theorem clean_required_iff :
    Clean tolower (.required t :: ps) (w, slots) args cs ↔
      (∀ π, Quotes tolower t args π → content t w π = []) ∧ Clean tolower ps slots rest cs := by
  constructor
  · refine fun h => ⟨fun π hπ => ?_, fun pre k b π hpre hreach hquotes => ?_⟩
    · exact (h [] 0 args π nil_prefix Reaches.here (quotesAt_required.mpr hπ)).1
    · obtain ⟨hcontent, hleaves⟩ :=
        h pre (k + 1) b π hpre (Reaches.required hparse hreach) hquotes
      exact ⟨hcontent, fun cs' a hbefore hreach' =>
        hleaves cs' a hbefore (Reaches.required hparse hreach')⟩
  · rintro ⟨hfirst, hothers⟩ pre k b π hpre hreach hquotes
    cases k with
    | zero =>
      obtain ⟨rfl, rfl⟩ := reaches_zero_iff.mp hreach
      refine ⟨hfirst π (quotesAt_required.mp hquotes), fun cs' a hbefore hreach' => ?_⟩
      obtain ⟨rfl, -⟩ := reaches_zero_iff.mp hreach'
      exact absurd hbefore not_before_nil_left
    | succ k =>
      obtain ⟨_, _, hstep, hreach⟩ := reaches_required_iff.mp hreach
      obtain ⟨-, rfl⟩ := hparse.unique hstep
      obtain ⟨hcontent, hleaves⟩ := hothers pre k b π hpre hreach hquotes
      refine ⟨by rw [contentAt_required_succ]; exact hcontent, fun cs' a hbefore hreach' => ?_⟩
      obtain ⟨_, _, hstep', hreach'⟩ := reaches_required_iff.mp hreach'
      obtain ⟨-, rfl⟩ := hparse.unique hstep'
      exact hleaves cs' a hbefore hreach'

theorem Finds.required (hsame : w' = v ↔ ∀ π, Quotes tolower t args π → content t w π = [])
    (h : Finds tolower ps slots rest slots' cs values) :
    Finds tolower (.required t :: ps) (w, slots) args (w', slots') cs (v, values) := by
  refine ⟨h.first.required hparse, fun cs' k a hbefore hreach => ?_, ?_⟩
  · cases hreach with
    | here =>
      exact finishesAt_zero.mpr hparse.finishes
    | required hstep hreach =>
      obtain ⟨-, rfl⟩ := hparse.unique hstep
      exact h.ends _ _ _ hbefore hreach
  · rw [clean_required_iff hparse, ← hsame, ← h.same]
    exact Prod.mk_inj

end

end Required

/-! ### Optional parameters -/

section Optional

variable {slots slots₁ slots' values : Slots ps} {w w' : Option (Val t)}

/-- The attempt with an optional parameter present has failed and has left `slots₁`. -/
structure PresentFails (tolower : Char → ℕ) (t : ArgType) (ps : List Param) (slots : Slots ps)
    (args : List Char) (slots₁ : Slots ps) : Prop where
  finishes : Finishes tolower t args
  noChoice : ∀ v rest cs values, Parses tolower t args v rest → ¬ Choice tolower ps rest cs values
  ends : ∀ v rest cs k a, Parses tolower t args v rest → Reaches tolower ps rest cs k a →
    FinishesAt tolower ps k a
  keeps : ∀ k π, contentAt ps slots₁ k π = [] ↔ contentAt ps slots k π = [] ∧
    ∀ v rest cs a, Parses tolower t args v rest → Reaches tolower ps rest cs k a →
      ¬ LeavesAt tolower ps k a π

theorem PresentFails.of_not_parses (hnone : parse tolower rounds t args = some none) :
    PresentFails tolower t ps slots args slots := by
  have hstop : ∀ v rest, ¬ Parses tolower t args v rest := fun v rest h => h.not_none hnone
  refine ⟨finishes_of_none hnone,
    fun v rest _ _ h => absurd h (hstop v rest), fun v rest _ _ _ h => absurd h (hstop v rest),
    fun k π => ⟨fun h => ⟨h, fun v rest _ _ h => absurd h (hstop v rest)⟩, And.left⟩⟩

theorem PresentFails.of_fails (hparse : Parses tolower t args v rest)
    (h : Fails tolower ps slots rest slots₁) : PresentFails tolower t ps slots args slots₁ := by
  refine ⟨?_, fun _ _ cs values hstep => ?_, fun _ _ cs k a hstep => ?_, fun k π => ?_⟩
  · exact hparse.finishes
  · obtain ⟨-, rfl⟩ := hparse.unique hstep
    exact h.noChoice cs values
  · obtain ⟨-, rfl⟩ := hparse.unique hstep
    exact h.ends cs k a
  · rw [h.keeps]
    refine and_congr_right fun _ => ⟨fun h _ _ cs a hstep => ?_, fun h cs a => ?_⟩
    · obtain ⟨-, rfl⟩ := hparse.unique hstep
      exact h cs a
    · exact h v rest cs a hparse

theorem clean_present_iff (hparse : Parses tolower t args v rest) :
    Clean tolower (.optional t :: ps) (w, slots) args (true :: cs) ↔
      Clean tolower ps slots rest cs := by
  constructor
  · intro h pre k b π hpre hreach hquotes
    obtain ⟨hcontent, hleaves⟩ := h (true :: pre) (k + 1) b π
      ((prefix_cons_inj true).mpr hpre) (Reaches.present hparse hreach) hquotes
    exact ⟨hcontent, fun cs' a hbefore hreach' => hleaves (true :: cs') a
      ((before_cons_iff true).mpr hbefore) (Reaches.present hparse hreach')⟩
  · intro h pre k b π hpre hreach hquotes
    cases hreach with
    | here => exact absurd hquotes not_quotesAt_optional
    | absent _ => cases (cons_prefix_cons.mp hpre).1
    | present hstep hreach =>
      obtain ⟨-, rfl⟩ := hparse.unique hstep
      obtain ⟨hcontent, hleaves⟩ := h _ _ b π (cons_prefix_cons.mp hpre).2 hreach hquotes
      refine ⟨by rw [contentAt_optional_succ]; exact hcontent, fun cs' a hbefore hreach' => ?_⟩
      cases hreach' with
      | present hstep' hreach' =>
        obtain ⟨-, rfl⟩ := hparse.unique hstep'
        exact hleaves _ a ((before_cons_iff true).mp hbefore) hreach'
      | absent _ => exact absurd hbefore not_before_false_true

section

variable (hpresent : PresentFails tolower t ps slots args slots₁)
include hpresent

theorem clean_absent_iff :
    Clean tolower (.optional t :: ps) (w, slots) args (false :: cs) ↔
      Clean tolower ps slots₁ args cs := by
  constructor
  · intro h pre k b π hpre hreach hquotes
    obtain ⟨hcontent, hleaves⟩ := h (false :: pre) (k + 1) b π
      ((prefix_cons_inj false).mpr hpre) (Reaches.absent hreach) hquotes
    refine ⟨(hpresent.keeps k π).mpr ⟨hcontent, fun v rest cs a hstep hreach' => ?_⟩,
      fun cs' a hbefore hreach' => ?_⟩
    · exact hleaves (true :: cs) a before_true_false (Reaches.present hstep hreach')
    · exact hleaves (false :: cs') a ((before_cons_iff false).mpr hbefore) (Reaches.absent hreach')
  · intro h pre k b π hpre hreach hquotes
    cases hreach with
    | here => exact absurd hquotes not_quotesAt_optional
    | present _ _ => cases (cons_prefix_cons.mp hpre).1
    | absent hreach =>
      obtain ⟨hcontent, hleaves⟩ := h _ _ b π (cons_prefix_cons.mp hpre).2 hreach hquotes
      obtain ⟨hempty, htried⟩ := (hpresent.keeps _ π).mp hcontent
      refine ⟨by rw [contentAt_optional_succ]; exact hempty, fun cs' a hbefore hreach' => ?_⟩
      cases hreach' with
      | present hstep hreach' => exact htried _ _ _ a hstep hreach'
      | absent hreach' => exact hleaves _ a ((before_cons_iff false).mp hbefore) hreach'

omit hpresent in
theorem Finds.present (hparse : Parses tolower t args v rest)
    (h : Finds tolower ps slots rest slots' cs values) :
    Finds tolower (.optional t :: ps) (w, slots) args (some v, slots') (true :: cs)
      (some v, values) := by
  refine ⟨h.first.present hparse, fun cs' k a hbefore hreach => ?_, ?_⟩
  · cases hreach with
    | here => exact absurd ((before_cons_iff true).mp hbefore) not_before_nil_left
    | present hstep hreach =>
      obtain ⟨-, rfl⟩ := hparse.unique hstep
      exact h.ends _ _ _ ((before_cons_iff true).mp hbefore) hreach
    | absent hreach => exact absurd hbefore not_before_false_true
  · rw [clean_present_iff hparse, ← h.same]
    exact Prod.mk_inj.trans ⟨And.right, fun h => ⟨rfl, h⟩⟩

theorem Finds.absent (h : Finds tolower ps slots₁ args slots' cs values) :
    Finds tolower (.optional t :: ps) (w, slots) args (none, slots') (false :: cs)
      (none, values) := by
  refine ⟨h.first.absent hpresent.noChoice, fun cs' k a hbefore hreach => ?_, ?_⟩
  · cases hreach with
    | here => exact finishesAt_zero.mpr hpresent.finishes
    | present hstep hreach => exact hpresent.ends _ _ _ _ _ hstep hreach
    | absent hreach => exact h.ends _ _ _ ((before_cons_iff false).mp hbefore) hreach
  · rw [clean_absent_iff hpresent, ← h.same]
    exact Prod.mk_inj.trans ⟨And.right, fun h => ⟨rfl, h⟩⟩

theorem Fails.absent (h : Fails tolower ps slots₁ args slots') :
    Fails tolower (.optional t :: ps) (w, slots) args (w', slots') := by
  refine ⟨fun cs values hchoice => ?_, fun cs k a hreach => ?_, fun k π => ?_⟩
  · cases hchoice with
    | present hparse hchoice => exact hpresent.noChoice _ _ _ _ hparse hchoice
    | absent hchoice => exact h.noChoice _ _ hchoice
  · cases hreach with
    | here => exact finishesAt_zero.mpr hpresent.finishes
    | present hstep hreach => exact hpresent.ends _ _ _ _ _ hstep hreach
    | absent hreach => exact h.ends _ _ _ hreach
  · cases k with
    | zero => exact ⟨fun _ => ⟨rfl, fun _ _ _ => not_leavesAt_optional⟩, fun _ => rfl⟩
    | succ k =>
      rw [contentAt_optional_succ, contentAt_optional_succ, h.keeps, hpresent.keeps, and_assoc]
      refine and_congr_right fun _ => ⟨?_, fun h => ⟨?_, ?_⟩⟩
      · rintro ⟨htrue, hfalse⟩ cs a hreach
        cases hreach with
        | present hstep hreach => exact htrue _ _ _ _ hstep hreach
        | absent hreach => exact hfalse _ _ hreach
      · exact fun v rest cs a hstep hreach => h _ _ (Reaches.present hstep hreach)
      · exact fun cs a hreach => h _ _ (Reaches.absent hreach)

end

end Optional

/-! ### The search -/

theorem optionalMessage_rest? {result1 result2 : ChatCommandResult} (h : result1.rest? = none) :
    (if result2.isSuccessful then result2 else optionalMessage texts result1 result2).rest? =
      result2.rest? := by
  cases result2 with
  | tail rest => rfl
  | nullopt =>
    cases result1 with
    | tail rest => cases h
    | nullopt | error message => rfl
  | error message2 =>
    cases result1 with
    | tail rest => cases h
    | nullopt | error message => rfl

variable {outcome : Option (List Char)}

variable {slots slots' : Slots ps} {w' : Val t}

theorem Searched.required {w : Val t} (hparse : Parses tolower t args v rest)
    (hkeeps : ∀ π, content t w' π = [] ↔ content t w π = [] ∧ ¬ Leaves tolower t args π)
    (hsame : w' = v ↔ ∀ π, Quotes tolower t args π → content t w π = [])
    (h : Searched tolower ps slots rest outcome slots') :
    Searched tolower (.required t :: ps) (w, slots) args outcome (w', slots') := by
  cases outcome with
  | none => exact Fails.required hparse hkeeps h
  | some _ =>
    obtain ⟨hnil, cs, values, hfinds⟩ := h
    exact ⟨hnil, cs, (v, values), hfinds.required hparse hsame⟩

variable {slots₁ : Slots ps}

theorem Searched.absent {w : Option (Val t)}
    (hpresent : PresentFails tolower t ps slots args slots₁)
    (h : Searched tolower ps slots₁ args outcome slots') :
    Searched tolower (.optional t :: ps) (w, slots) args outcome (none, slots') := by
  cases outcome with
  | none => exact Fails.absent hpresent h
  | some _ =>
    obtain ⟨hnil, cs, values, hfinds⟩ := h
    exact ⟨hnil, false :: cs, (none, values), hfinds.absent hpresent⟩

theorem searched_nil (slots : Slots []) (args : List Char) : Searched tolower [] slots args
    (if args.isEmpty then ChatCommandResult.tail args else .nullopt).rest? slots := by
  have hnowhere : ∀ cs k a, ¬ Reaches tolower [] args cs k a := fun cs k a h => by cases h
  cases args with
  | nil =>
    refine ⟨rfl, [], slots, ⟨Choice.nil, fun cs' _ _ hbefore => not_before_nil_right hbefore⟩,
      fun cs' k a hbefore => absurd hbefore not_before_nil_right, fun _ => ?_, fun _ => rfl⟩
    exact fun pre k b _ _ hreach => absurd hreach (hnowhere pre k b)
  | cons c args =>
    refine Fails.mk (fun cs values h => ?_) (fun cs k a h => absurd h (hnowhere cs k a))
      fun k π => ⟨fun h => ⟨h, fun cs a hreach => absurd hreach (hnowhere cs k a)⟩, And.left⟩
    cases h

/-- **The search** finds the first choice, if there is one. -/
theorem consumeFromOffset_spec (ps : List Param) (slots : Slots ps) (args : List Char)
    {result : ChatCommandResult} {slots' : Slots ps}
    (h : consumeFromOffset tolower texts rounds ps slots args = some (result, slots')) :
    Searched tolower ps slots args result.rest? slots' := by
  induction ps generalizing args result with
  | nil =>
    obtain ⟨rfl, rfl⟩ := Prod.mk_inj.mp (Option.some.inj h)
    exact searched_nil slots args
  | cons p ps ih =>
    obtain ⟨slot, slots⟩ := slots
    cases p with
    | required t =>
      have hspec := (@tryConsume_spec tolower texts rounds) t slot args
      rw [consumeFromOffset] at h
      cases hout : tryConsume tolower texts rounds t slot args with
      | none => rw [hout] at h; cases h
      | some outcome =>
        obtain ⟨next, w'⟩ := outcome
        rw [hout] at h hspec
        obtain ⟨hkeeps, hresult⟩ := hspec
        cases hrest : next.rest? with
        | none =>
          rw [hrest] at hresult
          have hstop : some (next, (w', slots)) = some (result, slots') := by
            cases next with
            | tail _ => cases hrest
            | nullopt | error _ => exact h
          obtain ⟨rfl, rfl⟩ := Prod.mk_inj.mp (Option.some.inj hstop)
          rw [hrest]
          exact Fails.of_not_parses hresult hkeeps
        | some rest =>
          obtain rfl := rest?_eq_some hrest
          obtain ⟨v, hparse, hsame⟩ := hresult
          obtain ⟨⟨result, slots₁⟩, hsearch, heq⟩ := map_eq_some_iff.mp h
          obtain ⟨rfl, rfl⟩ := Prod.mk_inj.mp heq
          exact (ih slots rest hsearch).required ⟨rounds, hparse⟩ hkeeps hsame
    | optional t =>
      have hspec := ((@tryConsume_spec tolower texts rounds) t (fresh t) args).fresh_eq
      rw [consumeFromOffset] at h
      cases hout : tryConsume tolower texts rounds t (fresh t) args with
      | none => rw [hout] at h; cases h
      | some outcome =>
        obtain ⟨next, arg⟩ := outcome
        rw [hout, parsedOf, map_some] at hspec
        dsimp only at hspec
        rw [hout] at h
        cases hrest : next.rest? with
        | none =>
          rw [hrest] at hspec
          -- try again omitting the argument
          obtain ⟨⟨result2, slots₂⟩, hsearch, heq⟩ :
              ∃ found, consumeFromOffset tolower texts rounds ps slots args = some found ∧
                (if found.1.isSuccessful then found.1
                  else optionalMessage texts next found.1, (none, found.2)) =
                  (result, slots') := by
            cases next with
            | tail _ => cases hrest
            | nullopt | error _ => exact map_eq_some_iff.mp h
          obtain ⟨rfl, rfl⟩ := Prod.mk_inj.mp heq
          rw [optionalMessage_rest? hrest]
          exact (ih slots args hsearch).absent (PresentFails.of_not_parses hspec)
        | some rest =>
          obtain rfl := rest?_eq_some hrest
          have hparse : Parses tolower t args arg rest := ⟨rounds, hspec⟩
          dsimp only at h
          cases hsearch : consumeFromOffset tolower texts rounds ps slots rest with
          | none => rw [hsearch] at h; cases h
          | some found =>
            obtain ⟨result1, slots₁⟩ := found
            rw [hsearch] at h
            have hfound := ih slots rest hsearch
            cases hrest1 : result1.rest? with
            | some rest1 =>
              obtain rfl := rest?_eq_some hrest1
              obtain ⟨rfl, rfl⟩ := Prod.mk_inj.mp (Option.some.inj h)
              obtain ⟨hnil, cs, values, hfinds⟩ := hfound
              exact ⟨hnil, true :: cs, (some arg, values), hfinds.present hparse⟩
            | none =>
              rw [hrest1] at hfound
              obtain ⟨⟨result2, slots₂⟩, hsearch2, heq⟩ :
                  ∃ found, consumeFromOffset tolower texts rounds ps slots₁ args =
                    some found ∧ (if found.1.isSuccessful then found.1
                      else optionalMessage texts result1 found.1, (none, found.2)) =
                      (result, slots') := by
                cases result1 with
                | tail _ => cases hrest1
                | nullopt | error _ => exact map_eq_some_iff.mp h
              obtain ⟨rfl, rfl⟩ := Prod.mk_inj.mp heq
              rw [optionalMessage_rest? hrest1]
              exact (ih slots₁ args hsearch2).absent (PresentFails.of_fails hparse hfound)

/-! ### The search ends -/

theorem tryConsume_ne_none (w : Val t) (h : parse tolower rounds t args ≠ none) :
    tryConsume tolower texts rounds t w args ≠ none := by
  intro hnone
  have hspec := (@tryConsume_spec tolower texts rounds) t w args
  rw [hnone] at hspec
  exact h hspec

/-- From some number of rounds on, the search does not run out of them. -/
def Total (tolower : Char → ℕ) (texts : Texts) (ps : List Param) (args : List Char) : Prop :=
  ∃ enough, ∀ rounds, enough ≤ rounds → ∀ slots,
    consumeFromOffset tolower texts rounds ps slots args ≠ none

theorem tryConsume_tail {w : Val t}
    (h : tryConsume tolower texts rounds t w args = some (.tail rest, w')) :
    ∃ v, Parses tolower t args v rest := by
  have hspec := (@tryConsume_spec tolower texts rounds) t w args
  rw [h] at hspec
  obtain ⟨-, v, hparse, -⟩ := hspec
  exact ⟨v, rounds, hparse⟩

section

variable (hfinishes : Finishes tolower t args)
include hfinishes

section

variable (h : ∀ v rest, Parses tolower t args v rest → Total tolower texts ps rest)
include h

/-- An attempt that ends, and behind which the search ends. -/
theorem total_after :
    ∃ enough, ∀ rounds, enough ≤ rounds → ∀ w, ∃ result w',
      tryConsume tolower texts rounds t w args = some (result, w') ∧
        ∀ rest, result = .tail rest → ∀ slots,
          consumeFromOffset tolower texts rounds ps slots rest ≠ none := by
  obtain ⟨enough, hparse⟩ := hfinishes
  obtain ⟨r, hr⟩ := ne_none_iff_exists'.mp hparse
  have hended : ∀ rounds, enough ≤ rounds → ∀ w, ∃ result w',
      tryConsume tolower texts rounds t w args = some (result, w') := fun rounds hle w => by
    have hsome := parse_mono hle t args r hr
    obtain ⟨⟨result, w'⟩, hout⟩ := ne_none_iff_exists'.mp
      ((@tryConsume_ne_none _ texts) w (by rw [hsome]; exact some_ne_none r))
    exact ⟨result, w', hout⟩
  by_cases hmatch : ∃ v rest, Parses tolower t args v rest
  · obtain ⟨v, rest, hv⟩ := hmatch
    obtain ⟨enough', htotal⟩ := h v rest hv
    refine ⟨max enough enough', fun rounds hle w => ?_⟩
    obtain ⟨result, w', hout⟩ := hended rounds (by omega) w
    refine ⟨result, w', hout, fun rest' hresult slots => ?_⟩
    subst hresult
    obtain ⟨v', hv'⟩ := tryConsume_tail hout
    obtain ⟨-, rfl⟩ := hv.unique hv'
    exact htotal rounds (by omega) slots
  · refine ⟨enough, fun rounds hle w => ?_⟩
    obtain ⟨result, w', hout⟩ := hended rounds hle w
    refine ⟨result, w', hout, fun rest hresult => ?_⟩
    subst hresult
    obtain ⟨v, hv⟩ := tryConsume_tail hout
    exact absurd ⟨v, rest, hv⟩ hmatch

theorem Total.required : Total tolower texts (.required t :: ps) args := by
  obtain ⟨enough, hafter⟩ := total_after hfinishes h
  refine ⟨enough, fun rounds hle slots hnone => ?_⟩
  obtain ⟨slot, slots⟩ := slots
  obtain ⟨result, w, hout, hrest⟩ := hafter rounds hle slot
  rw [consumeFromOffset, hout] at hnone
  cases result with
  | tail rest => exact hrest rest rfl _ (map_eq_none_iff.mp hnone)
  | nullopt | error message => cases hnone

theorem Total.absent (habsent : Total tolower texts ps args) : Total tolower texts
    (.optional t :: ps) args := by
  obtain ⟨enough, hafter⟩ := total_after hfinishes h
  obtain ⟨enough', htotal⟩ := habsent
  refine ⟨max enough enough', fun rounds hle slots hnone => ?_⟩
  obtain ⟨slot, slots⟩ := slots
  obtain ⟨result, w, hout, hrest⟩ := hafter rounds (by omega) (fresh t)
  have hagain : ∀ slots, consumeFromOffset tolower texts rounds ps slots args ≠ none :=
    htotal rounds (by omega)
  rw [consumeFromOffset, hout] at hnone
  cases result with
  | nullopt | error message => exact hagain _ (map_eq_none_iff.mp hnone)
  | tail rest =>
    obtain ⟨⟨result1, slots₁⟩, hsearch⟩ := ne_none_iff_exists'.mp (hrest rest rfl slots)
    dsimp only at hnone
    rw [hsearch] at hnone
    cases result1 with
    | tail rest1 => cases hnone
    | nullopt | error message => exact hagain _ (map_eq_none_iff.mp hnone)

end

end

theorem Total.present (hparse : Parses tolower t args v rest)
    (hchoice : Choice tolower ps rest cs values) (h : Total tolower texts ps rest) :
    Total tolower texts (.optional t :: ps) args := by
  obtain ⟨enough, hafter⟩ := (@total_after _ _ _ ps) hparse.finishes fun v' rest' hparse' => by
    obtain ⟨-, rfl⟩ := hparse.unique hparse'
    exact h
  refine ⟨enough, fun rounds hle slots hnone => ?_⟩
  obtain ⟨slot, slots⟩ := slots
  obtain ⟨result, w, hout, hrest⟩ := hafter rounds hle (fresh t)
  have hspec := ((@tryConsume_spec tolower texts rounds) t (fresh t) args).fresh_eq
  rw [hout, parsedOf, map_some] at hspec
  rw [consumeFromOffset, hout] at hnone
  cases result with
  | nullopt | error message => exact hparse.not_none hspec
  | tail rest' =>
    obtain ⟨-, rfl⟩ := hparse.unique ⟨rounds, hspec⟩
    obtain ⟨⟨result1, slots₁⟩, hsearch⟩ := ne_none_iff_exists'.mp (hrest rest rfl slots)
    have hfound := consumeFromOffset_spec ps slots rest hsearch
    dsimp only at hnone
    rw [hsearch] at hnone
    -- there is a choice, so that the parameters behind do not fail
    cases result1 with
    | tail rest1 => cases hnone
    | nullopt | error message => exact Fails.noChoice hfound cs values hchoice

/-- The search ends when all attempts end. -/
theorem total_of_ends (ps : List Param) (args : List Char)
    (hends : ∀ cs k a, Reaches tolower ps args cs k a → FinishesAt tolower ps k a) :
    Total tolower texts ps args := by
  induction ps generalizing args with
  | nil => exact ⟨0, fun rounds _ slots => some_ne_none _⟩
  | cons p ps ih =>
    have hfinishes : Finishes tolower p.type args := finishesAt_zero.mp (hends [] 0 args Reaches.here)
    cases p with
    | required t =>
      refine Total.required hfinishes fun v rest hparse => ih rest fun cs k a hreach => ?_
      exact finishesAt_succ.mp (hends cs (k + 1) a (Reaches.required hparse hreach))
    | optional t =>
      refine Total.absent hfinishes (fun v rest hparse => ih rest fun cs k a hreach => ?_)
        (ih args fun cs k a hreach => ?_)
      · exact finishesAt_succ.mp (hends _ (k + 1) a (Reaches.present hparse hreach))
      · exact finishesAt_succ.mp (hends _ (k + 1) a (Reaches.absent hreach))

/-- **The search ends** when the attempts before the choice end, and there is none earlier. -/
theorem total_of_choice (h : Choice tolower ps args cs values)
    (hends : EndsBefore tolower ps args cs) : Total tolower texts ps args := by
  induction h with
  | nil => exact ⟨0, fun rounds _ slots => some_ne_none _⟩
  | required hparse _ ih =>
    refine Total.required hparse.finishes fun v rest hparse' => ?_
    obtain ⟨-, rfl⟩ := hparse.unique hparse'
    exact ih fun cs' k a hbefore hreach =>
      finishesAt_succ.mp (hends cs' (k + 1) a hbefore (Reaches.required hparse hreach))
  | present hparse hchoice ih =>
    refine Total.present hparse hchoice (ih fun cs' k a hbefore hreach => ?_)
    exact finishesAt_succ.mp (hends (true :: cs') (k + 1) a ((before_cons_iff true).mpr hbefore)
      (Reaches.present hparse hreach))
  | @absent t ps args cs values hchoice ih =>
    refine Total.absent ?_ (fun v rest hparse => total_of_ends ps rest fun cs' k a hreach => ?_)
      (ih fun cs' k a hbefore hreach => ?_)
    · exact finishesAt_zero.mp (hends [] 0 args before_true_false Reaches.here)
    · exact finishesAt_succ.mp (hends (true :: cs') (k + 1) a before_true_false
        (Reaches.present hparse hreach))
    · exact finishesAt_succ.mp (hends (false :: cs') (k + 1) a ((before_cons_iff false).mpr hbefore)
        (Reaches.absent hreach))

/-! ### The first choice -/

variable {values' : Slots ps}

theorem Choice.total (h : Choice tolower ps args cs values)
    (h' : Choice tolower ps args cs' values') :
    cs = cs' ∧ values = values' ∨ Before cs cs' ∨ Before cs' cs := by
  induction h generalizing cs' with
  | nil =>
    cases h'
    exact Or.inl ⟨rfl, rfl⟩
  | required hparse _ ih =>
    cases h' with
    | required hparse' h' =>
      obtain ⟨rfl, rfl⟩ := hparse.unique hparse'
      refine (ih h').imp_left ?_
      rintro ⟨rfl, rfl⟩
      exact ⟨rfl, rfl⟩
  | present hparse _ ih =>
    cases h' with
    | present hparse' h' =>
      obtain ⟨rfl, rfl⟩ := hparse.unique hparse'
      refine (ih h').imp ?_ (Or.imp (before_cons_iff true).mpr (before_cons_iff true).mpr)
      rintro ⟨rfl, rfl⟩
      exact ⟨rfl, rfl⟩
    | absent _ => exact Or.inr (Or.inl before_true_false)
  | absent _ ih =>
    cases h' with
    | present _ _ => exact Or.inr (Or.inr before_true_false)
    | absent h' =>
      refine (ih h').imp ?_ (Or.imp (before_cons_iff false).mpr (before_cons_iff false).mpr)
      rintro ⟨rfl, rfl⟩
      exact ⟨rfl, rfl⟩

theorem First.unique (h : First tolower ps args cs values)
    (h' : First tolower ps args cs' values') :
    cs = cs' ∧ values = values' := by
  rcases h.1.total h'.1 with heq | hbefore | hbefore
  · exact heq
  · exact absurd hbefore (h'.2 cs values h.1)
  · exact absurd hbefore (h.2 cs' values' h'.1)

/-- If there is a choice, there is a first one. -/
theorem exists_first (ps : List Param) (args : List Char) {cs : List Bool} {values : Slots ps}
    (h : Choice tolower ps args cs values) : ∃ cs values, First tolower ps args cs values := by
  induction ps generalizing args cs with
  | nil =>
    cases h
    exact ⟨[], (), Choice.nil, fun _ _ _ => not_before_nil_right⟩
  | cons p ps ih =>
    cases h with
    | required hparse h =>
      obtain ⟨cs, values, hfirst⟩ := ih _ h
      exact ⟨cs, _, hfirst.required hparse⟩
    | present hparse h =>
      obtain ⟨cs, values, hfirst⟩ := ih _ h
      exact ⟨true :: cs, _, hfirst.present hparse⟩
    | @absent t ps args cs values h =>
      by_cases hpresent : ∃ v rest cs values, Parses tolower t args v rest ∧
        Choice tolower ps rest cs values
      · obtain ⟨v, rest, cs, values, hparse, h⟩ := hpresent
        obtain ⟨cs, values, hfirst⟩ := ih _ h
        exact ⟨true :: cs, _, hfirst.present hparse⟩
      · obtain ⟨cs, values, hfirst⟩ := ih _ h
        refine ⟨false :: cs, _, hfirst.absent fun v rest cs values hparse h => ?_⟩
        exact hpresent ⟨v, rest, cs, values, hparse, h⟩

/-! ### The handler -/

/-- What the handler is called with. -/
theorem Calls.finds (h : Calls tolower texts ps args values) :
    ∃ cs firstValues, Finds tolower ps (freshSlots ps) args values cs firstValues := by
  obtain ⟨rounds, rest, h⟩ := h
  exact (consumeFromOffset_spec ps (freshSlots ps) args h).2

theorem clean_fresh_iff : Clean tolower ps (freshSlots ps) args cs ↔ Untouched tolower ps args cs :=
  ⟨fun h pre k b π hpre hreach hquotes => (h pre k b π hpre hreach hquotes).2,
    fun h pre k b π hpre hreach hquotes =>
      ⟨contentAt_fresh ps k π, h pre k b π hpre hreach hquotes⟩⟩

/-- **Arguments are parsed afresh** exactly when, for the first choice under which the parameters
consume the whole string, the attempts before it have an end and have left nothing in a quoted string
that the choice reads from a token in quotes. -/
theorem parsesAfresh_iff (tolower : Char → ℕ) (texts : Texts) (ps : List Param) (args : List Char) :
    ParsesAfresh tolower texts ps args ↔ ∀ cs values, First tolower ps args cs values →
      EndsBefore tolower ps args cs ∧ Untouched tolower ps args cs := by
  constructor
  · rintro ⟨hcalled, hvalues⟩ cs values hfirst
    obtain ⟨called, hcalls⟩ := hcalled.mpr ⟨cs, values, hfirst.1⟩
    obtain ⟨cs₁, values₁, hfinds⟩ := hcalls.finds
    obtain ⟨cs₂, hfirst₂⟩ := hvalues called hcalls
    obtain ⟨rfl, rfl⟩ := hfirst.unique hfinds.first
    obtain ⟨-, rfl⟩ := hfirst.unique hfirst₂
    exact ⟨hfinds.ends, clean_fresh_iff.mp (hfinds.same.mp rfl)⟩
  · intro hcondition
    refine ⟨⟨?_, ?_⟩, fun values hcalls => ?_⟩
    · rintro ⟨values, hcalls⟩
      obtain ⟨cs, firstValues, hfinds⟩ := hcalls.finds
      exact ⟨cs, firstValues, hfinds.first.1⟩
    · rintro ⟨cs, values, hchoice⟩
      obtain ⟨cs, values, hfirst⟩ := exists_first ps args hchoice
      obtain ⟨enough, htotal⟩ := (@total_of_choice _ texts) hfirst.1 (hcondition cs values hfirst).1
      obtain ⟨⟨result, slots⟩, hsearch⟩ := ne_none_iff_exists'.mp
        (htotal enough (Nat.le_refl _) (freshSlots ps))
      have hspec := consumeFromOffset_spec ps (freshSlots ps) args hsearch
      cases hrest : result.rest? with
      | none =>
        rw [hrest] at hspec
        exact absurd hfirst.1 (hspec.noChoice cs values)
      | some rest => exact ⟨slots, enough, rest, by rw [hsearch, rest?_eq_some hrest]⟩
    · obtain ⟨cs, firstValues, hfinds⟩ := hcalls.finds
      have huntouched := (hcondition cs firstValues hfinds.first).2
      rw [hfinds.same.mpr (clean_fresh_iff.mpr huntouched)]
      exact ⟨cs, hfinds.first⟩

/-! ### A quoted string that keeps an attempt -/

variable {w : SlotVal (.required t)}

theorem consumeFromOffset_stops
    (hout : tryConsume tolower texts rounds t w args = some (.nullopt, w')) :
    consumeFromOffset tolower texts rounds (.required t :: ps) (w, slots) args =
      some (.nullopt, (w', slots)) := by
  rw [consumeFromOffset, hout]
  rfl

theorem consumeFromOffset_last {slots : Slots []}
    (hout : tryConsume tolower texts rounds t w args = some (.tail [], w')) :
    consumeFromOffset tolower texts rounds [.required t] (w, slots) args =
      some (.tail [], (w', slots)) := by
  rw [consumeFromOffset, hout]
  rfl

variable {next : List Char} {arg : Val t}

section

variable (hout : tryConsume tolower texts rounds t (fresh t) args = some (.tail next, arg))
include hout

theorem consumeFromOffset_omitting {slots₂ : Slots ps} {w : SlotVal (.optional t)}
    (hpresent : consumeFromOffset tolower texts rounds ps slots next = some (.nullopt, slots₁))
    (habsent : consumeFromOffset tolower texts rounds ps slots₁ args = some (.tail rest, slots₂)) :
    consumeFromOffset tolower texts rounds (.optional t :: ps) (w, slots) args =
      some (.tail rest, (none, slots₂)) := by
  rw [consumeFromOffset, hout]
  dsimp only
  rw [hpresent]
  dsimp only
  rw [habsent]
  rfl

/-- The attempt with the optional parameter present fails in the second parameter, and the one
without it finds in the slot of that what the first attempt has left. -/
theorem calls_omitting {t' : ArgType} {v w : Val t'}
    (hpresent : tryConsume tolower texts rounds t' (fresh t') next = some (.nullopt, v))
    (habsent : tryConsume tolower texts rounds t' v args = some (.tail [], w)) :
    Calls tolower texts [.optional t, .required t'] args (none, w, ()) :=
  ⟨rounds, [], (@consumeFromOffset_omitting _ _ _ _ _ [.required t']) hout
    (consumeFromOffset_stops hpresent) (consumeFromOffset_last habsent)⟩

end

theorem tryConsume_quotedString (w : Val .quotedString) :
    tryConsume tolower texts rounds .quotedString w args = some (tryConsumeQuoted w args) := by
  rw [tryConsume]
  rfl

/-- The attempt with the optional string present leaves `b"` in the slot of the quoted string, and the
attempt without it appends to that. -/
theorem quotedString_keeps_attempt :
    ¬ ParsesAfresh (fun c => c.toNat) ⟨fun token _ => token, [], []⟩
      [.optional .string, .required .quotedString] "\"a 'b\"".toList := by
  intro h
  have hstring : tryConsume (fun c => c.toNat) ⟨fun token _ => token, [], []⟩ 0 .string
      (fresh .string) "\"a 'b\"".toList = some (.tail "'b\"".toList, "\"a".toList) := by
    rw [tryConsume]
    rfl
  have hpresent : tryConsume (fun c => c.toNat) ⟨fun token _ => token, [], []⟩ 0 .quotedString
      (fresh .quotedString) "'b\"".toList = some (.nullopt, "b\"".toList) :=
    (tryConsume_quotedString _).trans (by rfl)
  have habsent : tryConsume (fun c => c.toNat) ⟨fun token _ => token, [], []⟩ 0 .quotedString
      "b\"".toList "\"a 'b\"".toList = some (.tail [], "b\"a 'b".toList) :=
    (tryConsume_quotedString _).trans (by rfl)
  obtain ⟨cs, hchoice, -⟩ := h.2 _ (calls_omitting hstring hpresent habsent)
  have hscan : parseQuoted "\"a 'b\"".toList = some ("a 'b".toList, []) := by decide +kernel
  have hparse : Parses (fun c => c.toNat) .quotedString "\"a 'b\"".toList "a 'b".toList [] :=
    ⟨0, by rw [parse, hscan]; rfl⟩
  cases hchoice with
  | absent hchoice =>
    have hvalue : "b\"a 'b".toList = "a 'b".toList := ((choice_required_iff hparse).mp hchoice).1
    exact absurd hvalue (by decide)

end IscServer.ChatCommands
