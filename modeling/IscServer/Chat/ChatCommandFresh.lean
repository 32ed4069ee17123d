import IscServer.Chat.ChatCommandArgs

/-!
# Arguments Parsed Afresh

What the arguments of a command mean: each parameter is parsed on a freshly constructed value, and
each `Optional` is present or absent. `parse` says so for one parameter, without the value that a slot
held before. `QuotedString::TryConsume` appends to it, so that a slot remembers earlier attempts.

## Main results

* `tryConsume_spec` — what an attempt returns is what parsing afresh returns, and what it leaves in
  the slot differs from it only in the quoted strings that were not empty before.
* `parse_mono` — a result stays the same with more rounds.
-/

namespace IscServer.ChatCommands

open Option

variable {tolower : Char → ℕ} {texts : Texts} {rounds : ℕ} {args a : List Char} {π : List ℕ}

/-! ### Parsing afresh -/

/-- What opens a quoted string. -/
def isQuote (c : Char) : Bool := c = '"' || c = '\''

/-- The content of a quoted string, and what follows the closing quote and the delimiters after it,
if there is one and nothing else follows. -/
def scanQuoted (quote : Char) : List Char → List Char × Option (List Char)
  | [] => ([], none)
  | c :: rest =>
    if c = quote then ([], if firstToken rest = [] then some (afterToken rest) else none)
    else if c = '\\' then
      match rest with
      | [] => ([], none)
      | d :: rest => (d :: (scanQuoted quote rest).1, (scanQuoted quote rest).2)
    else (c :: (scanQuoted quote rest).1, (scanQuoted quote rest).2)

/-- A token of its own. -/
def parseToken (args : List Char) : Option (List Char × List Char) :=
  if firstToken args = [] then none else some (firstToken args, afterToken args)

/-- A quoted string, or a token. -/
def parseQuoted : List Char → Option (List Char × List Char)
  | [] => none
  | quote :: rest =>
    if isQuote quote then (scanQuoted quote rest).2.map ((scanQuoted quote rest).1, ·)
    else parseToken (quote :: rest)

/-- An outcome of parsing a value: not finished in the rounds, no match, or a value and the rest. -/
abbrev Parsed (V : Type) := Option (Option (V × List Char))

/-- The longest run of values, and what follows it. -/
def longestRun {V : Type} (p : List Char → Parsed V) : ℕ → List Char → Option (List V × List Char)
  | 0, _ => none
  | rounds + 1, args =>
    match p args with
    | none => none
    | some none => some ([], args)
    | some (some (v, rest)) =>
      (longestRun p rounds rest).map fun (vs, rest) => (v :: vs, rest)

/-- One value after the other. -/
def parseTuple {V : Type} (p : List Char → Parsed V) : (n : ℕ) → List Char → Parsed (Tuple V n)
  | 0, args => some (some ((), args))
  | n + 1, args =>
    match p args with
    | none => none
    | some none => some none
    | some (some (v, rest)) =>
      (parseTuple p n rest).map fun result => result.map fun (vs, rest) => ((v, vs), rest)

mutual

/-- **A parameter parsed afresh**: vectors take the longest run, which is not empty, and variants the
first alternative that matches. -/
def parse (tolower : Char → ℕ) (rounds : ℕ) : (t : ArgType) → List Char → Parsed (Val t)
  | .int type, args =>
    some ((parseToken args).bind fun (token, rest) =>
      (stringTo tolower type token).map fun n => (n, rest))
  | .string, args => some (parseToken args)
  | .quotedString, args => some (parseQuoted args)
  | .tail, args => some (some (args, []))
  | .vector t, args =>
    (longestRun (parse tolower rounds t) (rounds + 1) args).map fun (vs, rest) =>
      if vs.isEmpty then none else some (vs, rest)
  | .array t n, args => parseTuple (parse tolower rounds t) n args
  | .variant alternatives, args => parseAlternatives tolower rounds alternatives args

/-- The first alternative that matches. -/
def parseAlternatives (tolower : Char → ℕ) (rounds : ℕ) :
    (alternatives : Alternatives) → List Char → Parsed (AltVal alternatives)
  | .last t, args => parse tolower rounds t args
  | .cons t rest, args =>
    match parse tolower rounds t args with
    | none => none
    | some (some (v, tail)) => some (some (Sum.inl v, tail))
    | some none =>
      (parseAlternatives tolower rounds rest args).map fun result =>
        result.map fun (w, tail) => (Sum.inr w, tail)

end

/-- A parameter matches, with a value and the rest of the string. -/
def Parses (tolower : Char → ℕ) (t : ArgType) (args : List Char) (v : Val t) (rest : List Char) :
    Prop :=
  ∃ rounds, parse tolower rounds t args = some (some (v, rest))

/-- The attempt at a parameter has an end. -/
def Finishes (tolower : Char → ℕ) (t : ArgType) (args : List Char) : Prop :=
  ∃ rounds, parse tolower rounds t args ≠ none

/-! ### More rounds -/

variable {rounds' : ℕ}

theorem longestRun_mono {V : Type} {p q : List Char → Parsed V}
    (hpq : ∀ args r, p args = some r → q args = some r) (hle : rounds ≤ rounds')
    {r : List V × List Char} (h : longestRun p rounds args = some r) :
    longestRun q rounds' args = some r := by
  induction rounds generalizing args rounds' r with
  | zero => cases h
  | succ rounds ih =>
    obtain ⟨rounds', rfl⟩ := Nat.exists_eq_succ_of_ne_zero (n := rounds') (by omega)
    rw [longestRun] at h ⊢
    cases hp : p args with
    | none => rw [hp] at h; cases h
    | some result =>
      rw [hp] at h
      rw [hpq args result hp]
      cases result with
      | none => exact h
      | some result =>
        obtain ⟨run, hrun, rfl⟩ := map_eq_some_iff.mp h
        dsimp only
        rw [ih (Nat.le_of_succ_le_succ hle) hrun]
        rfl

variable {n : ℕ}

theorem parseTuple_mono {V : Type} {p q : List Char → Parsed V}
    (hpq : ∀ args r, p args = some r → q args = some r) {r : Option (Tuple V n × List Char)}
    (h : parseTuple p n args = some r) : parseTuple q n args = some r := by
  induction n generalizing args with
  | zero => exact h
  | succ n ih =>
    rw [parseTuple] at h ⊢
    cases hp : p args with
    | none => rw [hp] at h; cases h
    | some result =>
      rw [hp] at h
      rw [hpq args result hp]
      cases result with
      | none => exact h
      | some result =>
        obtain ⟨tuple, htuple, rfl⟩ := map_eq_some_iff.mp h
        dsimp only
        rw [ih htuple]
        rfl

mutual

/-- **A result stays the same with more rounds.** -/
theorem parse_mono {rounds' : ℕ} (hle : rounds ≤ rounds') : ∀ (t : ArgType) (args : List Char)
    (r : Option (Val t × List Char)), parse tolower rounds t args = some r →
      parse tolower rounds' t args = some r
  | .int _, _, _, h => h
  | .string, _, _, h => h
  | .quotedString, _, _, h => h
  | .tail, _, _, h => h
  | .vector t, args, r, h => by
      rw [parse] at h ⊢
      obtain ⟨run, hrun, rfl⟩ := map_eq_some_iff.mp h
      rw [longestRun_mono (parse_mono hle t) (Nat.succ_le_succ hle) hrun]
      rfl
  | .array t n, args, r, h => by
      rw [parse] at h ⊢
      exact parseTuple_mono (parse_mono hle t) h
  | .variant alternatives, args, r, h => by
      rw [parse] at h ⊢
      exact parseAlternatives_mono hle alternatives args r h

theorem parseAlternatives_mono {rounds' : ℕ} (hle : rounds ≤ rounds') :
    ∀ (alternatives : Alternatives) (args : List Char)
      (r : Option (AltVal alternatives × List Char)),
      parseAlternatives tolower rounds alternatives args = some r →
        parseAlternatives tolower rounds' alternatives args = some r
  | .last t, args, r, h => by
      rw [parseAlternatives] at h ⊢
      exact parse_mono hle t args r h
  | .cons t rest, args, r, h => by
      rw [parseAlternatives] at h ⊢
      cases hp : parse tolower rounds t args with
      | none => rw [hp] at h; cases h
      | some result =>
        rw [hp] at h
        rw [parse_mono hle t args result hp]
        cases result with
        | some result => exact h
        | none =>
          obtain ⟨nested, hnested, rfl⟩ := map_eq_some_iff.mp h
          dsimp only
          rw [parseAlternatives_mono hle rest args nested hnested]
          rfl

end

/-- Results with different rounds are the same. -/
theorem parse_unique {t : ArgType} {r r' : Option (Val t × List Char)}
    (h : parse tolower rounds t args = some r) (h' : parse tolower rounds' t args = some r') :
    r = r' := by
  have hleft := parse_mono (Nat.le_max_left rounds rounds') t args r h
  have hright := parse_mono (Nat.le_max_right rounds rounds') t args r' h'
  exact Option.some.inj (hleft.symm.trans hright)

variable {rest : List Char}

theorem Parses.unique {t : ArgType} {v v' : Val t} {rest' : List Char}
    (h : Parses tolower t args v rest) (h' : Parses tolower t args v' rest') :
    v = v' ∧ rest = rest' := by
  obtain ⟨_, h⟩ := h
  obtain ⟨_, h'⟩ := h'
  have heq := Option.some.inj (parse_unique h h')
  exact ⟨congrArg Prod.fst heq, congrArg Prod.snd heq⟩

theorem Parses.finishes {t : ArgType} {v : Val t} (h : Parses tolower t args v rest) :
    Finishes tolower t args := by
  obtain ⟨rounds, h⟩ := h
  exact ⟨rounds, by rw [h]; exact some_ne_none _⟩

theorem Parses.not_none {t : ArgType} {v : Val t} (h : Parses tolower t args v rest) :
    parse tolower rounds t args ≠ some none := by
  obtain ⟨_, h⟩ := h
  intro hnone
  cases parse_unique h hnone

/-! ### What an attempt leaves in a slot -/

/-- An element of an array. -/
def Tuple.get? {α : Type} : {n : ℕ} → Tuple α n → ℕ → Option α
  | 0, _, _ => none
  | _ + 1, (a, _), 0 => some a
  | _ + 1, (_, as), k + 1 => Tuple.get? as k

/-- The quoted string at a position: the parameter itself, or an element of an array of them, given
by its indices. Elsewhere there is no quoted string that stays from one attempt to the next, since
vectors, variants and optionals construct their values afresh. -/
def content : (t : ArgType) → Val t → List ℕ → List Char
  | .quotedString, w, π => if π.isEmpty then w else []
  | .array t _, w, π =>
    match π with
    | [] => []
    | k :: π =>
      match Tuple.get? w k with
      | none => []
      | some v => content t v π
  | .int _, _, _ | .string, _, _ | .tail, _, _ | .vector _, _, _ | .variant _, _, _ => []

/-- The elements before the one with index `k` match, and the string from there on is `a`. -/
inductive Steps (tolower : Char → ℕ) (t : ArgType) : ℕ → List Char → List Char → Prop
  | zero {args : List Char} : Steps tolower t 0 args args
  | succ {k : ℕ} {args rest a : List Char} {v : Val t} : Parses tolower t args v rest →
      Steps tolower t k rest a → Steps tolower t (k + 1) args a

/-- The characters that an attempt at a quoted string puts into a fresh one. -/
def collected : List Char → List Char
  | [] => []
  | quote :: rest => if isQuote quote then (scanQuoted quote rest).1 else firstToken (quote :: rest)

/-- An attempt puts characters into the quoted string at a position. -/
inductive Leaves (tolower : Char → ℕ) : ArgType → List Char → List ℕ → Prop
  | quoted {args : List Char} : collected args ≠ [] → Leaves tolower .quotedString args []
  | element {t : ArgType} {n k : ℕ} {args a : List Char} {π : List ℕ} : k < n →
      Steps tolower t k args a → Leaves tolower t a π → Leaves tolower (.array t n) args (k :: π)

/-- An attempt reads the quoted string at a position from a token in quotes. -/
inductive Quotes (tolower : Char → ℕ) : ArgType → List Char → List ℕ → Prop
  | quoted {quote : Char} {rest : List Char} : isQuote quote = true →
      Quotes tolower .quotedString (quote :: rest) []
  | element {t : ArgType} {n k : ℕ} {args a : List Char} {π : List ℕ} : k < n →
      Steps tolower t k args a → Quotes tolower t a π → Quotes tolower (.array t n) args (k :: π)

theorem content_array {t : ArgType} (w : Val (.array t n)) (k : ℕ) :
    content (.array t n) w (k :: π) =
      match Tuple.get? (α := Val t) (n := n) w k with
      | none => []
      | some v => content t v π :=
  content.eq_3 t n w k π

theorem content_array_nil {t : ArgType} (w : Val (.array t n)) :
    content (.array t n) w [] = [] := content.eq_2 t n w

theorem content_array_zero {t : ArgType} (v : Val t) (vs : Tuple (Val t) n) :
    content (.array t (n + 1)) (v, vs) (0 :: π) = content t v π :=
  content_array (n := n + 1) (v, vs) 0

theorem content_array_succ {t : ArgType} (v : Val t) (vs : Tuple (Val t) n) (k : ℕ) :
    content (.array t (n + 1)) (v, vs) ((k + 1) :: π) = content (.array t n) vs (k :: π) :=
  (content_array (n := n + 1) (v, vs) (k + 1)).trans (content_array (n := n) vs k).symm

/-- A fresh value holds no characters. -/
theorem content_fresh (t : ArgType) (π : List ℕ) : content t (fresh t) π = [] := by
  induction π generalizing t with
  | nil =>
    cases t with
    | quotedString => rfl
    | array t n => exact content_array_nil _
    | int | string | tail | vector | variant => rfl
  | cons k π ih =>
    cases t with
    | quotedString => rfl
    | int | string | tail | vector | variant => rfl
    | array t n =>
      induction n generalizing k with
      | zero => exact content_array (n := 0) _ k
      | succ n ihn =>
        cases k with
        | zero => exact (content_array_zero (fresh t) _).trans (ih t)
        | succ k => exact (content_array_succ (fresh t) _ k).trans (ihn k)

/-- The rest of the string, when the result is successful. -/
def ChatCommandResult.rest? : ChatCommandResult → Option (List Char)
  | .tail rest => some rest
  | _ => none

/-- **What an attempt does**, when parsing afresh gives `r`: it returns the same, the value that it
leaves is the parsed one if and only if the quoted strings that it reads from quotes were empty, and
a quoted string is empty afterwards if and only if it was before and nothing has been put into it. -/
def Consumed (tolower : Char → ℕ) (t : ArgType) (w : Val t) (args : List Char)
    (r : Parsed (Val t)) : Option (ChatCommandResult × Val t) → Prop
  | none => r = none
  | some (result, w') =>
    (∀ π, content t w' π = [] ↔ content t w π = [] ∧ ¬ Leaves tolower t args π) ∧
      match result.rest? with
      | none => r = some none
      | some rest => ∃ v, r = some (some (v, rest)) ∧
          (w' = v ↔ ∀ π, Quotes tolower t args π → content t w π = [])

/-- The loop over a quoted string appends what the scan collects. -/
theorem pushQuoted_eq (quote : Char) (val rest : List Char) :
    (pushQuoted quote val rest).1.rest? = (scanQuoted quote rest).2 ∧
      (pushQuoted quote val rest).2 = val ++ (scanQuoted quote rest).1 := by
  induction rest using scanQuoted.induct quote generalizing val with
  | case1 => exact ⟨rfl, (List.append_nil val).symm⟩
  | case2 rest =>
    rw [pushQuoted.eq_def, scanQuoted.eq_def]
    dsimp only
    rw [if_pos rfl, if_pos rfl, tokenize_eq]
    by_cases h : firstToken rest = []
    · rw [if_pos (List.isEmpty_iff.mpr h), if_pos h]
      exact ⟨rfl, (List.append_nil val).symm⟩
    · rw [if_neg (mt List.isEmpty_iff.mp h), if_neg h]
      exact ⟨rfl, (List.append_nil val).symm⟩
  | case3 hc =>
    rw [pushQuoted, scanQuoted, if_neg hc, if_neg hc, if_pos rfl, if_pos rfl]
    exact ⟨rfl, (List.append_nil val).symm⟩
  | case4 d rest hc ih =>
    rw [pushQuoted, scanQuoted, if_neg hc, if_neg hc, if_pos rfl, if_pos rfl]
    obtain ⟨hresult, hval⟩ := ih (val ++ [d])
    exact ⟨hresult, hval.trans (List.append_assoc val [d] _)⟩
  | case5 c rest hc hescape ih =>
    rw [pushQuoted.eq_def, scanQuoted.eq_def]
    dsimp only
    rw [if_neg hc, if_neg hc, if_neg hescape, if_neg hescape]
    obtain ⟨hresult, hval⟩ := ih (val ++ [c])
    exact ⟨hresult, hval.trans (List.append_assoc val [c] _)⟩

theorem leaves_quoted_iff : Leaves tolower .quotedString args π ↔ π = [] ∧ collected args ≠ [] := by
  constructor
  · rintro ⟨h⟩
    exact ⟨rfl, h⟩
  · rintro ⟨rfl, h⟩
    exact Leaves.quoted h

theorem quotes_quoted_iff {quote : Char} :
    Quotes tolower .quotedString (quote :: rest) π ↔ π = [] ∧ isQuote quote = true := by
  constructor
  · rintro ⟨h⟩
    exact ⟨rfl, h⟩
  · rintro ⟨rfl, h⟩
    exact Quotes.quoted h

variable (w : List Char)

theorem content_quoted : content .quotedString w π = if π.isEmpty then w else [] := by
  cases π with
  | nil => rfl
  | cons k π => rfl

/-- The quoted string of a slot is empty afterwards if and only if it was before and nothing has
been put into it. -/
theorem quoted_keeps {w w' : List Char} (h : w' = [] ↔ w = [] ∧ collected args = []) (π : List ℕ) :
    content .quotedString w' π = [] ↔
      content .quotedString w π = [] ∧ ¬ Leaves tolower .quotedString args π := by
  rw [content_quoted, content_quoted, leaves_quoted_iff]
  cases π with
  | nil => simpa using h
  | cons k π => simp

variable (val : List Char)

theorem tryConsumeString_eq (args : List Char) :
    tryConsumeString val args =
      if firstToken args = [] then (.nullopt, val)
      else (.tail (afterToken args), firstToken args) := by
  rw [tryConsumeString, tokenize_eq]
  dsimp only
  by_cases h : firstToken args = []
  · rw [if_pos (List.isEmpty_iff.mpr h), if_pos h]
  · rw [if_neg (mt List.isEmpty_iff.mp h), if_neg h]

/-- **An attempt at a quoted string** appends to it, unless it reads a token without quotes. -/
theorem quoted_consumed (args : List Char) :
    Consumed tolower .quotedString w args (some (parseQuoted args))
      (some (tryConsumeQuoted w args)) := by
  cases args with
  | nil => exact ⟨quoted_keeps ⟨fun h => ⟨h, rfl⟩, And.left⟩, rfl⟩
  | cons quote rest =>
    by_cases hquote : isQuote quote = true
    · have hcond : ¬ (quote ≠ '"' ∧ quote ≠ '\'') := by
        simpa [isQuote, imp_iff_not_or] using hquote
      obtain ⟨hresult, hval⟩ := pushQuoted_eq quote w rest
      rw [tryConsumeQuoted, if_neg hcond, parseQuoted, if_pos hquote]
      refine ⟨quoted_keeps ?_, ?_⟩
      · rw [hval, List.append_eq_nil_iff, collected, if_pos hquote]
      · rw [hresult]
        cases (scanQuoted quote rest).2 with
        | none => rfl
        | some tail =>
          refine ⟨(scanQuoted quote rest).1, rfl, ?_⟩
          rw [hval]
          refine ⟨fun h π hπ => ?_, fun h => ?_⟩
          · rw [(quotes_quoted_iff.mp hπ).1]
            exact List.append_left_eq_self.mp h
          · have hw : w = [] := h [] (Quotes.quoted hquote)
            rw [hw, List.nil_append]
    · have hcond : quote ≠ '"' ∧ quote ≠ '\'' := by
        simpa [isQuote] using hquote
      rw [tryConsumeQuoted, if_pos hcond, parseQuoted, if_neg hquote, tryConsumeString_eq,
        parseToken]
      split_ifs with htoken
      · refine ⟨quoted_keeps ?_, rfl⟩
        rw [collected, if_neg hquote]
        exact ⟨fun h => ⟨h, htoken⟩, And.left⟩
      · refine ⟨quoted_keeps ?_, firstToken (quote :: rest), rfl, ?_⟩
        · rw [collected, if_neg hquote]
          exact ⟨fun h => absurd h htoken, fun h => absurd h.2 htoken⟩
        · exact ⟨fun _ π hπ => absurd (quotes_quoted_iff.mp hπ).2 hquote, fun _ => rfl⟩

/-! ### Vectors -/

/-- What an attempt returns, as an outcome of parsing. -/
def parsedOf {V : Type} (outcome : Option (ChatCommandResult × V)) : Parsed V :=
  outcome.map fun (result, v) => result.rest?.map fun rest => (v, rest)

/-- An attempt at a fresh value is parsing afresh. -/
theorem Consumed.fresh_eq {t : ArgType} {r : Parsed (Val t)}
    {outcome : Option (ChatCommandResult × Val t)}
    (h : Consumed tolower t (fresh t) args r outcome) : r = parsedOf outcome := by
  cases outcome with
  | none => exact h
  | some outcome =>
    obtain ⟨result, w'⟩ := outcome
    obtain ⟨-, h⟩ := h
    rw [parsedOf, map_some]
    dsimp only
    cases hrest : result.rest? with
    | none =>
      rw [hrest] at h
      exact h
    | some rest =>
      rw [hrest] at h
      obtain ⟨v, hr, hv⟩ := h
      rw [hr, hv.mpr fun π _ => content_fresh t π]
      rfl

theorem rest?_eq_some {result : ChatCommandResult} (h : result.rest? = some rest) :
    result = .tail rest := by
  cases result with
  | tail str =>
    obtain rfl := Option.some.inj h
    rfl
  | nullopt => cases h
  | error message => cases h

variable (result : ChatCommandResult)

theorem isSuccessful_eq : result.isSuccessful = result.rest?.isSome := by
  cases result with
  | nullopt | tail _ | error _ => rfl

/-- The loop over a vector finds the longest run. -/
theorem vectorLoop_eq {V : Type} {consume : List Char → Option (ChatCommandResult × V)}
    {p : List Char → Parsed V} (hp : ∀ args, p args = parsedOf (consume args)) (val : List V)
    (next : List Char) : vectorLoop consume rounds val next =
      (longestRun p rounds next).map fun (vs, rest) => (.tail rest, val ++ vs) := by
  induction rounds generalizing val next with
  | zero => rfl
  | succ rounds ih =>
    rw [vectorLoop, longestRun, hp]
    cases consume next with
    | none => rfl
    | some outcome =>
      obtain ⟨result, v⟩ := outcome
      cases result with
      | tail next2 =>
        dsimp only [parsedOf, map_some, ChatCommandResult.rest?]
        rw [ih, map_map]
        congr 1
        funext run
        exact congrArg (Prod.mk _) (List.append_assoc val [v] run.1)
      | nullopt | error message =>
        dsimp only [parsedOf, map_some, ChatCommandResult.rest?]
        rw [map_none, map_some, List.append_nil]

/-! ### Arrays -/

section Arrays

variable {t : ArgType} {n : ℕ}

theorem leaves_array_zero :
    Leaves tolower (.array t (n + 1)) args (0 :: π) ↔ Leaves tolower t args π := by
  constructor
  · intro h
    cases h with
    | element _ hsteps h =>
      cases hsteps
      exact h
  · exact fun h => Leaves.element (Nat.succ_pos n) Steps.zero h

variable {v : Val t} {rest : List Char}

theorem leaves_array_succ (hparse : Parses tolower t args v rest) (k : ℕ) :
    Leaves tolower (.array t (n + 1)) args ((k + 1) :: π) ↔
      Leaves tolower (.array t n) rest (k :: π) := by
  constructor
  · intro h
    cases h with
    | element hk hsteps h =>
      cases hsteps with
      | succ hfirst hsteps =>
        obtain ⟨-, rfl⟩ := hparse.unique hfirst
        exact Leaves.element (Nat.lt_of_succ_lt_succ hk) hsteps h
  · intro h
    cases h with
    | element hk hsteps h => exact Leaves.element (Nat.succ_lt_succ hk) (Steps.succ hparse hsteps) h

theorem not_leaves_array_succ (hparse : ∀ v rest, ¬ Parses tolower t args v rest) (k : ℕ) :
    ¬ Leaves tolower (.array t (n + 1)) args ((k + 1) :: π) := by
  intro h
  cases h with
  | element _ hsteps _ =>
    cases hsteps with
    | succ hfirst _ => exact hparse _ _ hfirst

theorem not_leaves_array_nil : ¬ Leaves tolower (.array t n) args [] := by
  intro h
  cases h

variable {vs : Tuple (Val t) n}

variable {v' : Val t}

/-- Positions in an array are in its first element or in the others. -/
theorem quotes_array (hparse : Parses tolower t args v' rest) :
    (∀ π, Quotes tolower (.array t (n + 1)) args π → content (.array t (n + 1)) (v, vs) π = []) ↔
      (∀ π, Quotes tolower t args π → content t v π = []) ∧
        ∀ π, Quotes tolower (.array t n) rest π → content (.array t n) vs π = [] := by
  constructor
  · refine fun h => ⟨fun π hπ => ?_, fun π hπ => ?_⟩
    · exact h _ (Quotes.element (Nat.succ_pos n) Steps.zero hπ)
    · cases hπ with
      | element hk hsteps hπ =>
        exact h _ (Quotes.element (Nat.succ_lt_succ hk) (Steps.succ hparse hsteps) hπ)
  · rintro ⟨hfirst, hothers⟩ π hπ
    cases hπ with
    | element hk hsteps hπ =>
      cases hsteps with
      | zero =>
        exact hfirst _ hπ
      | succ hstep hsteps =>
        obtain ⟨-, rfl⟩ := hparse.unique hstep
        exact hothers _ (Quotes.element (Nat.lt_of_succ_lt_succ hk) hsteps hπ)

/-- What the first element and the others keep, the array keeps. -/
theorem array_keeps {vs' : Tuple (Val t) n}
    (hfirst : ∀ π, content t v' π = [] ↔ content t v π = [] ∧ ¬ Leaves tolower t args π)
    (hothers : ∀ k π, content (.array t n) vs' (k :: π) = [] ↔ content (.array t n) vs (k :: π) = [] ∧
      ¬ Leaves tolower (.array t (n + 1)) args ((k + 1) :: π)) (π : List ℕ) :
    content (.array t (n + 1)) (v', vs') π = [] ↔
      content (.array t (n + 1)) (v, vs) π = [] ∧ ¬ Leaves tolower (.array t (n + 1)) args π := by
  cases π with
  | nil => exact ⟨fun _ => ⟨content_array_nil _, not_leaves_array_nil⟩, fun _ => content_array_nil _⟩
  | cons k π =>
    cases k with
    | zero => rw [content_array_zero, content_array_zero, leaves_array_zero, hfirst]
    | succ k => rw [content_array_succ, content_array_succ, hothers]

/-- **The loop over an array**, when each attempt at an element does what parsing afresh says. -/
theorem arrayLoop_spec
    (hconsume : ∀ (w : Val t) args, Consumed tolower t w args (parse tolower rounds t args)
      (tryConsume tolower texts rounds t w args)) (n : ℕ) (w : Tuple (Val t) n) (args : List Char) :
    Consumed tolower (.array t n) w args (parseTuple (parse tolower rounds t) n args)
      (arrayLoop (tryConsume tolower texts rounds t) n w args) := by
  induction n generalizing args with
  | zero =>
    have hempty : ∀ π, content (.array t 0) w π = [] := fun π => by
      cases π with
      | nil => exact content_array_nil w
      | cons k π => exact content_array (n := 0) w k
    refine ⟨fun π => ⟨fun _ => ⟨hempty π, fun h => ?_⟩, fun _ => hempty π⟩, (), rfl,
      fun _ π _ => hempty π, fun _ => rfl⟩
    cases h with
    | element hk _ _ => exact absurd hk (Nat.not_lt_zero _)
  | succ n ih =>
    obtain ⟨v, vs⟩ := w
    have hfirst := hconsume v args
    rw [parseTuple, arrayLoop]
    cases hout : tryConsume tolower texts rounds t v args with
    | none =>
      rw [hout] at hfirst
      rw [show parse tolower rounds t args = none from hfirst]
      rfl
    | some outcome =>
      obtain ⟨result, v'⟩ := outcome
      rw [hout] at hfirst
      obtain ⟨hkeeps, hresult⟩ := hfirst
      cases hrest : result.rest? with
      | none =>
        -- the loop breaks, the other elements stay
        rw [hrest] at hresult
        have hnone : parse tolower rounds t args = some none := hresult
        have hstop : ∀ v rest, ¬ Parses tolower t args v rest := fun v rest h =>
          h.not_none hnone
        have hbreak : Consumed tolower (.array t (n + 1)) (v, vs) args (some none)
            (some (result, (v', vs))) := by
          refine ⟨array_keeps hkeeps fun k π => ?_, by rw [hrest]⟩
          exact ⟨fun h => ⟨h, not_leaves_array_succ hstop k⟩, And.left⟩
        rw [hnone]
        cases result with
        | tail str => cases hrest
        | nullopt => exact hbreak
        | error message => exact hbreak
      | some rest =>
        obtain rfl := rest?_eq_some hrest
        obtain ⟨v₀, hparse, hv⟩ := hresult
        have hothers := ih vs rest
        rw [hparse]
        dsimp only
        cases hloop : arrayLoop (tryConsume tolower texts rounds t) n vs rest with
        | none =>
          rw [hloop] at hothers
          rw [show parseTuple (parse tolower rounds t) n rest = none from hothers]
          rfl
        | some outcome =>
          obtain ⟨result, vs'⟩ := outcome
          rw [hloop] at hothers
          obtain ⟨hkeeps', hresult'⟩ := hothers
          refine ⟨array_keeps hkeeps fun k π => ?_, ?_⟩
          · rw [leaves_array_succ ⟨rounds, hparse⟩]
            exact hkeeps' (k :: π)
          · cases hrest' : result.rest? with
            | none =>
              rw [hrest'] at hresult'
              rw [show parseTuple (parse tolower rounds t) n rest = some none from hresult']
              rfl
            | some rest' =>
              rw [hrest'] at hresult'
              obtain ⟨vs₀, hparse', hvs⟩ := hresult'
              rw [hparse']
              refine ⟨(v₀, vs₀), rfl, ?_⟩
              rw [quotes_array ⟨rounds, hparse⟩, ← hv, ← hvs]
              exact Prod.mk_inj

end Arrays

/-! ### All types -/

/-- Types other than quoted strings and arrays hold nothing that stays. -/
theorem Consumed.of_parsed {t : ArgType} {w : Val t} {r : Parsed (Val t)}
    (hplain : ∀ (v : Val t) π, content t v π = []) (hleaves : ∀ π, ¬ Leaves tolower t args π)
    {outcome : Option (ChatCommandResult × Val t)} (hr : parsedOf outcome = r) :
    Consumed tolower t w args r outcome := by
  subst hr
  cases outcome with
  | none => rfl
  | some outcome =>
    obtain ⟨result, w'⟩ := outcome
    refine ⟨fun π => ⟨fun _ => ⟨hplain w π, hleaves π⟩, fun _ => hplain w' π⟩, ?_⟩
    cases hrest : result.rest? with
    | none => simp only [parsedOf, map_some, hrest, map_none]
    | some rest =>
      refine ⟨w', ?_, fun _ π _ => hplain w π, fun _ => rfl⟩
      simp only [parsedOf, map_some, hrest]

theorem parsedOf_int (type : IntType) (val : ℤ) (args : List Char) :
    parsedOf (some (tryConsumeInt tolower texts type val args)) =
      some ((parseToken args).bind fun (token, rest) =>
        (stringTo tolower type token).map fun n => (n, rest)) := by
  rw [tryConsumeInt, tokenize_eq, parseToken]
  dsimp only
  by_cases htoken : firstToken args = []
  · rw [if_pos (List.isEmpty_iff.mpr htoken), if_pos htoken]
    rfl
  · rw [if_neg (mt List.isEmpty_iff.mp htoken), if_neg htoken, bind_some]
    cases stringTo tolower type (firstToken args) with
    | none => rfl
    | some n => rfl

theorem parsedOf_string (args : List Char) :
    parsedOf (some (tryConsumeString val args)) = some (parseToken args) := by
  rw [tryConsumeString_eq, parseToken]
  split_ifs <;> rfl

/-- A message does not change whether a result is successful. -/
theorem rest?_orMessage (thisResult nestedResult : ChatCommandResult)
    (h : thisResult.rest? = none) :
    (orMessage texts thisResult nestedResult).rest? = nestedResult.rest? := by
  cases thisResult with
  | tail rest => cases h
  | nullopt => cases nestedResult <;> rfl
  | error this =>
    cases nestedResult with
    | nullopt => rfl
    | tail rest => rfl
    | error nested =>
      rw [orMessage]
      split_ifs <;> rfl

theorem rest?_eitherMessage : (eitherMessage texts result).rest? = result.rest? := by
  cases result with
  | nullopt | tail rest => rfl
  | error message =>
    rw [eitherMessage]
    split_ifs <;> rfl

mutual

/-- **Attempts and parsing afresh.** -/
theorem tryConsume_spec : ∀ (t : ArgType) (w : Val t) (args : List Char),
    Consumed tolower t w args (parse tolower rounds t args)
      (tryConsume tolower texts rounds t w args)
  | .int type, w, args => by
      rw [parse, tryConsume]
      exact Consumed.of_parsed (t := .int type) (fun _ _ => rfl) (fun _ h => by cases h)
        (parsedOf_int type w args)
  | .string, w, args => by
      rw [parse, tryConsume]
      exact Consumed.of_parsed (t := .string) (fun _ _ => rfl) (fun _ h => by cases h)
        (parsedOf_string w args)
  | .quotedString, w, args => by
      rw [parse, tryConsume]
      exact quoted_consumed w args
  | .tail, w, args => by
      rw [parse, tryConsume]
      exact Consumed.of_parsed (t := .tail) (fun _ _ => rfl) (fun _ h => by cases h) rfl
  | .vector t, w, args => by
      rw [parse, tryConsume]
      have hp : ∀ args, parse tolower rounds t args =
          parsedOf (tryConsume tolower texts rounds t (fresh t) args) := fun args =>
        (tryConsume_spec t (fresh t) args).fresh_eq
      refine Consumed.of_parsed (t := .vector t) (fun _ _ => rfl) (fun _ h => by cases h) ?_
      rw [longestRun, hp]
      cases tryConsume tolower texts rounds t (fresh t) args with
      | none => rfl
      | some outcome =>
        obtain ⟨result, v⟩ := outcome
        cases result with
        | tail next =>
          dsimp only [parsedOf, map_some, ChatCommandResult.rest?]
          rw [vectorLoop_eq hp]
          cases longestRun (parse tolower rounds t) rounds next with
          | none => rfl
          | some run => rfl
        | nullopt | error message => rfl
  | .array t n, w, args => by
      rw [parse, tryConsume]
      exact arrayLoop_spec (tryConsume_spec t) n w args
  | .variant alternatives, w, args => by
      rw [parse, tryConsume]
      refine Consumed.of_parsed (t := .variant alternatives) (fun _ _ => rfl)
        (fun _ h => by cases h) ?_
      have hindex := tryAtIndex_spec alternatives id w args
      cases hout : tryAtIndex tolower texts rounds alternatives id w args with
      | none =>
        rw [hout] at hindex
        rw [map_eq_none_iff.mp hindex.symm]
        rfl
      | some outcome =>
        obtain ⟨result, v⟩ := outcome
        rw [hout, show (fun result : Option (AltVal alternatives × List Char) =>
          result.map fun (w, rest) => (id w, rest)) = id by funext r; cases r <;> rfl,
          map_id, id] at hindex
        rw [← hindex]
        simp only [parsedOf, map_some, rest?_eitherMessage]
        rfl

/-- The alternatives are tried afresh, and the first that matches is put into the variant. -/
theorem tryAtIndex_spec : ∀ (alternatives : Alternatives) {V : Type}
    (emplace : AltVal alternatives → V) (val : V) (args : List Char),
    parsedOf (tryAtIndex tolower texts rounds alternatives emplace val args) =
      (parseAlternatives tolower rounds alternatives args).map fun result =>
        result.map fun (w, rest) => (emplace w, rest)
  | .last t, V, emplace, val, args => by
      rw [parseAlternatives, tryAtIndex, (tryConsume_spec t (fresh t) args).fresh_eq]
      cases tryConsume tolower texts rounds t (fresh t) args with
      | none => rfl
      | some outcome =>
        obtain ⟨result, v⟩ := outcome
        cases result with
        | tail rest => rfl
        | nullopt => rfl
        | error message => rfl
  | .cons t rest, V, emplace, val, args => by
      rw [parseAlternatives, tryAtIndex, (tryConsume_spec t (fresh t) args).fresh_eq]
      cases tryConsume tolower texts rounds t (fresh t) args with
      | none => rfl
      | some outcome =>
        obtain ⟨result, v⟩ := outcome
        have hnested := tryAtIndex_spec rest (fun w => emplace (Sum.inr w)) (emplace (Sum.inl v))
          args
        cases hrest : result.rest? with
        | some tail =>
          obtain rfl := rest?_eq_some hrest
          rfl
        | none =>
          have hfailed : ¬ result.isSuccessful = true := by
            rw [isSuccessful_eq, hrest]
            exact Bool.false_ne_true
          simp only [parsedOf, map_some, hrest, map_none, if_neg hfailed]
          cases hout : tryAtIndex tolower texts rounds rest (fun w => emplace (Sum.inr w))
            (emplace (Sum.inl v)) args with
          | none =>
            rw [hout] at hnested
            rw [map_eq_none_iff.mp hnested.symm]
            rfl
          | some nested =>
            rw [hout] at hnested
            simp only [parsedOf, map_some] at hnested
            simp only [map_some, rest?_orMessage _ _ hrest]
            rw [hnested, map_map]
            congr 1
            funext r
            cases r <;> rfl

end

end IscServer.ChatCommands
