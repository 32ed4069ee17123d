import IscServer.Chat.ChatCommandHelpers

/-!
# Typed Arguments of Chat Commands

`ArgInfo` (`game/Chat/ChatCommands/ChatCommandArgs.h`), `QuotedString` and `Tail`
(`ChatCommandTags.h`, `ChatCommandTags.cpp`) and `MultiConsumer`, `ConsumeFromOffset` and
`CommandInvoker` (`ChatCommand.h`): the arguments of a handler are parsed into the slots of a tuple.

* `ArgType` is a type of parameters, `Val` the values of such a type and `fresh` the freshly
  constructed one. A `TryConsume` gets the value that the slot holds and leaves another one in it.
* The loop over a vector is given a number of rounds. `none` says that they were not enough: the
  parameter type may match without consuming anything, and then the loop has no end.
* The trinity strings of the handler are parameters.

The types left out are floating point numbers, wide strings, enumerations, accounts, players, links
and exact sequences.
-/

namespace IscServer.ChatCommands

/-- An integral type. -/
structure IntType where
  bits : ℕ
  isSigned : Bool
  deriving DecidableEq, Repr

mutual

/-- The types of parameters. -/
inductive ArgType
  | int (type : IntType)
  | string
  | quotedString
  | tail
  | vector (t : ArgType)
  | array (t : ArgType) (n : ℕ)
  | variant (alternatives : Alternatives)

/-- The alternatives of a `Variant`, of which there is at least one. -/
inductive Alternatives
  | last (t : ArgType)
  | cons (t : ArgType) (rest : Alternatives)

end

/-- `n` values of a type, a `std::array`. -/
def Tuple (α : Type) : ℕ → Type
  | 0 => Unit
  | n + 1 => α × Tuple α n

/-- The same value `n` times. -/
def Tuple.replicate {α : Type} (a : α) : (n : ℕ) → Tuple α n
  | 0 => ()
  | n + 1 => (a, replicate a n)

mutual

/-- The values of a type. -/
def Val : ArgType → Type
  | .int _ => ℤ
  | .string => List Char
  | .quotedString => List Char
  | .tail => List Char
  | .vector t => List (Val t)
  | .array t n => Tuple (Val t) n
  | .variant alternatives => AltVal alternatives

/-- The values of a `Variant`. -/
def AltVal : Alternatives → Type
  | .last t => Val t
  | .cons t rest => Val t ⊕ AltVal rest

end

mutual

/-- A freshly constructed value. -/
def fresh : (t : ArgType) → Val t
  | .int _ => (0 : ℤ)
  | .string => ([] : List Char)
  | .quotedString => ([] : List Char)
  | .tail => ([] : List Char)
  | .vector t => ([] : List (Val t))
  | .array t n => Tuple.replicate (fresh t) n
  | .variant alternatives => freshAlternative alternatives

/-- A `Variant` is constructed with its first alternative. -/
def freshAlternative : (alternatives : Alternatives) → AltVal alternatives
  | .last t => fresh t
  | .cons t _ => Sum.inl (fresh t)

end

/-- `ChatCommandResult`. -/
inductive ChatCommandResult
  | nullopt
  | tail (str : List Char)
  | error (message : List Char)
  deriving DecidableEq, Repr

/-- `ChatCommandResult::IsSuccessful`. -/
def ChatCommandResult.isSuccessful : ChatCommandResult → Bool
  | .tail _ => true
  | _ => false

/-- The texts of the handler: `LANG_CMDPARSER_STRING_VALUE_INVALID` for a token and the name of a
type, `LANG_CMDPARSER_EITHER` and `LANG_CMDPARSER_OR`. -/
structure Texts where
  stringValueInvalid : List Char → IntType → List Char
  either : List Char
  or : List Char

section Numbers

/-- The value of a digit in a base, of either case. -/
def digitOf (base : ℕ) (c : Char) : Option ℕ :=
  let value :=
    if '0' ≤ c ∧ c ≤ '9' then c.toNat - '0'.toNat
    else if 'a' ≤ c ∧ c ≤ 'z' then c.toNat - 'a'.toNat + 10
    else if 'A' ≤ c ∧ c ≤ 'Z' then c.toNat - 'A'.toNat + 10
    else base
  if value < base then some value else none

/-- The numbers of an integral type. -/
def IntType.contains (type : IntType) (n : ℤ) : Bool :=
  if type.isSigned then -2 ^ (type.bits - 1) ≤ n ∧ n < 2 ^ (type.bits - 1)
  else 0 ≤ n ∧ n < 2 ^ type.bits

/-- `std::from_chars`, where the whole string has to be used: a minus sign for a signed type, and at
least one digit. -/
def fromChars (type : IntType) (base : ℕ) (str : List Char) : Option ℤ :=
  let (negative, digits) : Bool × List Char :=
    match str with
    | '-' :: digits => if type.isSigned then (true, digits) else (false, str)
    | _ => (false, str)
  if digits.isEmpty then none
  else
    match digits.mapM (digitOf base) with
    | none => none
    | some values =>
      let n : ℤ := Nat.ofDigits base values.reverse
      let n := if negative then -n else n
      if type.contains n then some n else none

/-- `StringTo` with base zero: the base is read from the string. -/
def stringTo (tolower : Char → ℕ) (type : IntType) (str : List Char) : Option ℤ :=
  let (base, str) : ℕ × List Char :=
    if stringEqualI tolower (str.take 2) ['0', 'x'] then (16, str.drop 2)
    else if stringEqualI tolower (str.take 2) ['0', 'b'] then (2, str.drop 2)
    else (10, str)
  if str.isEmpty then none else fromChars type base str

end Numbers

section Consume

variable (tolower : Char → ℕ) (texts : Texts)

/-- `ArgInfo<T>::TryConsume` of an integral type. -/
def tryConsumeInt (type : IntType) (val : ℤ) (args : List Char) : ChatCommandResult × ℤ :=
  let ⟨token, tail⟩ := tokenize args
  if token.isEmpty then (.nullopt, val)
  else
    match stringTo tolower type token with
    | some n => (.tail tail, n)
    | none => (.error (texts.stringValueInvalid token type), val)

/-- `ArgInfo<std::string>::TryConsume`. -/
def tryConsumeString (val args : List Char) : ChatCommandResult × List Char :=
  let ⟨token, next⟩ := tokenize args
  if token.isEmpty then (.nullopt, val) else (.tail next, token)

/-- The loop of `QuotedString::TryConsume` over the characters after the opening quote: they are
pushed to the string until the closing quote, which a delimiter or the end has to follow. -/
def pushQuoted (quote : Char) (val : List Char) : List Char → ChatCommandResult × List Char
  | [] => (.nullopt, val)
  | c :: rest =>
    if c = quote then
      let ⟨remainingToken, tail⟩ := tokenize rest
      if remainingToken.isEmpty then (.tail tail, val) else (.nullopt, val)
    else if c = '\\' then
      match rest with
      | [] => (.nullopt, val)
      | d :: rest => pushQuoted quote (val ++ [d]) rest
    else pushQuoted quote (val ++ [c]) rest

/-- `QuotedString::TryConsume`. -/
def tryConsumeQuoted (val args : List Char) : ChatCommandResult × List Char :=
  match args with
  | [] => (.nullopt, val)
  | quote :: rest =>
    if quote ≠ '"' ∧ quote ≠ '\'' then tryConsumeString val args
    else pushQuoted quote val rest

/-- The loop of `ArgInfo<std::vector<T>>::TryConsume`, for the elements after the first one: each is
consumed into a new element, and the last one, which has failed, is taken off again. -/
def vectorLoop {V : Type} (consume : List Char → Option (ChatCommandResult × V)) :
    ℕ → List V → List Char → Option (ChatCommandResult × List V)
  | 0, _, _ => none
  | rounds + 1, val, next =>
    match consume next with
    | none => none
    | some (.tail next2, v) => vectorLoop consume rounds (val ++ [v]) next2
    | some (_, _) => some (.tail next, val)

/-- The loop of `ArgInfo<std::array<T, N>>::TryConsume`. -/
def arrayLoop {V : Type} (consume : V → List Char → Option (ChatCommandResult × V)) :
    (n : ℕ) → Tuple V n → List Char → Option (ChatCommandResult × Tuple V n)
  | 0, val, next => some (.tail next, val)
  | n + 1, (v, vs), next =>
    match consume v next with
    | none => none
    | some (.tail next, v) =>
      (arrayLoop consume n vs next).map fun (result, vs) => (result, (v, vs))
    | some (result, v) => some (result, (v, vs))

/-- The messages of two alternatives that have both failed. -/
def orMessage (thisResult nestedResult : ChatCommandResult) : ChatCommandResult :=
  match nestedResult, thisResult with
  | .error nested, .error this =>
    if nested.take 1 = ['"'] then
      .error ('"' :: this ++ ['"', '\n'] ++ texts.or ++ ' ' :: nested)
    else .error ('"' :: this ++ ['"', '\n'] ++ texts.or ++ [' ', '"'] ++ nested ++ ['"'])
  | nested, .error this => if nested.isSuccessful then nested else .error this
  | nested, _ => nested

/-- The message of a `Variant` of which several alternatives have one. -/
def eitherMessage (result : ChatCommandResult) : ChatCommandResult :=
  match result with
  | .error message =>
    if '\n' ∈ message then .error (texts.either ++ ' ' :: message) else .error message
  | _ => result

mutual

/-- `ArgInfo<T>::TryConsume`. -/
def tryConsume (rounds : ℕ) : (t : ArgType) → Val t → List Char → Option (ChatCommandResult × Val t)
  | .int type, val, args => some (tryConsumeInt tolower texts type val args)
  | .string, val, args => some (tryConsumeString val args)
  | .quotedString, val, args => some (tryConsumeQuoted val args)
  | .tail, _, args => some (.tail [], args)
  | .vector t, _, args =>
    match tryConsume rounds t (fresh t) args with
    | none => none
    | some (.tail next, v) => vectorLoop (tryConsume rounds t (fresh t)) rounds [v] next
    | some (result, v) => some (result, [v])
  | .array t n, val, args => arrayLoop (tryConsume rounds t) n val args
  | .variant alternatives, val, args =>
    (tryAtIndex rounds alternatives id val args).map fun (result, val) =>
      (eitherMessage texts result, val)

/-- `TryAtIndex`, where `emplace` puts a value of the alternatives that are left into the `Variant`:
each alternative is freshly constructed. -/
def tryAtIndex {V : Type} (rounds : ℕ) : (alternatives : Alternatives) →
    (AltVal alternatives → V) → V → List Char → Option (ChatCommandResult × V)
  | .last t, emplace, _, args =>
    (tryConsume rounds t (fresh t) args).map fun (result, v) =>
      (if result.isSuccessful then result else orMessage texts result .nullopt, emplace v)
  | .cons t rest, emplace, _, args =>
    match tryConsume rounds t (fresh t) args with
    | none => none
    | some (thisResult, v) =>
      if thisResult.isSuccessful then some (thisResult, emplace (Sum.inl v))
      else
        (tryAtIndex rounds rest (fun w => emplace (Sum.inr w)) (emplace (Sum.inl v)) args).map
          fun (nestedResult, val) => (orMessage texts thisResult nestedResult, val)

end

/-- A parameter of a handler: of a type, or an `Optional` of one. -/
inductive Param
  | required (t : ArgType)
  | optional (t : ArgType)

/-- What the slot of a parameter holds. -/
def SlotVal : Param → Type
  | .required t => Val t
  | .optional t => Option (Val t)

/-- The slots of the parameters, the tuple without the chat handler. -/
def Slots : List Param → Type
  | [] => Unit
  | p :: ps => SlotVal p × Slots ps

/-- The freshly constructed tuple. -/
def freshSlots : (ps : List Param) → Slots ps
  | [] => ()
  | .required t :: ps => (fresh t, freshSlots ps)
  | .optional _ :: ps => (none, freshSlots ps)

/-- The message when both attempts at an `Optional` have failed. -/
def optionalMessage (result1 result2 : ChatCommandResult) : ChatCommandResult :=
  match result1, result2 with
  | .error message1, .error message2 =>
    .error (texts.either ++ [' ', '"'] ++ message2 ++ ['"', '\n'] ++ texts.or ++ [' ', '"'] ++
      message1 ++ ['"'])
  | .error message1, _ => .error message1
  | _, result2 => result2

/-- `ConsumeFromOffset` and `MultiConsumer::TryConsumeTo`: the parameters from an offset on are
consumed into their slots. -/
def consumeFromOffset (rounds : ℕ) : (ps : List Param) → Slots ps → List Char →
    Option (ChatCommandResult × Slots ps)
  | [], slots, args => some (if args.isEmpty then .tail args else .nullopt, slots)
  | .required t :: ps, (slot, slots), args =>
    match tryConsume tolower texts rounds t slot args with
    | none => none
    | some (.tail next, slot) =>
      (consumeFromOffset rounds ps slots next).map fun (result, slots) => (result, (slot, slots))
    | some (next, slot) => some (next, (slot, slots))
  | .optional t :: ps, (_, slots), args =>
    -- try with the argument
    match tryConsume tolower texts rounds t (fresh t) args with
    | none => none
    | some (.tail next, arg) =>
      match consumeFromOffset rounds ps slots next with
      | none => none
      | some (.tail rest, slots) => some (.tail rest, (some arg, slots))
      | some (result1, slots) =>
        -- try again omitting the argument
        (consumeFromOffset rounds ps slots args).map fun (result2, slots) =>
          (if result2.isSuccessful then result2 else optionalMessage texts result1 result2,
            (none, slots))
    | some (result1, _) =>
      (consumeFromOffset rounds ps slots args).map fun (result2, slots) =>
        (if result2.isSuccessful then result2 else optionalMessage texts result1 result2,
          (none, slots))

/-- `CommandInvoker`: the handler is called with the values of the slots when the arguments have been
consumed. It is not called when a loop has no end. -/
def Calls (ps : List Param) (args : List Char) (values : Slots ps) : Prop :=
  ∃ rounds rest, consumeFromOffset tolower texts rounds ps (freshSlots ps) args =
    some (.tail rest, values)

end Consume

end IscServer.ChatCommands
