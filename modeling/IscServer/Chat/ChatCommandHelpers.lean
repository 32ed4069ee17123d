import IscServer.Library.PrefixOrder
import IscServer.Library.StringView

/-!
# Tokens and Case-Insensitive Names

`tokenize` of the chat commands (`game/Chat/ChatCommands/ChatCommandHelpers.h`), `Trinity::Tokenize`
and the comparisons that ignore case (`common/Utilities/Util.h`, `Util.cpp`).

The server sets the locale from its environment, so that `std::tolower` is a parameter: any function
from characters to numbers.
-/

namespace IscServer.ChatCommands

open List

open StringView

/-- `COMMAND_DELIMITER`. -/
def commandDelimiter : Char := ' '

/-- `TokenizeResult`. -/
structure TokenizeResult where
  token : List Char
  tail : List Char
  deriving DecidableEq, Repr

/-- `tokenize`: the characters up to the first delimiter, and what follows the delimiters. -/
def tokenize (args : List Char) : TokenizeResult :=
  match find args commandDelimiter 0 with
  | none => ⟨args, []⟩
  | some delimPos =>
    ⟨args.take delimPos,
      match findFirstNotOf args commandDelimiter delimPos with
      | none => []
      | some tailPos => args.drop tailPos⟩

/-- `Trinity::Tokenize` with `keepEmpty` off: from the start of each token, the search for the next
separator. -/
def tokenizeAll (str : List Char) (sep : Char) : List (List Char) :=
  match h : find str sep 0 with
  | none => if str.isEmpty then [] else [str]
  | some stop =>
    let rest := tokenizeAll (str.drop (stop + 1)) sep
    if 0 < stop then str.take stop :: rest else rest
termination_by str.length
decreasing_by
  have := find_lt h
  rw [length_drop]
  omega

section Case

variable (tolower : Char → ℕ)

/-- `StringEqualI`. -/
def stringEqualI : List Char → List Char → Bool
  | [], [] => true
  | c₁ :: a, c₂ :: b => tolower c₁ = tolower c₂ && stringEqualI a b
  | _, _ => false

/-- `StringCompareLessI`, a `std::lexicographical_compare`. -/
def stringCompareLessI : List Char → List Char → Bool
  | _, [] => false
  | [], _ :: _ => true
  | c₁ :: a, c₂ :: b =>
    if tolower c₁ < tolower c₂ then true
    else if tolower c₂ < tolower c₁ then false
    else stringCompareLessI a b

/-- `StringStartsWithI`. -/
def stringStartsWithI (haystack needle : List Char) : Bool :=
  stringEqualI tolower (haystack.take needle.length) needle

end Case

/-! ### What the functions compute -/

variable {tolower : Char → ℕ} {a b str : List Char}

theorem stringEqualI_iff : stringEqualI tolower a b = true ↔ a.map tolower = b.map tolower := by
  induction a generalizing b with
  | nil =>
    cases b with
    | nil => simp [stringEqualI]
    | cons c₂ b => simp [stringEqualI]
  | cons c₁ a ih =>
    cases b with
    | nil => simp [stringEqualI]
    | cons c₂ b => simp [stringEqualI, ih]

theorem stringCompareLessI_iff :
    stringCompareLessI tolower a b = true ↔ a.map tolower < b.map tolower := by
  induction a generalizing b with
  | nil =>
    cases b with
    | nil => simp [stringCompareLessI]
    | cons c₂ b => simp [stringCompareLessI]
  | cons c₁ a ih =>
    cases b with
    | nil => simp [stringCompareLessI]
    | cons c₂ b =>
      rw [stringCompareLessI, map_cons, map_cons, cons_lt_cons_iff, ← ih]
      rcases lt_trichotomy (tolower c₁) (tolower c₂) with hlt | heq | hgt
      · simp [hlt]
      · simp [heq]
      · simp
        omega

theorem stringStartsWithI_iff :
    stringStartsWithI tolower a b = true ↔ b.map tolower <+: a.map tolower := by
  rw [stringStartsWithI, stringEqualI_iff, prefix_iff_eq_take, map_take, length_map, eq_comm]

/-- Not a delimiter. -/
def inToken (c : Char) : Bool := c ≠ commandDelimiter

/-- The first token. -/
def firstToken (str : List Char) : List Char := str.takeWhile inToken

/-- What follows the first token and the delimiters after it. -/
def afterToken (str : List Char) : List Char := (str.dropWhile inToken).dropWhile (!inToken ·)

theorem tokenize_eq (args : List Char) : tokenize args = ⟨firstToken args, afterToken args⟩ := by
  rw [tokenize, firstToken, afterToken]
  rcases find_cases args commandDelimiter with ⟨hnot, hfind⟩ | ⟨a, b, rfl, hnot, hfind⟩
  · have hall : ∀ c ∈ args, inToken c = true := fun c hc =>
      decide_eq_true fun h => hnot (h ▸ hc)
    have htake : args.takeWhile inToken = args := by
      simpa using (@takeWhile_append_of_pos _ _ _ []) hall
    rw [hfind, htake, dropWhile_eq_nil_iff.mpr hall]
    rfl
  · have hall : ∀ c ∈ a, inToken c = true := fun c hc => decide_eq_true fun h => hnot (h ▸ hc)
    have hstop : ¬ inToken commandDelimiter = true := by decide
    have hdrop : (commandDelimiter :: b).dropWhile (!inToken ·) =
        (commandDelimiter :: b).dropWhile (· = commandDelimiter) := by
      simp [inToken]
    rw [hfind, takeWhile_append_of_pos hall, takeWhile_cons_of_neg hstop,
      dropWhile_append_of_pos hall, dropWhile_cons_of_neg hstop, append_nil, hdrop]
    dsimp only
    rw [take_left]
    rcases findFirstNotOf_cases a (commandDelimiter :: b) commandDelimiter with
      ⟨hnone, htail⟩ | ⟨i, hsome, htail⟩
    · rw [hnone, htail]
    · rw [hsome, ← htail]

/-! ### Strings without leading delimiters -/

/-- The string does not start with a delimiter. -/
def Stripped (str : List Char) : Prop := str.dropWhile (!inToken ·) = str

theorem stripped_afterToken (str : List Char) : Stripped (afterToken str) :=
  dropWhile_idempotent _ _

theorem stripped_cons_iff {c : Char} : Stripped (c :: str) ↔ inToken c = true := by
  refine ⟨fun h => ?_, fun h => dropWhile_cons_of_neg (by simpa using h)⟩
  by_contra hc
  rw [Stripped, dropWhile_cons_of_pos (by simpa using hc)] at h
  have hlen : (str.dropWhile (!inToken ·)).length ≤ str.length := (dropWhile_suffix _).length_le
  rw [h, length_cons] at hlen
  omega

theorem Stripped.prefix (h : Stripped str) (hstart : a <+: str) : Stripped a := by
  cases a with
  | nil => rfl
  | cons c a =>
    obtain ⟨str, rfl, -⟩ := cons_prefix_iff.mp hstart
    exact stripped_cons_iff.mpr (stripped_cons_iff.mp h)

theorem Stripped.firstToken_ne_nil (h : Stripped str) (hne : str ≠ []) : firstToken str ≠ [] := by
  cases str with
  | nil => exact absurd rfl hne
  | cons c str =>
    rw [firstToken, takeWhile_cons_of_pos (stripped_cons_iff.mp h)]
    exact cons_ne_nil _ _

/-- A token makes the string shorter. -/
theorem length_afterToken_lt (hne : firstToken str ≠ []) : (afterToken str).length < str.length := by
  have hsplit := congrArg List.length (takeWhile_append_dropWhile (p := inToken) (l := str))
  have hsuffix := (dropWhile_suffix (l := str.dropWhile inToken) (!inToken ·)).length_le
  have hpos : 0 < (firstToken str).length := length_pos_iff.mpr hne
  rw [length_append] at hsplit
  rw [firstToken] at hpos
  rw [afterToken]
  omega

/-! ### All tokens of a string -/

theorem not_mem_iff_inToken : commandDelimiter ∉ a ↔ ∀ c ∈ a, inToken c = true :=
  ⟨fun h c hc => decide_eq_true fun heq => h (heq ▸ hc),
    fun h hmem => absurd (h _ hmem) (by decide)⟩

theorem tokenizeAll_nil : tokenizeAll [] commandDelimiter = [] := by
  rw [tokenizeAll]
  rfl

theorem tokenizeAll_of_not_mem (h : commandDelimiter ∉ a) (hne : a ≠ []) :
    tokenizeAll a commandDelimiter = [a] := by
  rw [tokenizeAll]
  split
  · rw [if_neg (by simpa using hne)]
  · rename_i stop hstop
    rw [find_of_not_mem h] at hstop
    cases hstop

theorem tokenizeAll_append (h : commandDelimiter ∉ a) (b : List Char) :
    tokenizeAll (a ++ commandDelimiter :: b) commandDelimiter =
      if a = [] then tokenizeAll b commandDelimiter else a :: tokenizeAll b commandDelimiter := by
  rw [tokenizeAll]
  split
  · rename_i hnone
    rw [find_append h] at hnone
    cases hnone
  · rename_i stop hstop
    rw [find_append h] at hstop
    obtain rfl := Option.some.inj hstop
    cases a with
    | nil => rfl
    | cons c a => simp

/-- Delimiters at the ends make no tokens. -/
theorem tokenizeAll_dropWhile (str : List Char) :
    tokenizeAll (str.dropWhile (!inToken ·)) commandDelimiter = tokenizeAll str commandDelimiter := by
  induction str with
  | nil => rfl
  | cons c str ih =>
    by_cases hc : inToken c = true
    · rw [dropWhile_cons_of_neg (by simpa using hc)]
    · obtain rfl : c = commandDelimiter := by simpa [inToken] using hc
      have happend := tokenizeAll_append (a := []) (by simp) str
      rw [nil_append, if_pos rfl] at happend
      rw [dropWhile_cons_of_pos (by simpa using hc), ih, happend]

theorem tokenizeAll_stripped (h : Stripped str) (hne : str ≠ []) :
    tokenizeAll str commandDelimiter =
      firstToken str :: tokenizeAll (afterToken str) commandDelimiter := by
  have htoken := h.firstToken_ne_nil hne
  have hnot : commandDelimiter ∉ firstToken str :=
    not_mem_iff_inToken.mpr fun c hc => mem_takeWhile_imp hc
  have hsplit : firstToken str ++ str.dropWhile inToken = str := takeWhile_append_dropWhile
  rw [afterToken, tokenizeAll_dropWhile]
  cases hrest : str.dropWhile inToken with
  | nil =>
    rw [hrest, append_nil] at hsplit
    rw [tokenizeAll_nil, ← tokenizeAll_of_not_mem hnot htoken, hsplit]
  | cons c rest =>
    have hc : ¬ inToken c = true := by
      have := head_dropWhile_not inToken (l := str) (by simp [hrest])
      simpa [hrest] using this
    obtain rfl : c = commandDelimiter := by simpa [inToken] using hc
    have hspace := tokenizeAll_append (a := []) (by simp) rest
    rw [nil_append, if_pos rfl] at hspace
    rw [hspace, ← hsplit, hrest, tokenizeAll_append hnot, if_neg htoken, ← hrest, hsplit]

theorem tokenizeAll_concat (str : List Char) :
    tokenizeAll (str ++ [commandDelimiter]) commandDelimiter = tokenizeAll str commandDelimiter := by
  induction hn : str.length using Nat.strong_induction_on generalizing str with
  | _ n ih =>
  rcases find_cases str commandDelimiter with ⟨hnot, -⟩ | ⟨a, b, rfl, hnot, -⟩
  · rw [tokenizeAll_append hnot, tokenizeAll_nil]
    split_ifs with hnil
    · rw [hnil, tokenizeAll_nil]
    · rw [tokenizeAll_of_not_mem hnot hnil]
  · have hlt : b.length < n := by
      rw [← hn, length_append, length_cons]
      omega
    rw [append_assoc, cons_append, tokenizeAll_append hnot, tokenizeAll_append hnot,
      ih b.length hlt b rfl]

theorem tokenizeAll_rdropWhile (str : List Char) :
    tokenizeAll (str.rdropWhile (!inToken ·)) commandDelimiter =
      tokenizeAll str commandDelimiter := by
  induction str using List.reverseRecOn with
  | nil => rfl
  | append_singleton str c ih =>
    by_cases hc : inToken c = true
    · rw [rdropWhile_concat_neg _ _ _ (by simpa using hc)]
    · obtain rfl : c = commandDelimiter := by simpa [inToken] using hc
      rw [rdropWhile_concat_pos _ _ _ (by simpa using hc), ih, tokenizeAll_concat]

end IscServer.ChatCommands
