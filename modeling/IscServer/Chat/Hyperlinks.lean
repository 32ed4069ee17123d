import IscServer.Library.StringView

/-!
# Links in Chat Messages

`ParseSingleHyperlink` and `CheckAllLinks` (`game/Chat/Hyperlinks.cpp`), which decide whether the
links and control sequences in a message of a client are well formed.

* A `std::string_view` is the list of its characters. Reading `str[i]` and cutting with `substr`
  and `remove_prefix` are checked, so that an access outside of the string is a fault of the model.
* The two loops of `CheckAllLinks` are given a number of rounds, and running out of them is a fault.
* `ValidateLinkInfo`, the dispatch to the link tags with their tables, is a parameter, a predicate on
  the colour, the tag, the data and the text of a link.
-/

namespace IscServer.Hyperlinks

open StringView

/-- `HyperlinkColor`. -/
structure HyperlinkColor where
  r : ℕ
  g : ℕ
  b : ℕ
  a : ℕ
  deriving DecidableEq, Repr

/-- The constructor of `HyperlinkColor`: its fields are `uint8`. -/
def HyperlinkColor.ofUInt32 (c : ℕ) : HyperlinkColor :=
  ⟨(c >>> 16) % 256, (c >>> 8) % 256, c % 256, (c >>> 24) % 256⟩

/-- `HyperlinkInfo` of a link, that is with `ok`; without it the parser returns `none`. -/
structure HyperlinkInfo where
  tail : List Char
  color : HyperlinkColor
  tag : List Char
  data : List Char
  text : List Char
  deriving DecidableEq, Repr

/-- `toHex`: the value of a digit with a bit above it, or zero. -/
def toHex (c : Char) : ℕ :=
  if '0' ≤ c ∧ c ≤ '9' then c.toNat - '0'.toNat + 0x10
  else if 'a' ≤ c ∧ c ≤ 'f' then c.toNat - 'a'.toNat + 0x1a
  else 0x00

/-- The loop over the digits of the colour, which is a `uint32`. -/
def readColor (str : List Char) : ℕ → ℕ → ℕ → Checked (Option ℕ)
  | 0, _, color => .ok (some color)
  | rounds + 1, i, color => do
      let c ← at? str i
      if toHex c ≠ 0 then
        readColor str rounds (i + 1) (((color <<< 4) ||| (toHex c &&& 0xf)) % 2 ^ 32)
      else .ok none

/-- The tag without its data, and the data after the first `:`. -/
def splitTag (tag : List Char) : Checked (List Char × List Char) :=
  match find tag ':' 0 with
  | none => .ok (tag, [])
  | some dataStart => do
      let data ← substrFrom tag (dataStart + 1)
      let tag ← substr tag 0 dataStart
      .ok (tag, data)

/-- The last part of `ParseSingleHyperlink`: the text in brackets up to the final `|h|r`. -/
def parseText (str : List Char) (color : ℕ) (tag data : List Char) :
    Checked (Option HyperlinkInfo) :=
  match find str '|' 0 with
  | none => .ok none
  | some pos => do
      if (← substr str pos 4) ≠ ['|', 'h', '|', 'r'] then .ok none
      else if (← at? str 0) ≠ '[' then .ok none
      else if (← at? str (sizeSub pos 1)) ≠ ']' then .ok none
      else
        let text ← substr str 1 (sizeSub pos 2)
        let tail ← substrFrom str (pos + 4)
        .ok (some ⟨tail, HyperlinkColor.ofUInt32 color, tag, data, text⟩)

/-- The middle of `ParseSingleHyperlink`: tag and data up to the next pipe, and the end of the link
data. -/
def parseTag (str : List Char) (color : ℕ) : Checked (Option HyperlinkInfo) := do
  if (← substr str 0 2) ≠ ['|', 'H'] then .ok none
  else
    let str ← removePrefix str 2
    match find str '|' 0 with
    | none => .ok none
    | some delimPos =>
      let tag ← substr str 0 delimPos
      let str ← removePrefix str (delimPos + 1)
      let (tag, data) ← splitTag tag
      if (← substr str 0 1) ≠ ['h'] then .ok none
      else
        let str ← removePrefix str 1
        parseText str color tag data

/-- `ParseSingleHyperlink`. -/
def parseSingleHyperlink (str : List Char) : Checked (Option HyperlinkInfo) := do
  if (← substr str 0 2) ≠ ['|', 'c'] then .ok none
  else
    let str ← removePrefix str 2
    if str.length < 8 then .ok none
    else
      match ← readColor str 8 0 0 with
      | none => .ok none
      | some color =>
        let str ← removePrefix str 8
        parseTag str color

/-- What may follow a pipe. -/
def isControl (next : Char) : Bool :=
  next = 'H' || next = 'h' || next = 'c' || next = 'r' || next = '|'

/-- The first loop of `CheckAllLinks`: all control sequences are known ones. -/
def checkControls (str : List Char) : ℕ → ℕ → Checked Bool
  | 0, _ => .error .unfinished
  | rounds + 1, pos =>
    match find str '|' pos with
    | none => .ok true
    | some pos =>
      if pos + 1 = str.length then .ok false
      else do
        let next ← at? str (pos + 1)
        if isControl next then checkControls str rounds (pos + 2) else .ok false

/-- The second loop of `CheckAllLinks`: all links are valid. `validateLinkInfo` stands for
`ValidateLinkInfo`. -/
def checkLinks (validateLinkInfo : HyperlinkColor → List Char → List Char → List Char → Bool) :
    ℕ → List Char → Checked Bool
  | 0, _ => .error .unfinished
  | rounds + 1, str =>
    match find str '|' 0 with
    | none => .ok true
    | some pos => do
        if (← at? str (pos + 1)) = '|' then
          let str ← substrFrom str (pos + 2)
          checkLinks validateLinkInfo rounds str
        else
          let link ← substrFrom str pos
          match ← parseSingleHyperlink link with
          | none => .ok false
          | some info =>
            if validateLinkInfo info.color info.tag info.data info.text then
              checkLinks validateLinkInfo rounds info.tail
            else .ok false

/-- `CheckAllLinks`, each of whose loops is given a number of rounds. -/
def checkAllLinks (validateLinkInfo : HyperlinkColor → List Char → List Char → List Char → Bool)
    (rounds : ℕ) (str : List Char) : Checked Bool := do
  if ← checkControls str rounds 0 then checkLinks validateLinkInfo rounds str else .ok false

/-! ### The grammar -/

/-- The digits of a colour. -/
def isHexDigit (c : Char) : Prop := ('0' ≤ c ∧ c ≤ '9') ∨ ('a' ≤ c ∧ c ≤ 'f')

/-- The value of a digit. -/
def digitValue (c : Char) : ℕ := if c ≤ '9' then c.toNat - '0'.toNat else c.toNat - 'a'.toNat + 10

/-- A **link** of the grammar: eight digits, tag and data, and a text. -/
structure Link where
  digits : List Char
  body : List Char
  text : List Char
  eight : digits.length = 8
  hex : ∀ c ∈ digits, isHexDigit c
  body_plain : '|' ∉ body
  text_plain : '|' ∉ text

namespace Link

variable (link : Link)

/-- How a link is written. -/
def render : List Char :=
  ['|', 'c'] ++ (link.digits ++ (['|', 'H'] ++ (link.body ++ (['|', 'h', '['] ++
    (link.text ++ [']', '|', 'h', '|', 'r'])))))

/-- The number that the digits of the colour write. -/
def color : ℕ := Nat.ofDigits 16 (link.digits.map digitValue).reverse

/-- The part of the body before the first `:`. -/
def tag : List Char := link.body.takeWhile (· ≠ ':')

/-- The part of the body after the first `:`. -/
def data : List Char := (link.body.dropWhile (· ≠ ':')).tail

/-- What the parser makes of a link. -/
def info (tail : List Char) : HyperlinkInfo :=
  ⟨tail, HyperlinkColor.ofUInt32 link.color, link.tag, link.data, link.text⟩

end Link

/-- **The grammar** of chat messages: other characters, escaped pipes and valid links. -/
inductive Grammar (validateLinkInfo : HyperlinkColor → List Char → List Char → List Char → Bool) :
    List Char → Prop
  | nil : Grammar validateLinkInfo []
  | char {c : Char} {s : List Char} : c ≠ '|' → Grammar validateLinkInfo s →
      Grammar validateLinkInfo (c :: s)
  | escape {s : List Char} : Grammar validateLinkInfo s → Grammar validateLinkInfo ('|' :: '|' :: s)
  | link {s : List Char} (link : Link) :
      validateLinkInfo (HyperlinkColor.ofUInt32 link.color) link.tag link.data link.text = true →
      Grammar validateLinkInfo s → Grammar validateLinkInfo (link.render ++ s)

end IscServer.Hyperlinks
