import IscServer.Chat.Hyperlinks

/-!
# Chat Messages Follow the Grammar

`CheckAllLinks` accepts exactly the messages of the grammar, for every link validator.

## Main results

* `parseSingleHyperlink_render`, `parseSingleHyperlink_cases` — the parser inverts the rendering of
  links and accepts nothing else.
* `checkControls_eq` — the scan with its cursor is a recursion over the rest of the message.
* `checkAllLinks_grammar` — the two scans decide the grammar without leaving the string.
-/

namespace IscServer.Hyperlinks

open List

open StringView

variable {str tail : List Char} {color : ℕ} {c : Char}

/-! ### Digits -/

theorem toHex_ne_zero_iff : toHex c ≠ 0 ↔ isHexDigit c := by
  rw [toHex, isHexDigit]
  split_ifs with hdec hhex
  · exact ⟨fun _ => Or.inl hdec, fun _ => by omega⟩
  · exact ⟨fun _ => Or.inr hhex, fun _ => by omega⟩
  · exact ⟨fun h => absurd rfl h, fun h => (h.elim hdec hhex).elim⟩

theorem le_iff_toNat (c d : Char) : c ≤ d ↔ c.toNat ≤ d.toNat := by
  rfl

/-- The bits of `toHex` below the mark are the value of the digit. -/
theorem toHex_and (h : isHexDigit c) : toHex c &&& 0xf = digitValue c ∧ digitValue c < 16 := by
  have hmod : ∀ n : ℕ, n &&& 0xf = n % 16 := fun n => Nat.and_two_pow_sub_one_eq_mod n 4
  rw [hmod, toHex, digitValue]
  rcases h with ⟨hlo, hhi⟩ | ⟨hlo, hhi⟩
  · rw [if_pos ⟨hlo, hhi⟩, if_pos hhi]
    have h9 : c.toNat ≤ 57 := (le_iff_toNat _ _).mp hhi
    have h0 : '0'.toNat = 48 := rfl
    omega
  · have ha : 97 ≤ c.toNat := (le_iff_toNat _ _).mp hlo
    have hf : c.toNat ≤ 102 := (le_iff_toNat _ _).mp hhi
    have hnine : ¬ c ≤ '9' := fun h9 => by
      have : c.toNat ≤ 57 := (le_iff_toNat _ _).mp h9
      omega
    rw [if_neg fun hdec => hnine hdec.2, if_pos ⟨hlo, hhi⟩, if_neg hnine]
    have h97 : 'a'.toNat = 97 := rfl
    omega

theorem digitValue_lt (h : isHexDigit c) : digitValue c < 16 := (toHex_and h).2

/-- One digit is appended to the colour. -/
theorem pushDigit (h : isHexDigit c) (hcolor : color < 2 ^ 28) :
    ((color <<< 4) ||| (toHex c &&& 0xf)) % 2 ^ 32 = 16 * color + digitValue c := by
  obtain ⟨hand, hlt⟩ := toHex_and h
  rw [hand, ← Nat.shiftLeft_add_eq_or_of_lt hlt, Nat.shiftLeft_eq]
  omega

/-- The value of digits after a number. -/
def appendDigits (color : ℕ) (digits : List Char) : ℕ :=
  digits.foldl (fun color c => 16 * color + digitValue c) color

theorem appendDigits_zero (digits : List Char) :
    appendDigits 0 digits = Nat.ofDigits 16 (digits.map digitValue).reverse := by
  rw [appendDigits, Nat.ofDigits_eq_foldr, foldr_reverse, foldl_map]
  simp [Nat.add_comm]

variable {digits : List Char}

/-- The loop over the digits reads them all: the colour never has more than eight. -/
theorem readColor_digits (a rest : List Char) {k : ℕ} (hex : ∀ d ∈ digits, isHexDigit d)
    (hcolor : color < 16 ^ k) (hk : k + digits.length ≤ 8) :
    readColor (a ++ (digits ++ rest)) digits.length a.length color =
      .ok (some (appendDigits color digits)) := by
  induction digits generalizing a color k with
  | nil => rfl
  | cons d digits ih =>
    obtain ⟨hd, hex⟩ := forall_mem_cons.mp hex
    rw [length_cons] at hk
    have hsmall : color < 2 ^ 28 :=
      calc color < 16 ^ k := hcolor
        _ ≤ 16 ^ 7 := Nat.pow_le_pow_right (by omega) (by omega)
        _ = 2 ^ 28 := by norm_num
    have hnext : 16 * color + digitValue d < 16 ^ (k + 1) := by
      have := digitValue_lt hd
      omega
    have hread := ih (a ++ [d]) hex hnext (by omega)
    rw [append_assoc, length_append] at hread
    rw [length_cons, readColor, cons_append, at_append, ok_bind,
      if_pos (toHex_ne_zero_iff.mpr hd), pushDigit hd hsmall]
    exact hread

/-- The loop over the digits accepts digits only. -/
theorem readColor_cases (a rest digits : List Char) (color : ℕ) :
    readColor (a ++ (digits ++ rest)) digits.length a.length color = .ok none ∨
      ∀ d ∈ digits, isHexDigit d := by
  induction digits generalizing a color with
  | nil => exact Or.inr fun d hd => absurd hd not_mem_nil
  | cons d digits ih =>
    rw [length_cons, readColor, cons_append, at_append, ok_bind]
    by_cases hd : toHex d ≠ 0
    · rw [if_pos hd]
      have hrest := ih (a ++ [d]) (((color <<< 4) ||| (toHex d &&& 0xf)) % 2 ^ 32)
      rw [append_assoc, length_append] at hrest
      refine hrest.imp id fun hex => forall_mem_cons.mpr ⟨toHex_ne_zero_iff.mp hd, hex⟩
    · rw [if_neg hd]
      exact Or.inl rfl

/-! ### The parser -/

theorem splitTag_eq (body : List Char) :
    splitTag body = .ok (body.takeWhile (· ≠ ':'), (body.dropWhile (· ≠ ':')).tail) := by
  rw [splitTag]
  rcases find_cases body ':' with ⟨hnot, hfind⟩ | ⟨a, b, rfl, hnot, hfind⟩
  · have hall : ∀ d ∈ body, decide (d ≠ ':') = true := fun d hd =>
      decide_eq_true fun h => hnot (h ▸ hd)
    have htake : body.takeWhile (· ≠ ':') = body := by
      simpa using (@takeWhile_append_of_pos _ _ _ []) hall
    rw [hfind, htake, dropWhile_eq_nil_iff.mpr hall]
    rfl
  · have hall : ∀ d ∈ a, decide (d ≠ ':') = true := fun d hd =>
      decide_eq_true fun h => hnot (h ▸ hd)
    have htake : (a ++ ':' :: b).takeWhile (· ≠ ':') = a := by
      rw [takeWhile_append_of_pos hall]
      simp
    have hdrop : (a ++ ':' :: b).dropWhile (· ≠ ':') = ':' :: b := by
      rw [dropWhile_append_of_pos hall]
      simp
    have hdata : substrFrom (a ++ ':' :: b) (a.length + 1) = .ok b := by
      rw [append_cons, substrFrom_append_of_eq (by simp)]
    rw [hfind, htake, hdrop]
    dsimp only
    rw [hdata, ok_bind, substr_zero, take_left]
    rfl

/-- The text of a link is what stands between the brackets. -/
theorem parseText_render {text : List Char} (hplain : '|' ∉ text) (color : ℕ)
    (tag data tail : List Char) :
    parseText ('[' :: (text ++ ']' :: '|' :: 'h' :: '|' :: 'r' :: tail)) color tag data =
      .ok (some ⟨tail, HyperlinkColor.ofUInt32 color, tag, data, text⟩) := by
  have hfind : find ('[' :: (text ++ ']' :: '|' :: 'h' :: '|' :: 'r' :: tail)) '|' 0 =
      some (text.length + 2) := by
    have hnot : '|' ∉ '[' :: (text ++ [']']) := by simpa using hplain
    simpa using find_append (b := 'h' :: '|' :: 'r' :: tail) hnot
  have hend : substr ('[' :: (text ++ ']' :: '|' :: 'h' :: '|' :: 'r' :: tail)) (text.length + 2) 4 =
      .ok ['|', 'h', '|', 'r'] := by
    simp [substr]
  have hlast : at? ('[' :: (text ++ ']' :: '|' :: 'h' :: '|' :: 'r' :: tail)) (text.length + 1) =
      .ok ']' := by
    simp [at?]
  have htext : substr ('[' :: (text ++ ']' :: '|' :: 'h' :: '|' :: 'r' :: tail)) 1 text.length =
      .ok text := by
    simp [substr]
  have htail : substrFrom ('[' :: (text ++ ']' :: '|' :: 'h' :: '|' :: 'r' :: tail))
      (text.length + 2 + 4) = .ok tail := by
    simp [substrFrom]
  rw [parseText, hfind]
  dsimp only
  rw [hend, ok_bind, if_neg (fun h => h rfl), sizeSub_of_le (by omega), sizeSub_of_le (by omega),
    Nat.add_sub_cancel, show text.length + 2 - 1 = text.length + 1 from rfl, hlast, htext, htail]
  rfl

/-- The parser of the text accepts nothing else. -/
theorem parseText_cases (str : List Char) (color : ℕ) (tag data : List Char) :
    parseText str color tag data = .ok none ∨ ∃ text tail, '|' ∉ text ∧
      str = '[' :: (text ++ ']' :: '|' :: 'h' :: '|' :: 'r' :: tail) := by
  rw [parseText]
  rcases find_cases str '|' with ⟨-, hfind⟩ | ⟨a, b, rfl, hnot, hfind⟩
  · rw [hfind]
    exact Or.inl rfl
  rw [hfind]
  dsimp only
  rw [substr, if_pos (by simp), drop_left, ok_bind]
  split_ifs with hend
  · exact Or.inl rfl
  obtain ⟨tail, rfl⟩ : ∃ tail, b = 'h' :: '|' :: 'r' :: tail := by
    have htake : b.take 3 = ['h', '|', 'r'] := by simpa using hend
    rw [← take_append_drop 3 b, htake]
    simp
  cases a with
  | nil => exact Or.inl rfl
  | cons x a =>
    rw [show at? (x :: a ++ '|' :: 'h' :: '|' :: 'r' :: tail) 0 = .ok x from rfl, ok_bind]
    split_ifs with hx
    · exact Or.inl rfl
    obtain rfl : x = '[' := not_not.mp hx
    -- the character before the pipe is the last one of the text
    rcases eq_nil_or_concat a with rfl | ⟨text, y, rfl⟩
    · exact Or.inl rfl
    have hlast : at? ('[' :: (text ++ [y]) ++ '|' :: 'h' :: '|' :: 'r' :: tail)
        (sizeSub ('[' :: (text ++ [y])).length 1) = .ok y := by
      simp [at?, sizeSub]
    rw [concat_eq_append, hlast, ok_bind]
    split_ifs with hy
    · exact Or.inl rfl
    obtain rfl : y = ']' := not_not.mp hy
    refine Or.inr ⟨text, tail, fun hmem => hnot ?_, by simp⟩
    simp [hmem]

/-- What follows the colour is read up to the text. -/
theorem parseTag_eq {body : List Char} (hplain : '|' ∉ body) (rest : List Char) (color : ℕ) :
    parseTag ('|' :: 'H' :: (body ++ '|' :: 'h' :: rest)) color =
      parseText rest color (body.takeWhile (· ≠ ':')) (body.dropWhile (· ≠ ':')).tail := by
  have hstart : removePrefix ('|' :: 'H' :: (body ++ '|' :: 'h' :: rest)) 2 =
      .ok (body ++ '|' :: 'h' :: rest) := removePrefix_append (a := ['|', 'H']) rfl
  have hbody : removePrefix (body ++ '|' :: 'h' :: rest) (body.length + 1) = .ok ('h' :: rest) := by
    rw [append_cons, removePrefix_append (by simp)]
  have hend : removePrefix ('h' :: rest) 1 = .ok rest := removePrefix_append (a := ['h']) rfl
  rw [parseTag, substr_zero, ok_bind, if_neg (fun h => h rfl), hstart, ok_bind, find_append hplain]
  dsimp only
  rw [substr_zero, take_left, ok_bind, hbody, ok_bind, splitTag_eq, ok_bind, substr_zero,
    ok_bind, if_neg (fun h => h rfl), hend, ok_bind]

/-- The parser of tag and data accepts nothing else. -/
theorem parseTag_cases (str : List Char) (color : ℕ) :
    parseTag str color = .ok none ∨ ∃ body rest, '|' ∉ body ∧
      str = '|' :: 'H' :: (body ++ '|' :: 'h' :: rest) := by
  rw [parseTag, substr_zero, ok_bind]
  split_ifs with hstart
  · exact Or.inl rfl
  obtain ⟨str, rfl⟩ : ∃ rest, str = '|' :: 'H' :: rest :=
    ⟨str.drop 2, by rw [← take_append_drop 2 str, not_not.mp hstart]; simp⟩
  have hstart : removePrefix ('|' :: 'H' :: str) 2 = .ok str :=
    removePrefix_append (a := ['|', 'H']) rfl
  rw [hstart, ok_bind]
  rcases find_cases str '|' with ⟨-, hfind⟩ | ⟨body, rest, rfl, hnot, hfind⟩
  · rw [hfind]
    exact Or.inl rfl
  have hbody : removePrefix (body ++ '|' :: rest) (body.length + 1) = .ok rest := by
    rw [append_cons, removePrefix_append (by simp)]
  rw [hfind]
  dsimp only
  rw [substr_zero, take_left, ok_bind, hbody, ok_bind, splitTag_eq, ok_bind, substr_zero, ok_bind]
  split_ifs with hend
  · exact Or.inl rfl
  obtain ⟨rest, rfl⟩ : ∃ tail, rest = 'h' :: tail :=
    ⟨rest.drop 1, by rw [← take_append_drop 1 rest, not_not.mp hend]; simp⟩
  exact Or.inr ⟨body, rest, hnot, rfl⟩

/-- The colour is read from eight digits. -/
theorem parseSingleHyperlink_eq (height : digits.length = 8) (hex : ∀ d ∈ digits, isHexDigit d)
    (rest : List Char) :
    parseSingleHyperlink ('|' :: 'c' :: (digits ++ rest)) =
      parseTag rest (Nat.ofDigits 16 (digits.map digitValue).reverse) := by
  have hstart : removePrefix ('|' :: 'c' :: (digits ++ rest)) 2 = .ok (digits ++ rest) :=
    removePrefix_append (a := ['|', 'c']) rfl
  have hread : readColor (digits ++ rest) 8 0 0 = .ok (some (appendDigits 0 digits)) := by
    simpa [height] using readColor_digits [] rest (k := 0) hex (by omega) (by omega)
  rw [parseSingleHyperlink, substr_zero, ok_bind, if_neg (fun h => h rfl), hstart, ok_bind,
    if_neg (by rw [length_append]; omega), hread, ok_bind]
  dsimp only
  rw [removePrefix_append height.symm, ok_bind, appendDigits_zero]

/-- The parser accepts nothing without a colour. -/
theorem parseSingleHyperlink_start (str : List Char) :
    parseSingleHyperlink str = .ok none ∨ ∃ digits rest, digits.length = 8 ∧
      (∀ d ∈ digits, isHexDigit d) ∧ str = '|' :: 'c' :: (digits ++ rest) := by
  rw [parseSingleHyperlink, substr_zero, ok_bind]
  split_ifs with hstart
  · exact Or.inl rfl
  obtain ⟨str, rfl⟩ : ∃ rest, str = '|' :: 'c' :: rest :=
    ⟨str.drop 2, by rw [← take_append_drop 2 str, not_not.mp hstart]; simp⟩
  have hstart : removePrefix ('|' :: 'c' :: str) 2 = .ok str :=
    removePrefix_append (a := ['|', 'c']) rfl
  rw [hstart, ok_bind]
  split_ifs with hshort
  · exact Or.inl rfl
  have height : (str.take 8).length = 8 := length_take_of_le (by omega)
  rcases readColor_cases [] (str.drop 8) (str.take 8) 0 with hnone | hex
  · rw [nil_append, take_append_drop, height, length_nil] at hnone
    rw [hnone]
    exact Or.inl rfl
  · exact Or.inr ⟨str.take 8, str.drop 8, height, hex, by rw [take_append_drop]⟩

variable (link : Link)

/-- **The parser inverts the rendering of links**, whatever follows. -/
theorem parseSingleHyperlink_render (tail : List Char) :
    parseSingleHyperlink (link.render ++ tail) = .ok (some (link.info tail)) := by
  have hrender : link.render ++ tail = '|' :: 'c' :: (link.digits ++ '|' :: 'H' :: (link.body ++
      '|' :: 'h' :: '[' :: (link.text ++ ']' :: '|' :: 'h' :: '|' :: 'r' :: tail))) := by
    simp [Link.render]
  rw [hrender, parseSingleHyperlink_eq link.eight link.hex, parseTag_eq link.body_plain,
    parseText_render link.text_plain]
  rfl

/-- The parser accepts links only. -/
theorem parseSingleHyperlink_cases (str : List Char) :
    parseSingleHyperlink str = .ok none ∨ ∃ (link : Link) (tail : List Char),
      str = link.render ++ tail := by
  rcases parseSingleHyperlink_start str with hnone | ⟨digits, rest, height, hex, rfl⟩
  · exact Or.inl hnone
  rw [parseSingleHyperlink_eq height hex]
  rcases parseTag_cases rest (Nat.ofDigits 16 (digits.map digitValue).reverse) with
    hnone | ⟨body, rest, hbody, rfl⟩
  · exact Or.inl hnone
  rw [parseTag_eq hbody]
  rcases parseText_cases rest (Nat.ofDigits 16 (digits.map digitValue).reverse)
    (body.takeWhile (· ≠ ':')) (body.dropWhile (· ≠ ':')).tail with hnone | ⟨text, tail, htext, rfl⟩
  · exact Or.inl hnone
  · exact Or.inr ⟨⟨digits, body, text, height, hex, hbody, htext⟩, tail, by simp [Link.render]⟩

/-! ### The scan for control sequences -/

/-- Every pipe is followed by a known control character, read from left to right. -/
def controls : List Char → Bool
  | [] => true
  | '|' :: [] => false
  | '|' :: next :: s => isControl next && controls s
  | _ :: s => controls s

theorem controls_cons_of_ne (hc : c ≠ '|') (s : List Char) : controls (c :: s) = controls s := by
  rw [controls.eq_def]
  split <;> simp_all

theorem controls_append_of_not_mem {a : List Char} (h : '|' ∉ a) (s : List Char) :
    controls (a ++ s) = controls s := by
  induction a with
  | nil => rfl
  | cons d a ih =>
    have hd : d ≠ '|' := fun hd => h (hd ▸ mem_cons_self)
    rw [cons_append, controls_cons_of_ne hd, ih (not_mem_of_not_mem_cons h)]

theorem controls_pipe (next : Char) (s : List Char) :
    controls ('|' :: next :: s) = (isControl next && controls s) := by
  rw [controls]

theorem controls_render (link : Link) (s : List Char) : controls (link.render ++ s) = controls s := by
  have hdigits : '|' ∉ link.digits := fun hmem => by
    rcases link.hex _ hmem with h | h
    · revert h; decide
    · revert h; decide
  have hrender : link.render ++ s = '|' :: 'c' :: (link.digits ++ '|' :: 'H' :: (link.body ++
      '|' :: 'h' :: '[' :: (link.text ++ ']' :: '|' :: 'h' :: '|' :: 'r' :: s))) := by
    simp [Link.render]
  rw [hrender, controls_pipe, controls_append_of_not_mem hdigits, controls_pipe,
    controls_append_of_not_mem link.body_plain, controls_pipe, controls_cons_of_ne (by decide),
    controls_append_of_not_mem link.text_plain, controls_cons_of_ne (by decide), controls_pipe,
    controls_pipe]
  rfl

/-- **The scan with its cursor** is a recursion over the rest of the message. -/
theorem checkControls_eq {rounds : ℕ} {a : List Char} (hrounds : str.length < rounds) :
    checkControls (a ++ str) rounds a.length = .ok (controls str) := by
  induction rounds generalizing a str with
  | zero => omega
  | succ rounds ih =>
    rw [checkControls, find_from, drop_left]
    rcases find_cases str '|' with ⟨hnot, hfind⟩ | ⟨b, s, rfl, hnot, hfind⟩
    · have := controls_append_of_not_mem hnot []
      rw [append_nil] at this
      rw [hfind, this]
      rfl
    rw [hfind, controls_append_of_not_mem hnot, Option.map_some]
    dsimp only
    cases s with
    | nil =>
      rw [if_pos (by simp; omega)]
      rfl
    | cons next s =>
      have hnext : at? (a ++ (b ++ '|' :: next :: s)) (a.length + b.length + 1) = .ok next := by
        rw [append_cons b, ← append_assoc, at_append_of_eq (by simp; omega)]
      rw [if_neg (by simp; omega), hnext, ok_bind, controls_pipe]
      have hrest : a ++ (b ++ '|' :: next :: s) = (a ++ (b ++ ['|', next])) ++ s := by simp
      have hlen : a.length + b.length + 2 = (a ++ (b ++ ['|', next])).length := by simp; omega
      split_ifs with hcontrol
      · rw [hrest, hlen, ih (by simp at hrounds; omega), hcontrol, Bool.true_and]
      · rw [Bool.eq_false_iff.mpr hcontrol, Bool.false_and]

/-! ### The scan for links -/

variable {validateLinkInfo : HyperlinkColor → List Char → List Char → List Char → Bool}
  {s : List Char}

theorem render_eq_cons (tail : List Char) :
    ∃ rest, link.render ++ tail = '|' :: 'c' :: rest := ⟨_, rfl⟩

theorem grammar_char_iff (hc : c ≠ '|') :
    Grammar validateLinkInfo (c :: s) ↔ Grammar validateLinkInfo s := by
  refine ⟨fun h => ?_, Grammar.char hc⟩
  generalize hstr : c :: s = str at h
  cases h with
  | nil => cases hstr
  | char _ h =>
    obtain ⟨-, rfl⟩ := List.cons.inj hstr
    exact h
  | escape _ => exact absurd (List.cons.inj hstr).1 hc
  | link link _ _ => exact absurd (List.cons.inj hstr).1 hc

theorem grammar_append_iff {a : List Char} (h : '|' ∉ a) :
    Grammar validateLinkInfo (a ++ s) ↔ Grammar validateLinkInfo s := by
  induction a with
  | nil => exact Iff.rfl
  | cons d a ih =>
    have hd : d ≠ '|' := fun hd => h (hd ▸ mem_cons_self)
    rw [cons_append, grammar_char_iff hd, ih (not_mem_of_not_mem_cons h)]

theorem grammar_escape_iff :
    Grammar validateLinkInfo ('|' :: '|' :: s) ↔ Grammar validateLinkInfo s := by
  refine ⟨fun h => ?_, Grammar.escape⟩
  generalize hstr : '|' :: '|' :: s = str at h
  cases h with
  | nil => cases hstr
  | char hc _ => exact absurd (List.cons.inj hstr).1.symm hc
  | escape h =>
    obtain ⟨-, hstr⟩ := List.cons.inj hstr
    obtain ⟨-, rfl⟩ := List.cons.inj hstr
    exact h
  | link link _ _ =>
    obtain ⟨rest, hrest⟩ := render_eq_cons link _
    rw [hrest] at hstr
    cases hstr

/-- What starts with a pipe that is not escaped is a link that the parser accepts. -/
theorem grammar_pipe (h : Grammar validateLinkInfo ('|' :: c :: s)) (hc : c ≠ '|') :
    ∃ (link : Link) (tail : List Char), '|' :: c :: s = link.render ++ tail ∧
      validateLinkInfo (HyperlinkColor.ofUInt32 link.color) link.tag link.data link.text = true ∧
      Grammar validateLinkInfo tail := by
  generalize hstr : '|' :: c :: s = str at h
  cases h with
  | nil => cases hstr
  | char hne _ => exact absurd (List.cons.inj hstr).1.symm hne
  | escape _ => exact absurd (List.cons.inj (List.cons.inj hstr).2).1 hc
  | link link hvalid htail => exact ⟨link, _, rfl, hvalid, htail⟩

/-- A link is followed by a message of the grammar. -/
theorem grammar_render_iff (tail : List Char) :
    Grammar validateLinkInfo (link.render ++ tail) ↔
      validateLinkInfo (HyperlinkColor.ofUInt32 link.color) link.tag link.data link.text = true ∧
        Grammar validateLinkInfo tail := by
  refine ⟨fun h => ?_, fun h => Grammar.link link h.1 h.2⟩
  obtain ⟨rest, hrest⟩ := render_eq_cons link tail
  obtain ⟨other, rest', heq, hvalid, htail⟩ := grammar_pipe (hrest ▸ h) (by decide)
  -- the parser sees one link only
  have hparse := parseSingleHyperlink_render link tail
  rw [hrest, heq, parseSingleHyperlink_render] at hparse
  have hinfo : other.info rest' = link.info tail := Option.some.inj (Except.ok.inj hparse)
  obtain ⟨rfl, hcolor, htag, hdata, htext⟩ := HyperlinkInfo.mk.inj hinfo
  rw [hcolor, htag, hdata, htext] at hvalid
  exact ⟨hvalid, htail⟩

/-- The links of a message whose control sequences are known. -/
theorem checkLinks_spec {rounds : ℕ} (hcontrols : controls str = true)
    (hrounds : str.length < rounds) : ∃ b, checkLinks validateLinkInfo rounds str = .ok b ∧
      (b = true ↔ Grammar validateLinkInfo str) := by
  induction rounds generalizing str with
  | zero => omega
  | succ rounds ih =>
    rw [checkLinks]
    rcases find_cases str '|' with ⟨hnot, hfind⟩ | ⟨a, s, rfl, hnot, hfind⟩
    · rw [hfind]
      have hall := @grammar_append_iff validateLinkInfo [] str hnot
      rw [append_nil] at hall
      exact ⟨true, rfl, fun _ => hall.mpr Grammar.nil, fun _ => rfl⟩
    rw [hfind, grammar_append_iff hnot]
    rw [controls_append_of_not_mem hnot] at hcontrols
    dsimp only
    -- the first scan has seen that a character follows
    obtain ⟨next, s, rfl⟩ : ∃ next t, s = next :: t := by
      cases s with
      | nil => cases hcontrols
      | cons next t => exact ⟨next, t, rfl⟩
    have hnext : at? (a ++ '|' :: next :: s) (a.length + 1) = .ok next := by
      rw [append_cons, at_append_of_eq (by simp)]
    rw [hnext, ok_bind]
    rw [length_append, length_cons, length_cons] at hrounds
    split_ifs with hescape
    · subst hescape
      have hrest : substrFrom (a ++ '|' :: '|' :: s) (a.length + 2) = .ok s := by
        rw [append_cons, append_cons, substrFrom_append_of_eq (by simp)]
      rw [hrest, ok_bind, grammar_escape_iff]
      exact ih ((Bool.and_eq_true _ _).mp hcontrols).2 (by omega)
    · rw [substrFrom_append, ok_bind]
      rcases parseSingleHyperlink_cases ('|' :: next :: s) with hnone | ⟨link, tail, heq⟩
      · rw [hnone]
        refine ⟨false, rfl, fun h => absurd h Bool.false_ne_true, fun h => ?_⟩
        obtain ⟨link, tail, heq, -, -⟩ := grammar_pipe h hescape
        rw [heq, parseSingleHyperlink_render] at hnone
        cases hnone
      · have hlen : tail.length + 2 ≤ ('|' :: next :: s).length := by
          rw [heq]
          simp [Link.render]
          omega
        rw [heq, controls_render] at hcontrols
        rw [heq, parseSingleHyperlink_render, ok_bind, grammar_render_iff]
        dsimp only
        split_ifs with hvalid
        · obtain ⟨b, hb, hiff⟩ := ih hcontrols (by simp at hlen; omega)
          exact ⟨b, hb, hiff.trans ⟨fun h => ⟨hvalid, h⟩, And.right⟩⟩
        · exact ⟨false, rfl, fun h => absurd h Bool.false_ne_true, fun h => absurd h.1 hvalid⟩

/-- The control sequences of the grammar are known ones. -/
theorem controls_of_grammar (h : Grammar validateLinkInfo str) : controls str = true := by
  induction h with
  | nil => rfl
  | char hc _ ih => rw [controls_cons_of_ne hc, ih]
  | escape _ ih => rw [controls_pipe, ih]; rfl
  | link link _ _ ih => rw [controls_render, ih]

/-- **Link checking decides the grammar.** Given enough rounds `CheckAllLinks` ends without a fault,
so without reading outside of the string, and accepts the messages of the grammar; and the parser
returns the parts that a link was written from. -/
theorem checkAllLinks_grammar
    (validateLinkInfo : HyperlinkColor → List Char → List Char → List Char → Bool)
    (str : List Char) :
    (∃ accepted, (accepted = true ↔ Grammar validateLinkInfo str) ∧ ∃ enough, ∀ rounds,
      enough ≤ rounds → checkAllLinks validateLinkInfo rounds str = .ok accepted) ∧
    ∀ (link : Link) (tail : List Char), parseSingleHyperlink (link.render ++ tail) = .ok (some
      ⟨tail, HyperlinkColor.ofUInt32 link.color, link.tag, link.data, link.text⟩) := by
  refine ⟨?_, parseSingleHyperlink_render⟩
  have hscan : ∀ rounds, str.length < rounds → checkControls str rounds 0 = .ok (controls str) :=
    fun rounds h => checkControls_eq (a := []) h
  cases hcontrols : controls str with
  | false =>
    refine ⟨false, ⟨fun h => absurd h Bool.false_ne_true, fun h => ?_⟩, str.length + 1,
      fun rounds h => ?_⟩
    · rw [controls_of_grammar h] at hcontrols
      cases hcontrols
    · rw [checkAllLinks, hscan rounds h, hcontrols]
      rfl
  | true =>
    obtain ⟨accepted, -, hiff⟩ :=
      @checkLinks_spec str validateLinkInfo _ hcontrols (Nat.lt_succ_self str.length)
    refine ⟨accepted, hiff, str.length + 1, fun rounds h => ?_⟩
    obtain ⟨b, hb, hb_iff⟩ := @checkLinks_spec str validateLinkInfo rounds hcontrols h
    obtain rfl : b = accepted := Bool.eq_iff_iff.mpr (hb_iff.trans hiff.symm)
    rw [checkAllLinks, hscan rounds h, hcontrols, ok_bind, if_pos rfl, hb]

end IscServer.Hyperlinks
