import IscServer.Chat.ChatCommandHelpers
import IscServer.DevTools.DevToolsMgr

/-!
# Amounts of Money and Time as Strings

`MoneyStringToMoney`, `secsToTimeString` and `TimeStringToSecs` (`common/Utilities/Util.cpp`). Both readers
compute in 32 bits without a check, so each is right for the numbers that fit.

## Main results

* `moneyStringToMoney_eq`, `moneyExact_iff` — the money of a string.
* `timeStringToSecs_text`, `timeString_iff` — the time of a string.
-/

namespace IscServer.Utilities

open List

/-! ### Money -/

/-- The coins, by the last letter of a token. -/
inductive Coin
  | gold
  | silver
  | copper
  deriving DecidableEq, Repr

/-- The coin of a letter. -/
def Coin.ofChar : Char → Option Coin
  | 'g' => some .gold
  | 's' => some .silver
  | 'c' => some .copper
  | _ => none

/-- The unit of a coin, in copper. -/
def Coin.unit : Coin → ℕ
  | .gold => 100 * 100
  | .silver => 100
  | .copper => 1

/-- The loop of `MoneyStringToMoney`. The product is a `uint32`, and so is the sum before it is stored. -/
def moneyLoop : List (List Char) → (Coin → Bool) → Int32 → Option Int32
  | [], _, money => some money
  | token :: tokens, had, money =>
    match token.getLast?.bind Coin.ofChar with
    | none => none
    | some coin =>
      if had coin then none
      else match DevTools.stringToUInt32 token.dropLast with
        | none => none
        | some amount => moneyLoop tokens (fun c => c = coin || had c)
            (money + (UInt32.ofNat coin.unit * UInt32.ofNat amount).toInt32)

/-- `MoneyStringToMoney`. -/
def moneyStringToMoney (moneyString : List Char) : Option Int32 :=
  moneyLoop (ChatCommands.tokenizeAll moneyString ' ') (fun _ => false) 0

/-- A token as a number of coins: a decimal number below `2 ^ 32` and a letter. -/
def readCoins (token : List Char) : Option (Coin × ℕ) :=
  (token.getLast?.bind Coin.ofChar).bind fun coin =>
    (DevTools.stringToUInt32 token.dropLast).map fun amount => (coin, amount)

/-- The value of coins, in copper. -/
def totalMoney (coins : List (Coin × ℕ)) : ℕ := (coins.map fun c => c.1.unit * c.2).sum

/-- The exact amount of tokens that read as coins, no coin twice. -/
def exactMoney (moneyString : List Char) : Option ℕ :=
  ((ChatCommands.tokenizeAll moneyString ' ').mapM readCoins).bind fun coins =>
    if (coins.map Prod.fst).Nodup then some (totalMoney coins) else none

/-- The string is read as its exact amount if that is an `int32`, and not at all otherwise. -/
def MoneyExact (moneyString : List Char) : Prop :=
  ∀ m : Int32, moneyStringToMoney moneyString = some m ↔ ∃ total, exactMoney moneyString = some total ∧
    total < 2 ^ 31 ∧ m.toInt = total

/-- **The loop** reads the same tokens and adds up modulo `2 ^ 32`. -/
theorem moneyLoop_eq (tokens : List (List Char)) (had : Coin → Bool) (k : ℕ) :
    moneyLoop tokens had (Int32.ofNat k) = (tokens.mapM readCoins).bind fun coins =>
      if (coins.map Prod.fst).Nodup ∧ ∀ c ∈ coins.map Prod.fst, had c = false then
        some (Int32.ofNat (k + totalMoney coins)) else none := by
  induction tokens generalizing had k with
  | nil => simp [moneyLoop, totalMoney]
  | cons token tokens ih =>
    rw [moneyLoop, mapM_cons, readCoins]
    cases token.getLast?.bind Coin.ofChar with
    | none => rfl
    | some coin =>
      cases DevTools.stringToUInt32 token.dropLast with
      | none => simp
      | some amount =>
        have hmoney : Int32.ofNat k + (UInt32.ofNat coin.unit * UInt32.ofNat amount).toInt32 =
            Int32.ofNat (k + coin.unit * amount) := by
          rw [Int32.ofNat_add, ← UInt32.ofNat_mul]
          rfl
        dsimp only
        rw [hmoney, ih]
        cases tokens.mapM readCoins with
        | none => simp
        | some coins =>
          have hother : (∀ c ∈ coins.map Prod.fst, (decide (c = coin) || had c) = false) ↔
              coin ∉ coins.map Prod.fst ∧ ∀ c ∈ coins.map Prod.fst, had c = false := by
            simp only [Bool.or_eq_false_iff, decide_eq_false_iff_not, forall_and]
            exact and_congr_left fun _ => ⟨fun h hin => h coin hin rfl, fun h c hc heq => h (heq ▸ hc)⟩
          simp only [Option.bind_eq_bind, Option.bind_some, Option.map_some, Option.pure_def,
            map_cons, nodup_cons, forall_mem_cons, hother, totalMoney, sum_cons, Nat.add_assoc]
          by_cases hcoin : had coin = true
          · simp [hcoin]
          · rw [Bool.not_eq_true] at hcoin
            simp only [hcoin, Bool.false_eq_true, if_false, true_and]
            exact if_congr (and_left_comm.trans and_assoc.symm) rfl rfl

/-- **The money of a string** is its exact amount as an `int32`. -/
theorem moneyStringToMoney_eq (moneyString : List Char) :
    moneyStringToMoney moneyString = (exactMoney moneyString).map Int32.ofNat := by
  have hloop := moneyLoop_eq (ChatCommands.tokenizeAll moneyString ' ') (fun _ => false) 0
  rw [moneyStringToMoney, exactMoney]
  refine hloop.trans ?_
  cases (ChatCommands.tokenizeAll moneyString ' ').mapM readCoins with
  | none => rfl
  | some coins =>
    simp only [Option.bind_some, implies_true, and_true, Nat.zero_add]
    split_ifs <;> rfl

/-- **A string is read exactly** exactly if its amount, when it has one, is below `2 ^ 31`. -/
theorem moneyExact_iff (moneyString : List Char) : MoneyExact moneyString ↔
    ∀ total, exactMoney moneyString = some total → total < 2 ^ 31 := by
  rw [MoneyExact, moneyStringToMoney_eq]
  cases exactMoney moneyString with
  | none => simp
  | some total =>
    have hsmall : total < 2 ^ 31 → (Int32.ofNat total).toInt = total := fun h =>
      Int32.toInt_ofNat_of_lt h
    simp only [Option.map_some, Option.some.injEq, forall_eq', exists_eq_left']
    refine ⟨fun h => ((h _).mp rfl).1, fun h m => ?_⟩
    rw [← Int32.toInt_inj, hsmall h]
    exact ⟨fun hm => ⟨h, hm.symm⟩, fun hm => hm.2.symm⟩

/-- 300,000 pieces of gold are read as a debt. -/
theorem not_moneyExact_debt : moneyStringToMoney "300000g".toList = some (-1294967296) ∧
    ¬ MoneyExact "300000g".toList := by
  have hexact : exactMoney "300000g".toList = some 3000000000 := by
    rw [exactMoney, ChatCommands.tokenizeAll]
    decide
  have hmoney : moneyStringToMoney "300000g".toList = some (-1294967296) := by
    rw [moneyStringToMoney_eq, hexact]
    rfl
  refine ⟨hmoney, fun h => ?_⟩
  obtain ⟨total, htotal, hlt, -⟩ := (h _).mp hmoney
  obtain rfl := Option.some.inj (hexact.symm.trans htotal)
  exact absurd hlt (by decide)

/-! ### Time -/

/-- `TimeFormat`. -/
inductive TimeFormat
  | fullText
  | shortText
  | numeric
  deriving DecidableEq, Repr

/-- The units of time, by the letter of the short text. -/
inductive TimeUnit
  | day
  | hour
  | minute
  | second
  deriving DecidableEq, Repr

/-- The letter of a unit. -/
def TimeUnit.char : TimeUnit → Char
  | .day => 'd'
  | .hour => 'h'
  | .minute => 'm'
  | .second => 's'

/-- `DAY`, `HOUR`, `MINUTE` and one second. -/
def TimeUnit.secs : TimeUnit → ℕ
  | .day => 24 * 60 * 60
  | .hour => 60 * 60
  | .minute => 60
  | .second => 1

/-- The multiplier of a letter. -/
def multiplier : Char → Option ℕ
  | 'd' => some TimeUnit.day.secs
  | 'h' => some TimeUnit.hour.secs
  | 'm' => some TimeUnit.minute.secs
  | 's' => some TimeUnit.second.secs
  | _ => none

/-- A component of a text: the number, and the letter or the word of its unit. -/
def component (timeFormat : TimeFormat) (n : ℕ) (unit : TimeUnit) (word : String) : List Char :=
  Nat.toDigits 10 n ++ if timeFormat = .shortText then [unit.char] else word.toList

/-- `secsToTimeString`. -/
def secsToTimeString (timeInSecs : ℕ) (timeFormat : TimeFormat) (hoursOnly : Bool) : List Char :=
  let secs := timeInSecs % 60
  let minutes := timeInSecs % 3600 / 60
  let hours := timeInSecs % 86400 / 3600
  let days := timeInSecs / 86400
  if timeFormat = .numeric then
    let two := fun n => ':' :: Decimal.padded 2 n
    if days ≠ 0 then Nat.toDigits 10 days ++ two hours ++ two minutes ++ two secs
    else if hours ≠ 0 then Nat.toDigits 10 hours ++ two minutes ++ two secs
    else if minutes ≠ 0 then Nat.toDigits 10 minutes ++ two secs
    else '0' :: two secs
  else
    (if days ≠ 0 then component timeFormat days .day (if days = 1 then " Day " else " Days ") else []) ++
    ((if hours ≠ 0 ∨ hoursOnly then
      component timeFormat hours .hour (if hours ≤ 1 then " Hour " else " Hours ") else []) ++
    if hoursOnly then []
    else
      (if minutes ≠ 0 then
        component timeFormat minutes .minute (if minutes = 1 then " Minute " else " Minutes ") else []) ++
      if secs ≠ 0 ∨ (days = 0 ∧ hours = 0 ∧ minutes = 0) then
        component timeFormat secs .second (if secs ≤ 1 then " Second." else " Seconds.") else [])

/-- The loop of `TimeStringToSecs`. -/
def timeLoop : List Char → UInt32 → UInt32 → UInt32
  | [], secs, _ => secs
  | c :: cs, secs, buffer =>
    if c.isDigit then timeLoop cs secs (buffer * 10 + UInt32.ofNat (c.toNat - '0'.toNat))
    else match multiplier c with
      | some m => timeLoop cs (secs + buffer * UInt32.ofNat m) 0
      | none => 0

/-- `TimeStringToSecs`. -/
def timeStringToSecs (timestring : List Char) : UInt32 := timeLoop timestring 0 0

/-- A decimal number and a unit. -/
structure TimePart where
  word : List Char
  unit : TimeUnit
  ne_nil : word ≠ []
  isWord : Decimal.IsWord word

/-- The string of some parts. -/
def timeText (parts : List TimePart) : List Char := parts.flatMap fun p => p.word ++ [p.unit.char]

/-- The exact sum of some parts, in seconds. -/
def totalSecs (parts : List TimePart) : ℕ := (parts.map fun p => Decimal.value p.word * p.unit.secs).sum

/-- What is printed in the short format is read back. -/
def TimeRoundTrips (t : UInt32) : Prop :=
  timeStringToSecs (secsToTimeString t.toNat .shortText false) = t

/-- The string of the parts is read as their sum if that fits, and as zero otherwise. -/
def TimeExact (parts : List TimePart) : Prop :=
  timeStringToSecs (timeText parts) =
    if totalSecs parts < 2 ^ 32 then UInt32.ofNat (totalSecs parts) else 0

/-- The loop reads a decimal number. -/
theorem timeLoop_word {word : List Char} (h : Decimal.IsWord word) (rest : List Char) (secs : UInt32)
    (n : ℕ) : timeLoop (word ++ rest) secs (UInt32.ofNat n) =
      timeLoop rest secs (UInt32.ofNat (Nat.ofDigitChars 10 word n)) := by
  induction word generalizing n with
  | nil => rfl
  | cons c word ih =>
    obtain ⟨hdigit, hword⟩ := Decimal.isWord_cons.mp h
    have hbuffer : UInt32.ofNat n * 10 + UInt32.ofNat (c.toNat - '0'.toNat) =
        UInt32.ofNat (10 * n + (c.toNat - '0'.toNat)) := by
      rw [UInt32.ofNat_add, Nat.mul_comm, UInt32.ofNat_mul]
      rfl
    rw [cons_append, timeLoop, if_pos hdigit, hbuffer, ih hword, Nat.ofDigitChars_cons]

theorem timeLoop_unit (unit : TimeUnit) (rest : List Char) (secs buffer : UInt32) :
    timeLoop (unit.char :: rest) secs buffer =
      timeLoop rest (secs + buffer * UInt32.ofNat unit.secs) 0 := by
  cases unit <;> rfl

theorem timeLoop_text (parts : List TimePart) (k : ℕ) :
    timeLoop (timeText parts) (UInt32.ofNat k) 0 = UInt32.ofNat (k + totalSecs parts) := by
  induction parts generalizing k with
  | nil => rfl
  | cons p parts ih =>
    have hword := timeLoop_word p.isWord ([p.unit.char] ++ timeText parts) (UInt32.ofNat k) 0
    have hsum : k + totalSecs (p :: parts) =
        k + Nat.ofDigitChars 10 p.word 0 * p.unit.secs + totalSecs parts :=
      (Nat.add_assoc ..).symm
    rw [timeText, flatMap_cons, append_assoc, ← timeText]
    refine hword.trans ?_
    rw [singleton_append, timeLoop_unit, ← UInt32.ofNat_mul, ← UInt32.ofNat_add, ih, hsum]

/-- **The time of a string** is the sum of its parts modulo `2 ^ 32`. -/
theorem timeStringToSecs_text (parts : List TimePart) :
    timeStringToSecs (timeText parts) = UInt32.ofNat (totalSecs parts) := by
  have hloop := timeLoop_text parts 0
  rwa [Nat.zero_add] at hloop

/-- A number that is printed is a part. -/
def TimePart.of (n : ℕ) (unit : TimeUnit) : TimePart where
  word := Nat.toDigits 10 n
  unit := unit
  ne_nil := Nat.toDigits_ne_nil
  isWord := fun _ hc => Nat.isDigit_of_mem_toDigits (by decide) (by decide) hc

theorem timeText_append (ps qs : List TimePart) : timeText (ps ++ qs) = timeText ps ++ timeText qs :=
  flatMap_append

theorem totalSecs_append (ps qs : List TimePart) :
    totalSecs (ps ++ qs) = totalSecs ps + totalSecs qs := by
  rw [totalSecs, map_append, sum_append]
  rfl

/-- The short text consists of parts that add up to the time. -/
theorem secsToTimeString_short (t : ℕ) : ∃ parts,
    secsToTimeString t .shortText false = timeText parts ∧ totalSecs parts = t := by
  let part := fun (c : Prop) [Decidable c] n unit => if c then [TimePart.of n unit] else []
  have htext : ∀ (c : Prop) [Decidable c] n unit word, timeText (part c n unit) =
      if c then component .shortText n unit word else [] := by
    intro c _ n unit word
    dsimp only [part]
    split_ifs <;> simp [timeText, TimePart.of, component]
  have htotal : ∀ (c : Prop) [Decidable c] n unit, (¬ c → n = 0) →
      totalSecs (part c n unit) = n * unit.secs := by
    intro c _ n unit hzero
    dsimp only [part]
    split_ifs with hc
    · simp [totalSecs, TimePart.of, Decimal.value]
    · rw [hzero hc, Nat.zero_mul]
      rfl
  refine ⟨part (t / 86400 ≠ 0) (t / 86400) .day ++
    (part (t % 86400 / 3600 ≠ 0 ∨ false) (t % 86400 / 3600) .hour ++
      (part (t % 3600 / 60 ≠ 0) (t % 3600 / 60) .minute ++
        part (t % 60 ≠ 0 ∨ (t / 86400 = 0 ∧ t % 86400 / 3600 = 0 ∧ t % 3600 / 60 = 0)) (t % 60)
          .second)), ?_, ?_⟩
  · rw [secsToTimeString]
    simp only [timeText_append]
    rw [htext, htext, htext, htext]
    rfl
  · simp only [totalSecs_append]
    rw [htotal _ _ _ not_not.mp, htotal _ _ _ (by simp), htotal _ _ _ not_not.mp,
      htotal _ _ _ fun h => not_not.mp fun hne => h (Or.inl hne)]
    simp only [TimeUnit.secs]
    omega

/-- **Times are read exactly** exactly if the sum of the parts fits into 32 bits, or is a multiple of
`2 ^ 32`; what is printed is always read back. -/
theorem timeString_iff (t : UInt32) (parts : List TimePart) :
    TimeRoundTrips t ∧ TimeExact parts ↔ totalSecs parts < 2 ^ 32 ∨ 2 ^ 32 ∣ totalSecs parts := by
  have htrip : TimeRoundTrips t := by
    obtain ⟨printed, htext, htotal⟩ := secsToTimeString_short t.toNat
    rw [TimeRoundTrips, htext, timeStringToSecs_text, htotal, UInt32.ofNat_toNat]
  rw [and_iff_right htrip, TimeExact, timeStringToSecs_text]
  split_ifs with hsmall
  · exact iff_of_true rfl (Or.inl hsmall)
  · rw [or_iff_right hsmall, ← UInt32.toNat_inj, UInt32.toNat_ofNat', UInt32.toNat_zero,
      Nat.dvd_iff_mod_eq_zero]

/-- 49711 days are read as a bit less than eighteen hours. -/
theorem not_timeExact_days : timeStringToSecs "49711d".toList = 63104 ∧
    ¬ (TimeRoundTrips 0 ∧ TimeExact [.of 49711 .day]) := by
  refine ⟨rfl, fun h => absurd h.2 ?_⟩
  rw [TimeExact]
  decide

end IscServer.Utilities
