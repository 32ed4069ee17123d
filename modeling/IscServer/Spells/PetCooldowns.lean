import IscServer.Library.LittleEndian
import IscServer.Spells.SpellHistory

/-!
# The Cooldowns of a Pet on the Wire

`SpellHistory::WritePacket<Pet>` appends a count and one record for each entry of `_spellCooldowns` to the
packet of the pet's spells. The client reads records of 14 bytes; a cooldown on hold is written as 6.

## Main results

* `readRecord_write` — a record that is not on hold is read back.
* `decodable_iff` — when the client reads the block as it was meant.
-/

namespace IscServer.Spells

open List LittleEndian

/-! ### Writing -/

/-- The conversion of a duration to `uint32`. -/
def uint32OfDuration (milliseconds : ℤ) : ℕ := (milliseconds % 2 ^ 32).toNat

/-- The two durations of a record that is not on hold. -/
def petDurations (now : ℤ) (entry : CooldownEntry) : ℕ × ℕ :=
  let cooldownDuration := entry.cooldownEnd - now
  if cooldownDuration ≤ 0 then (0, 0)
  else
    let categoryDuration := entry.categoryEnd - now
    if 0 < categoryDuration then (0, uint32OfDuration categoryDuration)
    else (uint32OfDuration cooldownDuration, 0)

/-- One round of the loop in `SpellHistory::WritePacket<Pet>`. -/
def writePetCooldown (now : ℤ) (slot : Slot) : List UInt8 :=
  toByteList 4 slot.key ++ (toByteList 2 slot.entry.categoryId ++
    if slot.entry.onHold then []
    else
      let (cooldown, category) := petDurations now slot.entry
      toByteList 4 cooldown ++ toByteList 4 category)

/-- `SpellHistory::WritePacket<Pet>`. -/
def SpellHistory.writePacketPet (s : SpellHistory) (now : ℤ) : List UInt8 :=
  toByteList 1 s.spellCooldowns.length ++ s.spellCooldowns.flatMap (writePetCooldown now)

/-! ### Reading -/

/-- A record as the client reads it. -/
structure PetCooldown where
  spellId : ℕ
  category : ℕ
  cooldown : ℕ
  categoryCooldown : ℕ
  deriving DecidableEq, Repr

/-- A number of `width` bytes, and the bytes after it. -/
def readUInt (width : ℕ) (bytes : List UInt8) : Option (ℕ × List UInt8) :=
  if width ≤ bytes.length then some (ofBytes (bytes.take width), bytes.drop width) else none

/-- A record, and the bytes after it. -/
def readRecord (bytes : List UInt8) : Option (PetCooldown × List UInt8) := do
  let (spellId, bytes) ← readUInt 4 bytes
  let (category, bytes) ← readUInt 2 bytes
  let (cooldown, bytes) ← readUInt 4 bytes
  let (categoryCooldown, bytes) ← readUInt 4 bytes
  some (⟨spellId, category, cooldown, categoryCooldown⟩, bytes)

/-- As many records as the count says, and the bytes after them. -/
def readRecords : ℕ → List UInt8 → Option (List PetCooldown × List UInt8)
  | 0, bytes => some ([], bytes)
  | n + 1, bytes => do
      let (record, bytes) ← readRecord bytes
      let (records, bytes) ← readRecords n bytes
      some (record :: records, bytes)

/-- The count, the records, and the bytes after them. -/
def readPetCooldowns (bytes : List UInt8) : Option (List PetCooldown × List UInt8) := do
  let (n, bytes) ← readUInt 1 bytes
  readRecords n bytes

/-- The client reads the whole block, with one record for each entry of `_spellCooldowns`, of its spell
and its category. -/
def Decodable (s : SpellHistory) (now : ℤ) : Prop :=
  ∃ records, readPetCooldowns (s.writePacketPet now) = some (records, []) ∧
    records.map (fun record => (record.spellId, record.category)) =
      s.spellCooldowns.map fun slot => (slot.key, slot.entry.categoryId)

/-! ### What is read back -/

variable {width n : ℕ} {bytes rest : List UInt8} {now : ℤ} {slot : Slot} {slots : List Slot}

theorem readUInt_append : readUInt width (toByteList width n ++ rest) =
    some (n % (2 ^ 8) ^ width, rest) := by
  have hlength := length_toByteList width n
  rw [readUInt, if_pos (by rw [length_append]; omega), take_left' hlength, drop_left' hlength,
    ofBytes_toByteList]

theorem length_of_readUInt (h : readUInt width bytes = some (n, rest)) :
    bytes.length = width + rest.length := by
  rw [readUInt] at h
  split_ifs at h with hwidth
  obtain ⟨-, rfl⟩ := Prod.mk.inj (Option.some.inj h)
  rw [length_drop]
  omega

/-- A record takes 14 bytes. -/
theorem length_of_readRecord {record : PetCooldown} (h : readRecord bytes = some (record, rest)) :
    bytes.length = 14 + rest.length := by
  simp only [readRecord, Option.bind_eq_bind, Option.bind_eq_some_iff, Prod.exists] at h
  obtain ⟨_, _, h₁, _, _, h₂, _, _, h₃, _, _, h₄, h⟩ := h
  obtain ⟨-, rfl⟩ := Prod.mk.inj (Option.some.inj h)
  have hlength := length_of_readUInt h₁
  have hlength := length_of_readUInt h₂
  have hlength := length_of_readUInt h₃
  have hlength := length_of_readUInt h₄
  omega

theorem length_of_readRecords {records : List PetCooldown}
    (h : readRecords n bytes = some (records, rest)) : bytes.length = 14 * n + rest.length := by
  induction n generalizing bytes records with
  | zero =>
    obtain ⟨-, rfl⟩ := Prod.mk.inj (Option.some.inj h)
    omega
  | succ n ih =>
    simp only [readRecords, Option.bind_eq_bind, Option.bind_eq_some_iff, Prod.exists] at h
    obtain ⟨_, _, hfirst, _, _, hrest, h⟩ := h
    obtain ⟨-, rfl⟩ := Prod.mk.inj (Option.some.inj h)
    have hlength := length_of_readRecord hfirst
    have hlength := ih hrest
    omega

/-- What is read of an entry that is not on hold. -/
def petCooldown (now : ℤ) (slot : Slot) : PetCooldown :=
  { spellId := slot.key % (2 ^ 8) ^ 4
    category := slot.entry.categoryId % (2 ^ 8) ^ 2
    cooldown := (petDurations now slot.entry).1 % (2 ^ 8) ^ 4
    categoryCooldown := (petDurations now slot.entry).2 % (2 ^ 8) ^ 4 }

/-- **A record that is not on hold** is read back. -/
theorem readRecord_write (h : slot.entry.onHold = false) :
    readRecord (writePetCooldown now slot ++ rest) = some (petCooldown now slot, rest) := by
  rw [writePetCooldown, if_neg (by simp [h])]
  simp only [readRecord, append_assoc, readUInt_append, Option.bind_eq_bind, Option.bind_some]
  rfl

theorem readRecords_write (h : ∀ slot ∈ slots, slot.entry.onHold = false) :
    readRecords slots.length (slots.flatMap (writePetCooldown now)) =
      some (slots.map (petCooldown now), []) := by
  induction slots with
  | nil => rfl
  | cons slot slots ih =>
    obtain ⟨hslot, hslots⟩ := forall_mem_cons.mp h
    rw [length_cons, readRecords, flatMap_cons, readRecord_write hslot]
    simp only [Option.bind_eq_bind, Option.bind_some, ih hslots, map_cons]

/-- Every record on hold is 8 bytes short. -/
theorem length_write : (slots.flatMap (writePetCooldown now)).length +
    8 * slots.countP (·.entry.onHold) = 14 * slots.length := by
  induction slots with
  | nil => rfl
  | cons slot slots ih =>
    rw [flatMap_cons, length_append, writePetCooldown, countP_cons, length_cons]
    split_ifs <;> simp only [length_append, length_toByteList, length_nil] <;> omega

/-- **The block is decodable** exactly if no cooldown is on hold and the categories fit into 16 bits. -/
theorem decodable_iff (s : SpellHistory) (now : ℤ) (hcount : s.spellCooldowns.length < 256)
    (hkeys : ∀ slot ∈ s.spellCooldowns, slot.key < 2 ^ 32) :
    Decodable s now ↔ ∀ slot ∈ s.spellCooldowns,
      slot.entry.onHold = false ∧ slot.entry.categoryId < 2 ^ 16 := by
  have hread : readPetCooldowns (s.writePacketPet now) =
      readRecords s.spellCooldowns.length (s.spellCooldowns.flatMap (writePetCooldown now)) := by
    simp only [readPetCooldowns, SpellHistory.writePacketPet, readUInt_append, Option.bind_eq_bind,
      Option.bind_some]
    rw [Nat.mod_eq_of_lt (by simpa using hcount)]
  have hmap : (s.spellCooldowns.map (petCooldown now)).map
        (fun record => (record.spellId, record.category)) =
      s.spellCooldowns.map (fun slot => (slot.key, slot.entry.categoryId)) ↔
        ∀ slot ∈ s.spellCooldowns, slot.entry.categoryId < 2 ^ 16 := by
    rw [map_map, map_inj_left]
    refine forall₂_congr fun slot hslot => ?_
    have hkey := hkeys slot hslot
    simp only [Function.comp_apply, petCooldown, Prod.mk.injEq]
    omega
  rw [Decodable, hread]
  constructor
  · rintro ⟨records, hrecords, hsame⟩
    have hlength := length_of_readRecords hrecords
    have hwritten := @length_write now s.spellCooldowns
    have hnone : s.spellCooldowns.countP (·.entry.onHold) = 0 := by
      rw [length_nil] at hlength
      omega
    have hhold : ∀ slot ∈ s.spellCooldowns, slot.entry.onHold = false := by
      simpa using countP_eq_zero.mp hnone
    rw [readRecords_write hhold] at hrecords
    obtain ⟨rfl, -⟩ := Prod.mk.inj (Option.some.inj hrecords)
    exact fun slot hslot => ⟨hhold slot hslot, hmap.mp hsame slot hslot⟩
  · intro h
    exact ⟨_, readRecords_write fun slot hslot => (h slot hslot).1,
      hmap.mpr fun slot hslot => (h slot hslot).2⟩

/-- A pet with a cooldown on hold and one that runs. -/
def onHoldHistory : SpellHistory :=
  { SpellHistory.new with
    spellCooldowns := [⟨1, 0, ⟨1, 5000, 0, 0, 0, true⟩⟩, ⟨2, 1, ⟨2, 5000, 0, 0, 0, false⟩⟩] }

theorem decodable_iff_onHold : Decodable onHoldHistory 0 ↔ ∀ slot ∈ onHoldHistory.spellCooldowns,
    slot.entry.onHold = false ∧ slot.entry.categoryId < 2 ^ 16 :=
  decodable_iff onHoldHistory 0 (by decide) (by decide)

/-- The client runs out of bytes. -/
theorem not_decodable_onHold :
    readPetCooldowns (onHoldHistory.writePacketPet 0) = none ∧ ¬ Decodable onHoldHistory 0 := by
  have hnone : readPetCooldowns (onHoldHistory.writePacketPet 0) = none := by decide
  exact ⟨hnone, fun ⟨records, hrecords, _⟩ => Option.some_ne_none _ (hrecords.symm.trans hnone)⟩

end IscServer.Spells
