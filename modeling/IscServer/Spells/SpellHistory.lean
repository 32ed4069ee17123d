import IscServer.Library.Keyed

/-!
# Spell History

Spell and category cooldowns (`game/Spells/SpellHistory.h`, `SpellHistory.cpp`).

* An entry of `_spellCooldowns` stays where it is until it is erased; a place is never used twice. A
  pointer of `_categoryCooldowns` is the number of a place.
* A function that follows a pointer to an entry that is gone has no result.
* The clock is a parameter of the operations, in milliseconds. So are the cooldown modifiers of the owner.
-/

namespace IscServer.Spells

/-! ### Data -/

/-- What is read of a `SpellInfo`; the recovery times are read as `int32`. -/
structure SpellInfo where
  id : ℕ
  recoveryTime : ℤ
  category : ℕ
  categoryRecoveryTime : ℤ
  noCategoryCooldownMods : Bool
  isCooldownStartedOnEvent : Bool
  preventionTypeSilence : Bool
  schoolMask : ℕ
  deriving DecidableEq, Repr

/-- `ItemEffect`. -/
structure ItemEffect where
  spellID : ℕ
  coolDownMSec : ℤ
  spellCategoryID : ℕ
  categoryCoolDownMSec : ℤ
  deriving DecidableEq, Repr

/-- `sSpellMgr->GetSpellInfo` and `sObjectMgr->GetItemTemplate`, and whether the owner is a player. -/
structure Env where
  getSpellInfo : ℕ → Option SpellInfo
  itemEffects : ℕ → Option (List ItemEffect)
  isPlayer : Bool

/-- `SpellHistory::CooldownEntry`. -/
structure CooldownEntry where
  spellId : ℕ
  cooldownEnd : ℤ
  itemId : ℕ
  categoryId : ℕ
  categoryEnd : ℤ
  onHold : Bool
  deriving DecidableEq, Repr

/-- An element of `_spellCooldowns` with the place where it lies. -/
structure Slot where
  key : ℕ
  address : ℕ
  entry : CooldownEntry
  deriving DecidableEq, Repr

/-- `SpellHistory`. -/
structure SpellHistory where
  spellCooldowns : List Slot
  spellCooldownsBeforeDuel : List (ℕ × CooldownEntry)
  categoryCooldowns : List (ℕ × ℕ)
  addresses : ℕ
  deriving DecidableEq, Repr

/-- A new `SpellHistory`. -/
def SpellHistory.new : SpellHistory := ⟨[], [], [], 0⟩

/-- `InfinityCooldownDelay`, a month. -/
def infinityCooldownDelay : ℤ := 30 * 24 * 3600 * 1000

/-- A row of `character_spell_cooldown`. -/
structure CooldownRow where
  spell : ℕ
  item : ℕ
  time : ℕ
  categoryId : ℕ
  categoryEnd : ℕ
  deriving DecidableEq, Repr

variable (env : Env) (s : SpellHistory)

/-! ### The maps -/

/-- `_spellCooldowns.find`. -/
def SpellHistory.find (spellId : ℕ) : Option Slot := Keyed.find Slot.key s.spellCooldowns spellId

/-- The entry that a pointer points to. -/
def SpellHistory.deref (address : ℕ) : Option CooldownEntry :=
  (Keyed.find Slot.address s.spellCooldowns address).map Slot.entry

/-- `_spellCooldowns[spellId] = entry`: in place, or in a new one. -/
def SpellHistory.write (spellId : ℕ) (entry : CooldownEntry) : SpellHistory :=
  match s.find spellId with
  | some slot => { s with
      spellCooldowns := Keyed.put Slot.key s.spellCooldowns { slot with entry := entry } }
  | none => { s with
      spellCooldowns := s.spellCooldowns ++ [⟨spellId, s.addresses, entry⟩]
      addresses := s.addresses + 1 }

/-- `_categoryCooldowns[categoryId] = &_spellCooldowns[spellId]`, for a category. -/
def SpellHistory.point (categoryId spellId : ℕ) : SpellHistory :=
  if categoryId = 0 then s
  else match s.find spellId with
    | some slot => { s with
        categoryCooldowns := Keyed.assign Prod.fst s.categoryCooldowns (categoryId, slot.address) }
    | none => s

/-- `SpellHistory::EraseCooldown`. -/
def SpellHistory.eraseCooldown (slot : Slot) : SpellHistory :=
  { s with
    categoryCooldowns := s.categoryCooldowns.filter fun pair => !(pair.1 = slot.entry.categoryId)
    spellCooldowns := s.spellCooldowns.filter fun other => !(other.key = slot.key) }

/-! ### Operations -/

/-- `SpellHistory::AddCooldown`. -/
def SpellHistory.addCooldown (spellId itemId : ℕ) (cooldownEnd : ℤ) (categoryId : ℕ) (categoryEnd : ℤ)
    (onHold : Bool) : SpellHistory :=
  (s.write spellId ⟨spellId, cooldownEnd, itemId, categoryId, categoryEnd, onHold⟩).point categoryId spellId

/-- What `GetCooldownDurations` finds. -/
structure Durations where
  cooldown : ℤ
  categoryId : ℕ
  categoryCooldown : ℤ
  deriving DecidableEq, Repr

/-- `SpellHistory::GetCooldownDurations`. -/
def getCooldownDurations (spellInfo : SpellInfo) (itemId : ℕ) : Durations :=
  let ofItem : Durations :=
    if itemId = 0 then ⟨-1, 0, -1⟩
    else match (env.itemEffects itemId).bind (·.find? fun effect => effect.spellID = spellInfo.id) with
      | some effect => ⟨effect.coolDownMSec, effect.spellCategoryID, effect.categoryCoolDownMSec⟩
      | none => ⟨-1, 0, -1⟩
  if ofItem.cooldown < 0 && ofItem.categoryCooldown < 0 then
    ⟨spellInfo.recoveryTime, spellInfo.category, spellInfo.categoryRecoveryTime⟩
  else ofItem

/-- The modifiers of the owner: `ApplySpellMod`, if somebody has mods, and the aura modifier that is
counted for the spell. -/
structure Modifiers where
  spellMod : Option (ℤ → ℤ)
  auraMod : ℤ

/-- The ends of the cooldowns that `StartCooldown` adds, with the category; `none` if it adds nothing. -/
def startedEnds (spellInfo : SpellInfo) (itemId : ℕ) (mods : Modifiers) (onHold : Bool) (curTime : ℤ) :
    Option (ℤ × ℕ × ℤ) :=
  let durations := getCooldownDurations env spellInfo itemId
  if onHold then
    let catrecTime := if 0 < durations.categoryCooldown then curTime + infinityCooldownDelay else curTime
    let recTime := if 0 < durations.cooldown then curTime + infinityCooldownDelay else catrecTime
    if recTime = curTime then none else some (recTime, durations.categoryId, catrecTime)
  else
    let cooldown := match mods.spellMod with
      | some spellMod => if 0 ≤ durations.cooldown then spellMod durations.cooldown else durations.cooldown
      | none => durations.cooldown
    let categoryCooldown := match mods.spellMod with
      | some spellMod =>
        if 0 ≤ durations.categoryCooldown && !spellInfo.noCategoryCooldownMods then
          spellMod durations.categoryCooldown
        else durations.categoryCooldown
      | none => durations.categoryCooldown
    let cooldown := max 0 (cooldown + mods.auraMod * 1000)
    let categoryCooldown := max 0 categoryCooldown
    if cooldown = 0 && categoryCooldown = 0 then none
    else
      let catrecTime := if categoryCooldown = 0 then curTime else curTime + categoryCooldown
      let recTime := if cooldown = 0 then catrecTime else curTime + cooldown
      if recTime = curTime then none else some (recTime, durations.categoryId, catrecTime)

/-- `SpellHistory::StartCooldown`. -/
def SpellHistory.startCooldown (spellInfo : SpellInfo) (itemId : ℕ) (mods : Modifiers) (onHold : Bool)
    (curTime : ℤ) : SpellHistory :=
  match startedEnds env spellInfo itemId mods onHold curTime with
  | none => s
  | some (recTime, categoryId, catrecTime) =>
    s.addCooldown spellInfo.id itemId recTime categoryId catrecTime onHold

/-- `SpellHistory::ModifyCooldown`. -/
def SpellHistory.modifyCooldown (spellId : ℕ) (cooldownModMs now : ℤ) : SpellHistory :=
  match s.find spellId with
  | none => s
  | some slot =>
    if cooldownModMs = 0 then s
    else if now < slot.entry.cooldownEnd + cooldownModMs then
      s.write spellId { slot.entry with cooldownEnd := slot.entry.cooldownEnd + cooldownModMs }
    else s.eraseCooldown slot

/-- `SpellHistory::ResetCooldown`. -/
def SpellHistory.resetCooldown (spellId : ℕ) : SpellHistory :=
  match s.find spellId with
  | none => s
  | some slot => s.eraseCooldown slot

/-- `SpellHistory::ResetCooldowns`. -/
def SpellHistory.resetCooldowns (predicate : Slot → Bool) : SpellHistory :=
  (s.spellCooldowns.filter predicate).foldl eraseCooldown s

/-- `SpellHistory::ResetAllCooldowns`. -/
def SpellHistory.resetAllCooldowns : SpellHistory :=
  { s with categoryCooldowns := [], spellCooldowns := [] }

/-- The entry or pointed-to entry whose end `GetRemainingCooldown` reads. -/
def SpellHistory.remainingEnd (spellInfo : SpellInfo) : Option (Option ℤ) :=
  match s.find spellInfo.id with
  | some slot => some (some slot.entry.cooldownEnd)
  | none => match Keyed.find Prod.fst s.categoryCooldowns spellInfo.category with
    | none => some none
    | some pair => (s.deref pair.2).map fun entry => some entry.categoryEnd

/-- `SpellHistory::GetRemainingCooldown`. -/
def SpellHistory.getRemainingCooldown (spellInfo : SpellInfo) (now : ℤ) : Option ℕ :=
  (s.remainingEnd spellInfo).map fun found => match found with
    | none => 0
    | some cooldownEnd => if cooldownEnd < now then 0 else (cooldownEnd - now).toNat % 2 ^ 32

/-- The conditions in the loop of `LockSpellSchool`. -/
def locks (schoolMask lockoutTime : ℕ) (now : ℤ) (s : SpellHistory) (spellInfo : SpellInfo) : Option Bool :=
  if spellInfo.isCooldownStartedOnEvent || !spellInfo.preventionTypeSilence then some false
  else if schoolMask &&& spellInfo.schoolMask = 0 then some false
  else (s.getRemainingCooldown spellInfo now).map fun remaining => remaining < lockoutTime

/-- One round of that loop. -/
def lockSpell (schoolMask lockoutTime : ℕ) (now : ℤ) (s : SpellHistory) (spellInfo : SpellInfo) :
    Option SpellHistory :=
  (locks schoolMask lockoutTime now s spellInfo).map fun lock =>
    if lock then s.addCooldown spellInfo.id 0 (now + lockoutTime) 0 now false else s

/-- `SpellHistory::LockSpellSchool`, for the known spells. -/
def SpellHistory.lockSpellSchool (knownSpells : List SpellInfo) (schoolMask lockoutTime : ℕ) (now : ℤ) :
    Option SpellHistory :=
  knownSpells.foldlM (lockSpell schoolMask lockoutTime now) s

/-- The first loop of `SpellHistory::Update`: a category entry goes when the pointed-to entry has reached
its category end. -/
def SpellHistory.expireCategories (now : ℤ) : Option SpellHistory :=
  if s.categoryCooldowns.all fun pair => (s.deref pair.2).isSome then
    some { s with categoryCooldowns := s.categoryCooldowns.filter fun pair =>
      (s.deref pair.2).any fun entry => !(entry.categoryEnd < now) }
  else none

/-- `SpellHistory::Update`. -/
def SpellHistory.update (now : ℤ) : Option SpellHistory :=
  (s.expireCategories now).map fun s =>
    (s.spellCooldowns.filter fun slot => slot.entry.cooldownEnd < now).foldl eraseCooldown s

/-- A point of time as `WriteCooldown` stores it. -/
def toTime (time : ℤ) : ℕ := (time / 1000 % 2 ^ 32).toNat

/-- `SpellHistory::SaveToDB`. -/
def SpellHistory.saveToDB : List CooldownRow :=
  (s.spellCooldowns.filter fun slot => !slot.entry.onHold).map fun slot =>
    ⟨slot.key, slot.entry.itemId, toTime slot.entry.cooldownEnd, slot.entry.categoryId,
      toTime slot.entry.categoryEnd⟩

/-- `ReadCooldown`. -/
def readCooldown (row : CooldownRow) : CooldownEntry :=
  ⟨row.spell, row.time * 1000, row.item, row.categoryId, row.categoryEnd * 1000, false⟩

/-- One row of `SpellHistory::LoadFromDB`. -/
def loadRow (s : SpellHistory) (row : CooldownRow) : SpellHistory :=
  if (env.getSpellInfo row.spell).isNone then s
  else (s.write row.spell (readCooldown row)).point row.categoryId row.spell

/-- `SpellHistory::LoadFromDB`. -/
def SpellHistory.loadFromDB (rows : List CooldownRow) : SpellHistory := rows.foldl (loadRow env) s

/-- `SpellHistory::SaveCooldownStateBeforeDuel`. -/
def SpellHistory.saveCooldownStateBeforeDuel : SpellHistory :=
  { s with spellCooldownsBeforeDuel := s.spellCooldowns.map fun slot => (slot.key, slot.entry) }

/-- A spell with a cooldown of more than ten minutes. -/
def hasLongCooldown (spellId : ℕ) : Bool :=
  (env.getSpellInfo spellId).any fun spellInfo =>
    10 * 60 * 1000 < spellInfo.recoveryTime || 10 * 60 * 1000 < spellInfo.categoryRecoveryTime

/-- The first loop of `RestoreCooldownStateAfterDuel`. -/
def SpellHistory.addLongCooldowns : List (ℕ × CooldownEntry) :=
  (s.spellCooldowns.filter fun slot => hasLongCooldown env slot.key).foldl
    (fun before slot => Keyed.assign Prod.fst before (slot.key, slot.entry)) s.spellCooldownsBeforeDuel

/-- The condition in its second loop. -/
def restores (s : SpellHistory) (before : ℕ × CooldownEntry) : Bool :=
  !before.2.onHold && !((s.find before.1).any fun slot => slot.entry.onHold)

/-- One round of that loop. -/
def restoreOne (s : SpellHistory) (before : ℕ × CooldownEntry) : SpellHistory :=
  if restores s before then s.write before.1 before.2 else s

/-- `SpellHistory::RestoreCooldownStateAfterDuel`. -/
def SpellHistory.restoreCooldownStateAfterDuel : SpellHistory :=
  if env.isPlayer then
    (s.addLongCooldowns env).foldl restoreOne
      { s with spellCooldownsBeforeDuel := s.addLongCooldowns env }
  else s

/-- `SpellHistory::HasCooldown`. -/
def SpellHistory.hasCooldown (spellInfo : SpellInfo) (itemId : ℕ) : Bool :=
  (s.find spellInfo.id).isSome ||
    let category := (getCooldownDurations env spellInfo itemId).categoryId
    !(category = 0) && (Keyed.find Prod.fst s.categoryCooldowns category).isSome

/-! ### Steps -/

/-- The operations. -/
inductive Op
  | startCooldown (spellInfo : SpellInfo) (itemId : ℕ) (mods : Modifiers) (onHold : Bool) (now : ℤ)
  | addCooldown (spellId itemId : ℕ) (cooldownEnd : ℤ) (categoryId : ℕ) (categoryEnd : ℤ) (onHold : Bool)
  | modifyCooldown (spellId : ℕ) (cooldownModMs now : ℤ)
  | resetCooldown (spellId : ℕ)
  | resetCooldowns (predicate : Slot → Bool)
  | resetAllCooldowns
  | lockSpellSchool (knownSpells : List SpellInfo) (schoolMask lockoutTime : ℕ) (now : ℤ)
  | update (now : ℤ)
  | loadFromDB (rows : List CooldownRow)
  | saveCooldownStateBeforeDuel
  | restoreCooldownStateAfterDuel

/-- One operation; `none` when it has followed a pointer to an entry that is gone. -/
def SpellHistory.step : Op → Option SpellHistory
  | .startCooldown spellInfo itemId mods onHold now =>
    some (s.startCooldown env spellInfo itemId mods onHold now)
  | .addCooldown spellId itemId cooldownEnd categoryId categoryEnd onHold =>
    some (s.addCooldown spellId itemId cooldownEnd categoryId categoryEnd onHold)
  | .modifyCooldown spellId cooldownModMs now => some (s.modifyCooldown spellId cooldownModMs now)
  | .resetCooldown spellId => some (s.resetCooldown spellId)
  | .resetCooldowns predicate => some (s.resetCooldowns predicate)
  | .resetAllCooldowns => some s.resetAllCooldowns
  | .lockSpellSchool knownSpells schoolMask lockoutTime now =>
    s.lockSpellSchool knownSpells schoolMask lockoutTime now
  | .update now => s.update now
  | .loadFromDB rows => some (s.loadFromDB env rows)
  | .saveCooldownStateBeforeDuel => some s.saveCooldownStateBeforeDuel
  | .restoreCooldownStateAfterDuel => some (s.restoreCooldownStateAfterDuel env)

end IscServer.Spells
