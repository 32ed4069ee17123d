import IscServer.Loot.Loot

/-!
# Rolls for Loot

`LootRoll` (`game/Loot/Loot.cpp`): the players who may take an item vote for it, and the winner gets
it when all have voted or the time is over.

* The vote map is a list in the order in which the unordered map is walked.
* `offered` records the masks that `SendStartRoll` has sent.
* The number of a roll is drawn when the player votes, it is an argument of `playerVote`.
* The loot that comes of a disenchanted item is a loot of its own and left out.
-/

namespace IscServer.Looting

/-- `RollVote`. -/
inductive RollVote
  | pass
  | need
  | greed
  | disenchant
  | notEmitedYet
  | notValid
  deriving DecidableEq, Repr

/-- `RollMask`, a `uint8`. -/
abbrev RollMask := BitVec 8

/-- `ROLL_FLAG_TYPE_NEED`. -/
def rollFlagTypeNeed : RollMask := 0x02

/-- `ROLL_FLAG_TYPE_DISENCHANT`. -/
def rollFlagTypeDisenchant : RollMask := 0x08

/-- `ROLL_ALL_TYPE_MASK`. -/
def rollAllTypeMask : RollMask := 0x0F

/-- The flag of the type of a vote. -/
def RollVote.flag : RollVote → RollMask
  | .pass => 0x01
  | .need => rollFlagTypeNeed
  | .greed => 0x04
  | .disenchant => rollFlagTypeDisenchant
  | _ => 0

/-- The votes of the client: `RollVote(rollType)` for a type below `MAX_ROLL_TYPE`. -/
def RollVote.ofRollType : ℕ → Option RollVote
  | 0 => some .pass
  | 1 => some .need
  | 2 => some .greed
  | 3 => some .disenchant
  | _ => none

/-- A vote for the item. -/
def RollVote.wants : RollVote → Bool
  | .need | .greed | .disenchant => true
  | _ => false

/-- `LOOT_ROLL_TIMEOUT` in milliseconds. -/
def lootRollTimeout : ℕ := 60000

/-- `PlayerRollVote`. -/
structure PlayerRollVote where
  vote : RollVote
  rollNumber : ℕ
  deriving DecidableEq, Repr

/-- `LootRoll`. -/
structure LootRoll where
  rollVoteMap : List (Guid × PlayerRollVote)
  lootListId : ℕ
  voteMask : RollMask
  endTime : ℕ
  /-- the masks that have been sent -/
  offered : List (Guid × RollMask)

/-- What a roll finds when it starts: who is on the map, who passes on group loot, who can roll for
the item (`CanRollForItemInLFG`), and the time. -/
structure Start where
  onMap : Guid → Bool
  getPassOnGroupLoot : Guid → Bool
  canRollForItem : Guid → Bool
  now : ℕ

/-! ### Starting -/

section Roll

variable (world : World)

/-- The vote of a player when the roll starts. -/
def startVote (start : Start) (item : LootItem) (guid : Guid) : RollVote :=
  if ¬ start.onMap guid ∨ ¬ allowedForPlayer world guid false none item then .notValid
  else if start.getPassOnGroupLoot guid then .pass
  else .notEmitedYet

/-- The mask of all types that the item and the group allow. -/
def startMask (proto : ItemTemplate) (enchantingSkill : ℕ) : RollMask :=
  let needed :=
    if proto.canOnlyRollGreed then rollAllTypeMask &&& ~~~rollFlagTypeNeed else rollAllTypeMask
  if proto.disenchantID = 0 ∨ enchantingSkill < proto.requiredDisenchantSkill then
    needed &&& ~~~rollFlagTypeDisenchant
  else needed

/-- `SendStartRoll`: the masks that are sent. Need is disabled for an item the player cannot use. -/
def sendStartRoll (start : Start) (lootMethod : LootMethod) (voteMask : RollMask)
    (rollVoteMap : List (Guid × PlayerRollVote)) : List (Guid × RollMask) :=
  (rollVoteMap.filter fun entry =>
      entry.2.vote = .notEmitedYet ∧ start.onMap entry.1).map fun entry =>
    (entry.1,
      if lootMethod = .needBeforeGreed ∧ ¬ start.canRollForItem entry.1 then
        voteMask &&& ~~~rollFlagTypeNeed
      else voteMask)

/-- `TryToStart`: the roll if it has been started. Where one player or none can loot the item it is
placed under the threshold. -/
def tryToStart (start : Start) (enchantingSkill lootListId : ℕ) (l : Loot) :
    Option LootRoll × Loot :=
  match l.lootItem (l.entryOf lootListId) with
  | none => (none, l)
  | some item =>
    let rollVoteMap := (world.order item.allowedGUIDs).map fun guid =>
      (guid, PlayerRollVote.mk (startVote world start item guid) 0)
    let playerCount := rollVoteMap.countP fun entry => entry.2.vote ≠ .notValid
    match world.template item.itemid with
    | none => (none, l)
    | some proto =>
      let voteMask := startMask proto enchantingSkill
      if 1 < playerCount then
        (some
          { rollVoteMap := rollVoteMap
            lootListId := lootListId
            voteMask := voteMask
            endTime := start.now + lootRollTimeout
            offered := sendStartRoll start l.lootMethod voteMask rollVoteMap },
          l.modifyItem (l.entryOf lootListId) (LootItem.block true))
      else
        (none, l.modifyItem (l.entryOf lootListId) fun item =>
          { item.block false with isUnderthreshold := true })

/-! ### Voting -/

/-- `PlayerVote`: whether the vote counts, and the roll. -/
def LootRoll.playerVote (player : Guid) (vote : RollVote) (rollNumber : ℕ) (roll : LootRoll) :
    Bool × LootRoll :=
  match roll.rollVoteMap.find? fun entry => entry.1 = player with
  | none => (false, roll)
  | some voter =>
    if voter.2.vote ≠ .notEmitedYet then (false, roll)
    else
      (true,
        { roll with
          rollVoteMap := roll.rollVoteMap.map fun entry =>
            if entry.1 = player then
              (entry.1, ⟨vote, if vote = .pass then entry.2.rollNumber else rollNumber⟩)
            else entry })

/-- The scan of `AllPlayerVoted`: how many have not voted, whether someone needs the item, and the
winner so far. -/
structure Scan where
  notVoted : ℕ
  isSomeoneNeed : Bool
  winner : Option (Guid × PlayerRollVote)

/-- One round of `AllPlayerVoted`. -/
def Scan.visit (scan : Scan) (entry : Guid × PlayerRollVote) : Scan :=
  match entry.2.vote with
  | .need =>
    if ¬ scan.isSomeoneNeed ∨
        scan.winner.all fun winner => winner.2.rollNumber < entry.2.rollNumber then
      { scan with isSomeoneNeed := true, winner := some entry }
    else scan
  | .greed | .disenchant =>
    if ¬ scan.isSomeoneNeed ∧
        scan.winner.all fun winner => winner.2.rollNumber < entry.2.rollNumber then
      { scan with winner := some entry }
    else scan
  | .notEmitedYet => { scan with notVoted := scan.notVoted + 1 }
  | _ => scan

/-- `AllPlayerVoted`: whether all have voted, and the winner so far. -/
def LootRoll.allPlayerVoted (roll : LootRoll) : Bool × Option (Guid × PlayerRollVote) :=
  let scan := roll.rollVoteMap.foldl Scan.visit ⟨0, false, none⟩
  (scan.notVoted = 0, scan.winner)

/-! ### The end -/

/-- `GetLootSlotFor`: quest items are indexed per looter. -/
def getLootSlotFor (player : Guid) (lootListId : ℕ) (l : Loot) : ℕ :=
  if lootListId < l.items.length then lootListId
  else
    match l.playerQuestItems player with
    | none => maxNrLootItems + maxNrQuestItems
    | some list =>
      match list.findIdx? fun noted => noted.index = lootListId - l.items.length with
      | none => maxNrLootItems + maxNrQuestItems
      | some position => l.items.length + position

/-- `Finish`: the winner gets the item, or it is disenchanted, if the winner is connected. -/
def finish (connected : Guid → Bool) (canStoreNewItem : Bool) (lootListId : ℕ)
    (winner : Option (Guid × PlayerRollVote)) (l : Loot) : Loot :=
  let entry := l.entryOf lootListId
  let unblocked := l.modifyItem entry (LootItem.block false)
  match winner with
  | none => unblocked
  | some (guid, vote) =>
    let won := unblocked.modifyItem entry (LootItem.winBy guid)
    if ¬ connected guid then won
    else if vote.vote = .disenchant then
      (won.modifyItem entry LootItem.loot).countDown
    else storeLootItem world guid (getLootSlotFor guid lootListId won) canStoreNewItem won

/-- `UpdateRoll`: the winner, if the roll has ended. -/
def LootRoll.updateRoll (now : ℕ) (roll : LootRoll) : Option (Option (Guid × PlayerRollVote)) :=
  let voted := roll.allPlayerVoted
  if voted.1 ∨ roll.endTime ≤ now then some voted.2 else none

end Roll

end IscServer.Looting
