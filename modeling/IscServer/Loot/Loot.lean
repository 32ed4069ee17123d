import Mathlib.Data.List.Basic

/-!
# Loot

`Loot` (`game/Loot/Loot.h`, `Loot.cpp`) and the ways in which its items get into inventories
(`Player::StoreLootItem`, `Loot::AutoStore`, `HandleLootMasterGiveOpcode`).

* An item of the loot is an `Entry`: a position in `items` or in `quest_items`. `FillLoot` adds all
  items before anything is stored, so that an entry names one item for good.
* What a player may see and take is given by the `World`: the templates of the items, the group, and
  the parts of `AllowedForPlayer` that look at the player. They do not change.
* `CanStoreNewItem` is an argument of the operations: whether there is room in the inventory.
* `stored` records what has been put into inventories.

Packets, achievements, random properties, the type of the loot and the rows of the database are left
out.
-/

namespace IscServer.Looting

/-- The guid of a player. -/
abbrev Guid := ℕ

/-- `MAX_NR_LOOT_ITEMS`. -/
def maxNrLootItems : ℕ := 18

/-- `MAX_NR_QUEST_ITEMS`. -/
def maxNrQuestItems : ℕ := 32

/-- `LootMethod`. -/
inductive LootMethod
  | freeForAll
  | roundRobin
  | masterLoot
  | groupLoot
  | needBeforeGreed
  deriving DecidableEq, Repr

/-- What the loot reads of an `ItemTemplate`. -/
structure ItemTemplate where
  maxStackSize : ℕ
  /-- `ITEM_FLAG_MULTI_DROP` -/
  multiDrop : Bool
  /-- `ITEM_FLAGS_CU_FOLLOW_LOOT_RULES` -/
  followLootRules : Bool
  quality : ℕ
  isCurrencyToken : Bool
  /-- `ITEM_FLAG2_CAN_ONLY_ROLL_GREED` -/
  canOnlyRollGreed : Bool
  disenchantID : ℕ
  requiredDisenchantSkill : ℕ

/-- What the loot reads of a `Group`. -/
structure Group where
  members : List Guid
  lootMethod : LootMethod
  masterLooterGuid : Guid
  lootThreshold : ℕ
  members_nodup : members.Nodup

/-- `LootStoreItem`; the number of items is drawn by `AddItem`. -/
structure LootStoreItem where
  itemid : ℕ
  needsQuest : Bool
  conditions : List ℕ

/-- `LootItem`. -/
structure LootItem where
  itemid : ℕ
  lootListId : ℕ
  conditions : List ℕ
  allowedGUIDs : List Guid
  rollWinnerGUID : Option Guid
  count : ℕ
  isLooted : Bool
  isBlocked : Bool
  freeforall : Bool
  isUnderthreshold : Bool
  isCounted : Bool
  needsQuest : Bool
  followLootRules : Bool

/-- What does not change while there is loot: the templates, the group of the players, what
`AllowedForPlayer` checks of a player, and the order in which an unordered map is walked. -/
structure World where
  template : ℕ → Option ItemTemplate
  group : Option Group
  /-- `IsObjectMeetToConditions` -/
  meetsConditions : Guid → List ℕ → Bool
  /-- the item is not for the other faction -/
  ownTeam : Guid → ℕ → Bool
  /-- the player can use a recipe and does not know it -/
  canLearn : Guid → ℕ → Bool
  /-- the quest requirements, of an item that needs a quest or not -/
  questAllows : Guid → ℕ → Bool → Bool
  /-- the order of an unordered map -/
  order : List Guid → List Guid
  order_perm : ∀ guids, (order guids).Perm guids

/-- `NotNormalLootItem`. -/
structure NotNormalLootItem where
  index : ℕ
  isLooted : Bool
  deriving DecidableEq, Repr

/-- `NotNormalLootItemMap`. -/
abbrev NotNormalLootItemMap := Guid → Option (List NotNormalLootItem)

/-- An item of the loot: a position in `items` or in `quest_items`. -/
inductive Entry
  | item (index : ℕ)
  | quest (index : ℕ)
  deriving DecidableEq, Repr

/-- `Loot` without its rolls. -/
structure Loot where
  items : List LootItem
  questItems : List LootItem
  gold : ℕ
  unlootedCount : ℕ
  lootOwnerGUID : Guid
  playerQuestItems : NotNormalLootItemMap
  playerFFAItems : NotNormalLootItemMap
  playerNonQuestNonFFAConditionalItems : NotNormalLootItemMap
  lootMethod : LootMethod
  allowedLooters : List Guid
  /-- what has been put into inventories -/
  stored : List (Guid × Entry)

/-- An empty loot. -/
def Loot.new (gold : ℕ) : Loot where
  items := []
  questItems := []
  gold := gold
  unlootedCount := 0
  lootOwnerGUID := 0
  playerQuestItems := fun _ => none
  playerFFAItems := fun _ => none
  playerNonQuestNonFFAConditionalItems := fun _ => none
  lootMethod := .freeForAll
  allowedLooters := []
  stored := []

/-! ### Items -/

/-- An item is blocked or free. -/
def LootItem.block (isBlocked : Bool) (item : LootItem) : LootItem :=
  { item with isBlocked := isBlocked }

/-- An item is looted. -/
def LootItem.loot (item : LootItem) : LootItem := { item with isLooted := true }

/-- An item that is for one player only is looted when it is taken. -/
def LootItem.take (item : LootItem) : LootItem := if item.freeforall then item else item.loot

/-- An item is given by the master looter. -/
def LootItem.give (item : LootItem) : LootItem := { item.loot with count := 0 }

/-- A roll for the item has been won. -/
def LootItem.winBy (winner : Guid) (item : LootItem) : LootItem :=
  { item with rollWinnerGUID := some winner }

/-- `AddAllowedLooter`. -/
def LootItem.addAllowedLooter (player : Guid) (item : LootItem) : LootItem :=
  if player ∈ item.allowedGUIDs then item
  else { item with allowedGUIDs := item.allowedGUIDs ++ [player] }

section Items

variable (l : Loot)

/-- The item of an entry. -/
def Loot.lootItem : Entry → Option LootItem
  | .item index => l.items[index]?
  | .quest index => l.questItems[index]?

/-- An item changes. -/
def Loot.modifyItem (entry : Entry) (change : LootItem → LootItem) : Loot :=
  match entry with
  | .item index => { l with items := l.items.modify index change }
  | .quest index => { l with questItems := l.questItems.modify index change }

/-- The entry of an index over both lists. -/
def Loot.entryOf (lootListId : ℕ) : Entry :=
  if lootListId < l.items.length then .item lootListId else .quest (lootListId - l.items.length)

/-- `++unlootedCount`, a `uint8`. -/
def Loot.countUp : Loot := { l with unlootedCount := (l.unlootedCount + 1) % 256 }

/-- `--unlootedCount`, a `uint8`. -/
def Loot.countDown : Loot := { l with unlootedCount := (l.unlootedCount + 255) % 256 }

/-- `isLooted`. -/
def Loot.isLooted : Bool := l.gold = 0 ∧ l.unlootedCount = 0

end Items

section Allowed

variable (world : World)

/-- `GetGroup`. -/
def World.groupOf (player : Guid) : Option Group :=
  world.group.filter fun group => player ∈ group.members

/-- `AllowedForPlayer`; no owner for the empty guid. -/
def allowedForPlayer (player : Guid) (isGivenByMasterLooter : Bool) (ownerGuid : Option Guid)
    (item : LootItem) : Bool :=
  if ¬ world.meetsConditions player item.conditions then false
  else if (world.template item.itemid).isNone ∨ ¬ world.ownTeam player item.itemid then false
  else if ¬ isGivenByMasterLooter ∧
      (world.groupOf player).any fun group => group.masterLooterGuid = player then true
  else if ¬ world.canLearn player item.itemid then false
  else if (item.needsQuest ∧ ¬ item.freeforall ∧
      (world.groupOf player).any fun group =>
        group.lootMethod = .groupLoot ∨ group.lootMethod = .roundRobin) ∧
      ownerGuid.any fun owner => owner ≠ player then false
  else world.questAllows player item.itemid item.needsQuest

/-! ### Filling -/

/-- The constructor of `LootItem`. -/
def LootItem.new (item : LootStoreItem) (proto : ItemTemplate) (lootListId count : ℕ) : LootItem where
  itemid := item.itemid
  lootListId := lootListId
  conditions := item.conditions
  allowedGUIDs := []
  rollWinnerGUID := none
  count := count
  isLooted := false
  isBlocked := false
  freeforall := proto.multiDrop
  isUnderthreshold := false
  isCounted := false
  needsQuest := item.needsQuest
  followLootRules := !item.needsQuest || proto.followLootRules

/-- A member of the group of the owner, or the owner, can see the item. -/
def canSeeItemInLootWindow (ownerInWorld : Bool) (l : Loot) (item : LootItem) : Bool :=
  ownerInWorld &&
    match world.groupOf l.lootOwnerGUID with
    | some group =>
      group.members.any fun guid => allowedForPlayer world guid false (some l.lootOwnerGUID) item
    | none => allowedForPlayer world l.lootOwnerGUID false (some l.lootOwnerGUID) item

/-- One round of `AddItem`. -/
def addStack (ownerInWorld : Bool) (item : LootStoreItem) (proto : ItemTemplate) (count : ℕ)
    (l : Loot) : Loot :=
  let lootItems := if item.needsQuest then l.questItems else l.items
  -- the count of an item is a uint8
  let generatedLoot := LootItem.new item proto lootItems.length (min count proto.maxStackSize % 256)
  let pushed :=
    if item.needsQuest then { l with questItems := l.questItems ++ [generatedLoot] }
    else { l with items := l.items ++ [generatedLoot] }
  if canSeeItemInLootWindow world ownerInWorld l generatedLoot ∧
      ¬ item.needsQuest ∧ item.conditions.isEmpty ∧ ¬ proto.multiDrop then pushed.countUp
  else pushed

/-- The loop of `AddItem`. -/
def addStacks (ownerInWorld : Bool) (item : LootStoreItem) (proto : ItemTemplate) :
    (rounds count : ℕ) → Loot → Loot
  | 0, _, l => l
  | rounds + 1, count, l =>
    if (if item.needsQuest then l.questItems.length < maxNrQuestItems
        else l.items.length < maxNrLootItems) then
      addStacks ownerInWorld item proto rounds (count - proto.maxStackSize)
        (addStack world ownerInWorld item proto count l)
    else l

/-- `Loot::AddItem` with the number of items that is drawn. -/
def addItem (ownerInWorld : Bool) (item : LootStoreItem) (count : ℕ) (l : Loot) : Loot :=
  match world.template item.itemid with
  | none => l
  | some proto =>
    addStacks world ownerInWorld item proto
      (count / proto.maxStackSize + if count % proto.maxStackSize ≠ 0 then 1 else 0) count l

/-- A list of a player is kept if there is something in it. -/
def keepList (player : Guid) (list : List NotNormalLootItem) (map : NotNormalLootItemMap) :
    NotNormalLootItemMap :=
  if list = [] then map else Function.update map player (some list)

/-- Who gets to see a quest item in `FillQuestLoot`. -/
def seesQuestItem (player : Guid) (l : Loot) (item : LootItem) : Bool :=
  allowedForPlayer world player false (some l.lootOwnerGUID) item ||
    item.followLootRules && (world.groupOf player).any fun group =>
      group.lootMethod ≠ .masterLoot ∨ group.masterLooterGuid = player

/-- Quest items get blocked when they first appear in the list of a player, but not in group loot and
round robin. -/
def blocksQuestItem (player : Guid) : Bool :=
  (world.groupOf player).all fun group =>
    group.lootMethod ≠ .groupLoot ∧ group.lootMethod ≠ .roundRobin

/-- A player is entered with a quest item. -/
def LootItem.enterQuest (player : Guid) (item : LootItem) : LootItem :=
  (item.addAllowedLooter player).block (item.isBlocked || blocksQuestItem world player)

/-- One round of `FillQuestLoot`. -/
def fillQuestItem (player : Guid) (filled : Loot × List NotNormalLootItem) (index : ℕ) :
    Loot × List NotNormalLootItem :=
  if filled.1.items.length + filled.2.length = maxNrLootItems then filled
  else
    match filled.1.questItems[index]? with
    | none => filled
    | some item =>
      if ¬ item.isLooted ∧ seesQuestItem world player filled.1 item then
        let counted := if item.freeforall ∨ ¬ item.isBlocked then filled.1.countUp else filled.1
        (counted.modifyItem (.quest index) (LootItem.enterQuest world player),
          filled.2 ++ [⟨index, false⟩])
      else filled

/-- `FillQuestLoot`. -/
def fillQuestLoot (player : Guid) (l : Loot) : Loot :=
  if l.items.length = maxNrLootItems then l
  else
    let filled := (List.range l.questItems.length).foldl (fillQuestItem world player) (l, [])
    { filled.1 with
      playerQuestItems := keepList player filled.2 filled.1.playerQuestItems }

/-- One round of `FillFFALoot`. -/
def fillFFAItem (player : Guid) (filled : Loot × List NotNormalLootItem) (index : ℕ) :
    Loot × List NotNormalLootItem :=
  match filled.1.items[index]? with
  | none => filled
  | some item =>
    if ¬ item.isLooted ∧ item.freeforall ∧
        allowedForPlayer world player false (some filled.1.lootOwnerGUID) item then
      (filled.1.countUp, filled.2 ++ [⟨index, false⟩])
    else filled

/-- `FillFFALoot`. -/
def fillFFALoot (player : Guid) (l : Loot) : Loot :=
  let filled := (List.range l.items.length).foldl (fillFFAItem world player) (l, [])
  { filled.1 with playerFFAItems := keepList player filled.2 filled.1.playerFFAItems }

/-- A player is entered with an item; one that has conditions is counted. -/
def LootItem.enterConditional (player : Guid) (item : LootItem) : LootItem :=
  { item.addAllowedLooter player with isCounted := item.isCounted || !item.conditions.isEmpty }

/-- One round of `FillNonQuestNonFFAConditionalLoot`. -/
def fillConditionalItem (player : Guid) (filled : Loot × List NotNormalLootItem) (index : ℕ) :
    Loot × List NotNormalLootItem :=
  match filled.1.items[index]? with
  | none => filled
  | some item =>
    if ¬ item.isLooted ∧ ¬ item.freeforall ∧
        allowedForPlayer world player false (some filled.1.lootOwnerGUID) item then
      let entered := filled.1.modifyItem (.item index) (LootItem.enterConditional player)
      if item.conditions.isEmpty then (entered, filled.2)
      else (if item.isCounted then entered else entered.countUp, filled.2 ++ [⟨index, false⟩])
    else filled

/-- `FillNonQuestNonFFAConditionalLoot`. -/
def fillNonQuestNonFFAConditionalLoot (player : Guid) (l : Loot) : Loot :=
  let filled := (List.range l.items.length).foldl (fillConditionalItem world player) (l, [])
  { filled.1 with
    playerNonQuestNonFFAConditionalItems :=
      keepList player filled.2 filled.1.playerNonQuestNonFFAConditionalItems }

/-! ### Storing -/

/-- The entry of a list of a player that `LootItemInSlot` comes upon. -/
inductive Note
  | none
  | quest (position : ℕ)
  | ffa (position : ℕ)
  | conditional (position : ℕ)
  deriving DecidableEq, Repr

/-- The position of an index in the list of a player, and whether it is looted. -/
def findNote (list : Option (List NotNormalLootItem)) (index : ℕ) : Option (ℕ × Bool) :=
  list.bind fun list =>
    (list.findIdx? fun noted => noted.index = index).bind fun position =>
      list[position]?.map fun noted => (position, noted.isLooted)

/-- `LootItemInSlot`: the entry, and the note of the player on it. -/
def lootItemInSlot (lootSlot : ℕ) (player : Guid) (l : Loot) : Option (Entry × Note) :=
  match l.items[lootSlot]? with
  | none =>
    let questSlot := lootSlot - l.items.length
    match (l.playerQuestItems player).bind fun list => list[questSlot]? with
    | none => none
    | some noted =>
      if noted.isLooted then none else some (.quest noted.index, .quest questSlot)
  | some item =>
    let found : Note × Bool :=
      if item.freeforall then
        match findNote (l.playerFFAItems player) lootSlot with
        | none => (.none, item.isLooted)
        | some (position, isLooted) => (.ffa position, isLooted)
      else if ¬ item.conditions.isEmpty then
        match findNote (l.playerNonQuestNonFFAConditionalItems player) lootSlot with
        | none => (.none, item.isLooted)
        | some (position, isLooted) => (.conditional position, isLooted)
      else (.none, item.isLooted)
    if found.2 then none else some (.item lootSlot, found.1)

/-- A note is marked as looted. -/
def markNote (position : ℕ) (list : Option (List NotNormalLootItem)) :
    Option (List NotNormalLootItem) :=
  list.map fun list => list.modify position fun noted => { noted with isLooted := true }

/-- The note of a player on an entry is marked as looted. -/
def mark (player : Guid) (note : Note) (l : Loot) : Loot :=
  match note with
  | .none => l
  | .quest position =>
    { l with
      playerQuestItems :=
        Function.update l.playerQuestItems player (markNote position (l.playerQuestItems player)) }
  | .ffa position =>
    { l with
      playerFFAItems :=
        Function.update l.playerFFAItems player (markNote position (l.playerFFAItems player)) }
  | .conditional position =>
    { l with
      playerNonQuestNonFFAConditionalItems :=
        Function.update l.playerNonQuestNonFFAConditionalItems player
          (markNote position (l.playerNonQuestNonFFAConditionalItems player)) }

/-- `StoreNewItem`: nothing is created for a count of zero. -/
def storeNewItem (player : Guid) (entry : Entry) (item : LootItem) (l : Loot) : Loot :=
  if item.count = 0 then l else { l with stored := l.stored ++ [(player, entry)] }

/-- A quest item has been found in the slot. -/
def Note.isQuest : Note → Bool
  | .quest _ => true
  | _ => false

/-- The checks of `StoreLootItem` and of `AutoStore`. -/
def takes (player : Guid) (lootSlot : ℕ) (l : Loot) : Option (Entry × Note × LootItem) :=
  match lootItemInSlot lootSlot player l with
  | none => none
  | some (entry, note) =>
    match l.lootItem entry with
    | none => none
    | some item =>
      if item.isLooted ∨ ¬ allowedForPlayer world player false none item ∨
          ¬ note.isQuest ∧ item.isBlocked ∨
          item.rollWinnerGUID.any fun winner => winner ≠ player then none
      else some (entry, note, item)

/-- The item is stored: the note of the player is marked, and the item if it is for one player. -/
def storeTaken (player : Guid) (entry : Entry) (note : Note) (item : LootItem) (l : Loot) : Loot :=
  (storeNewItem player entry item
    ((mark player note l).modifyItem entry LootItem.take)).countDown

/-- `Player::StoreLootItem`, and one round of `AutoStore`. -/
def storeLootItem (player : Guid) (lootSlot : ℕ) (canStoreNewItem : Bool) (l : Loot) : Loot :=
  match takes world player lootSlot l with
  | none => l
  | some (entry, note, item) =>
    if canStoreNewItem then storeTaken player entry note item l else l

/-- `GetMaxSlotInLootFor`. -/
def maxSlotInLootFor (player : Guid) (l : Loot) : ℕ :=
  l.items.length + ((l.playerQuestItems player).map List.length).getD 0

/-- `Loot::AutoStore`. -/
def autoStore (player : Guid) (canStoreNewItem : ℕ → Bool) (l : Loot) : Loot :=
  (List.range (maxSlotInLootFor player l)).foldl
    (fun l slot => storeLootItem world player slot (canStoreNewItem slot) l) l

/-- The checks of `HandleLootMasterGiveOpcode`; `inReach` when the sender has this loot open and the
target is on the map. -/
def gives (player target : Guid) (slotid : ℕ) (inReach canStoreNewItem : Bool) (l : Loot) :
    Option (Entry × LootItem) :=
  match world.groupOf player with
  | none => none
  | some group =>
    if group.masterLooterGuid ≠ player ∨ group.lootMethod ≠ .masterLoot ∨ ¬ inReach ∨
        target ∉ group.members then none
    else
      match l.lootItem (l.entryOf slotid) with
      | none => none
      | some item =>
        if ¬ canStoreNewItem ∨ ¬ allowedForPlayer world target true none item then none
        else some (l.entryOf slotid, item)

/-- `HandleLootMasterGiveOpcode`. -/
def handleLootMasterGive (player target : Guid) (slotid : ℕ) (inReach canStoreNewItem : Bool)
    (l : Loot) : Loot :=
  match gives world player target slotid inReach canStoreNewItem l with
  | none => l
  | some (entry, item) =>
    ((storeNewItem target entry item l).modifyItem entry LootItem.give).countDown

/-! ### Filling, continued -/

/-- One round of the currency items of `FillNotNormalLootFor`. -/
def storeCurrency (player : Guid) (canStoreNewItem : ℕ → Bool) (l : Loot) (slot : ℕ) : Loot :=
  match l.lootItem (l.entryOf slot) with
  | none => l
  | some item =>
    if ¬ item.isLooted ∧ item.freeforall ∧
        allowedForPlayer world player false (some l.lootOwnerGUID) item ∧
        (world.template item.itemid).any ItemTemplate.isCurrencyToken then
      storeLootItem world player slot (canStoreNewItem slot) l
    else l

/-- `FillNotNormalLootFor`. -/
def fillNotNormalLootFor (canStoreNewItem : Guid → ℕ → Bool) (l : Loot) (player : Guid) : Loot :=
  let allowed :=
    if player ∈ l.allowedLooters then l
    else { l with allowedLooters := l.allowedLooters ++ [player] }
  let quest :=
    if (allowed.playerQuestItems player).isNone then fillQuestLoot world player allowed else allowed
  let ffa := if (quest.playerFFAItems player).isNone then fillFFALoot world player quest else quest
  let conditional :=
    if (ffa.playerNonQuestNonFFAConditionalItems player).isNone then
      fillNonQuestNonFFAConditionalLoot world player ffa
    else ffa
  (List.range (maxSlotInLootFor player conditional)).foldl
    (storeCurrency world player (canStoreNewItem player)) conditional

/-- `processLootItem` of `FillLoot`. -/
def processLootItem (group : Group) (item : LootItem) : LootItem :=
  match world.template item.itemid with
  | none => item
  | some proto =>
    if proto.quality < group.lootThreshold then { item with isUnderthreshold := true }
    else
      match group.lootMethod with
      | .masterLoot | .groupLoot | .needBeforeGreed => item.block true
      | _ => item

/-- What is drawn and found while a loot is filled: the items that the template yields, whether the
owner is in the world, who is near enough, and whether there is room for currency. -/
structure Drop where
  items : List (LootStoreItem × ℕ)
  ownerInWorld : Bool
  isAtGroupRewardDistance : Guid → Bool
  canStoreNewItem : Guid → ℕ → Bool

/-- `FillLoot`. -/
def fillLoot (lootOwner : Guid) (personal : Bool) (drop : Drop) (gold : ℕ) : Loot :=
  let processed := drop.items.foldl
    (fun l drawn => addItem world drop.ownerInWorld drawn.1 drawn.2 l)
    { Loot.new gold with lootOwnerGUID := lootOwner }
  match (world.groupOf lootOwner).filter fun _ => !personal with
  | none => fillNotNormalLootFor world drop.canStoreNewItem processed lootOwner
  | some group =>
    let filled := (group.members.filter drop.isAtGroupRewardDistance).foldl
      (fillNotNormalLootFor world drop.canStoreNewItem)
      { processed with lootMethod := group.lootMethod }
    { filled with
      items := filled.items.map fun item =>
        if item.freeforall then item else processLootItem world group item
      questItems := filled.questItems.map fun item =>
        if item.followLootRules then processLootItem world group item else item }

end Allowed

end IscServer.Looting
