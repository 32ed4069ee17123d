import Mathlib.Data.Fintype.Prod
import IscServer.Guilds.Guild

/-!
# The Guild Bank

The items and the money of a guild's bank (`game/Guilds/Guild.cpp`): moves of items between tabs and
between a tab and the inventory of a player (`SwapItems`, `SwapItemsWithInventory`, `_MoveItems`,
`_DoItemsMove`), deposits and withdrawals of money, and the texts of the tabs, with the rights and
the daily limits of the ranks.

* A `Place` is a slot of the bank (no holder) or a position in the inventory of a player. An item
  object is known by its guid, so that one object in two slots can be told from two objects.
* `CanStoreItem` of the player, the maximal stacks and the binding of items that are stored in an
  inventory are the `Rules` of the game. A bank slot is chosen by the code below.
* Amounts are `uint32`, daily limits and what is taken of them `int32`, as in the source.
* Ranks and members do not change; `Settings` holds them and the number of purchased tabs.

Logs, packets and the rows of the database are left out.
-/

namespace IscServer.Guilds

/-- `uint8`. -/
abbrev Byte := Fin 256

/-- The value of a number as `int32`. -/
def int32 (x : ℤ) : ℤ := Int.bmod x 4294967296

/-- The value of a number as `uint32`. -/
def uint32 (x : ℤ) : ℕ := (x % 4294967296).toNat

/-- `GUILD_BANK_MAX_TABS`, under which the money is counted too. -/
def guildBankMaxTabs : ℕ := 6

/-- `GUILD_BANK_MAX_SLOTS`. -/
def guildBankMaxSlots : ℕ := 98

/-- `GUILD_BANK_MONEY_LIMIT`. -/
def guildBankMoneyLimit : ℕ := 0x7FFFFFFFFFFFF

/-- `MAX_MONEY_AMOUNT`. -/
def maxMoneyAmount : ℕ := 0x7FFFFFFF

/-- `GUILD_WITHDRAW_MONEY_UNLIMITED` and `GUILD_WITHDRAW_SLOT_UNLIMITED`. -/
def guildWithdrawUnlimited : ℕ := 0xFFFFFFFF

/-- `GUILD_BANK_RIGHT_VIEW_TAB`. -/
def guildBankRightViewTab : ℕ := 0x01

/-- `GUILD_BANK_RIGHT_UPDATE_TEXT`. -/
def guildBankRightUpdateText : ℕ := 0x04

/-- `GUILD_BANK_RIGHT_DEPOSIT_ITEM`. -/
def guildBankRightDepositItem : ℕ := 0x03

/-- `GR_RIGHT_WITHDRAW_REPAIR`. -/
def grRightWithdrawRepair : ℕ := 0x00040000

/-- `GR_RIGHT_WITHDRAW_GOLD`. -/
def grRightWithdrawGold : ℕ := 0x00080000

/-- `NULL_SLOT`. -/
def nullSlot : Byte := 255

/-- An `Item`. -/
structure Item where
  guid : ℕ
  entry : ℕ
  count : ℕ
  soulBound : Bool
  notEmptyBag : Bool
  canBeTraded : Bool
  deriving DecidableEq, Repr

/-- The holder, no player for the bank; the tab or the bag; the slot. -/
abbrev Place := Option Guid × Byte × Byte

/-- `ItemPosCountVec`. -/
abbrev ItemPosCountVec := List (Place × ℕ)

/-- What is in the places, and the next guid of an item. -/
structure Items where
  held : Place → Option Item
  nextGuid : ℕ

/-- The rules of the game. -/
structure Rules where
  /-- `GetMaxStackCount` -/
  maxStack : ℕ → ℕ
  /-- an item of this entry is bound when it is stored in this place -/
  binds : Place → ℕ → Bool
  /-- `Player::CanStoreItem`, `none` for an error -/
  canStoreItem : (Place → Option Item) → Place → Item → Bool → Option ItemPosCountVec

/-- A guild with the bank settings of its ranks and the number of purchased tabs. -/
structure Settings where
  guild : Guild
  bankMoneyPerDay : ℕ → ℕ
  tabRights : ℕ → ℕ → ℕ
  tabSlots : ℕ → ℕ → ℕ
  tabs : ℕ

/-- The bank, the purses of the players, and what the members have taken today. -/
structure Bank where
  items : Items
  bankMoney : ℕ
  purse : Guid → ℕ
  bankWithdraw : Guid → ℕ → ℤ
  text : ℕ → String
  info : ℕ → String × String

/-! ### Rights and limits -/

section Rights

variable (g : Settings)

/-- `_GetRankBankMoneyPerDay`. -/
def Settings.rankBankMoneyPerDay (rankId : ℕ) : ℤ :=
  if rankId < g.guild.ranks.length then int32 (g.bankMoneyPerDay rankId) else 0

/-- `_GetRankBankTabSlotsPerDay`. -/
def Settings.rankBankTabSlotsPerDay (rankId tabId : ℕ) : ℤ :=
  if tabId < g.tabs ∧ rankId < g.guild.ranks.length ∧ tabId < guildBankMaxTabs then
    int32 (g.tabSlots rankId tabId)
  else 0

/-- `_GetRankBankTabRights`. -/
def Settings.rankBankTabRights (rankId tabId : ℕ) : ℕ :=
  if rankId < g.guild.ranks.length ∧ tabId < guildBankMaxTabs then g.tabRights rankId tabId else 0

variable (b : Bank)

/-- `_GetMemberRemainingSlots`. -/
def memberRemainingSlots (member : Member) (tabId : ℕ) : ℤ :=
  if member.rankId = grGuildmaster then int32 guildWithdrawUnlimited
  else if g.rankBankTabRights member.rankId tabId &&& guildBankRightViewTab ≠ 0 then
    max 0 (int32 (g.rankBankTabSlotsPerDay member.rankId tabId - b.bankWithdraw member.guid tabId))
  else 0

/-- `_GetMemberRemainingMoney`. -/
def memberRemainingMoney (member : Member) : ℤ :=
  if member.rankId = grGuildmaster then int32 guildWithdrawUnlimited
  else if g.guild.rankRights member.rankId &&& (grRightWithdrawRepair ||| grRightWithdrawGold) ≠ 0 then
    max 0 (int32 (g.rankBankMoneyPerDay member.rankId -
      b.bankWithdraw member.guid guildBankMaxTabs))
  else 0

/-- `_MemberHasTabRights`. -/
def memberHasTabRights (guid : Guid) (tabId rights : ℕ) : Bool :=
  match g.guild.getMember guid with
  | none => false
  | some member =>
    member.rankId = grGuildmaster || g.guild.leaderGuid = guid ||
      g.rankBankTabRights member.rankId tabId &&& rights = rights

/-- `UpdateBankWithdrawValue`. -/
def updateBankWithdrawValue (guid : Guid) (tabId : ℕ) (amount : ℕ) (b : Bank) : Bank :=
  { b with
    bankWithdraw := Function.update b.bankWithdraw guid
      (Function.update (b.bankWithdraw guid) tabId (int32 (b.bankWithdraw guid tabId + amount))) }

/-- `_UpdateMemberWithdrawSlots`. -/
def updateMemberWithdrawSlots (guid : Guid) (tabId : ℕ) (b : Bank) : Bank :=
  match g.guild.getMember guid with
  | none => b
  | some member =>
    if member.rankId ≠ grGuildmaster ∧
        b.bankWithdraw guid tabId < g.rankBankTabSlotsPerDay member.rankId tabId then
      updateBankWithdrawValue guid tabId 1 b
    else b

end Rights

/-! ### Where an item can be stored -/

section Store

variable (rules : Rules) (g : Settings) (items : Items)

/-- `_GetItem` and `GetItemByPos`. -/
def getItem (place : Place) : Option Item :=
  match place with
  | (none, tabId, slotId) =>
    if tabId.val < g.tabs ∧ slotId.val < guildBankMaxSlots then items.held (none, tabId, slotId)
    else none
  | place => items.held place

/-- `_ReserveSpace`: `none` when the item in the slot cannot be used. The second component is what
is still to be stored. -/
def reserveSpace (place : Place) (item : Item) (itemDest : Option Item)
    (reserved : ItemPosCountVec × ℕ) : Option (ItemPosCountVec × ℕ) :=
  let reserve (space : ℕ) : ItemPosCountVec × ℕ :=
    let requiredSpace := min space reserved.2
    if place ∈ reserved.1.map Prod.fst then reserved
    else (reserved.1 ++ [(place, requiredSpace)], reserved.2 - requiredSpace)
  match itemDest with
  | none => some (reserve (rules.maxStack item.entry))
  | some dest =>
    if dest.entry ≠ item.entry ∨ rules.maxStack item.entry ≤ dest.count then none
    else some (reserve (rules.maxStack item.entry - dest.count))

/-- The slots of a tab. -/
def tabSlotIds : List Byte := (List.finRange guildBankMaxSlots).map (Fin.castLE (by decide))

/-- One round of `CanStoreItemInTab`. -/
def tryStoreInSlot (item : Item) (tabId skipSlotId : Byte) (merge : Bool)
    (reserved : ItemPosCountVec × ℕ) (slotId : Byte) : ItemPosCountVec × ℕ :=
  if reserved.2 = 0 ∨ slotId = skipSlotId then reserved
  else
    let itemDest := (getItem g items (none, tabId, slotId)).filter fun dest => dest.guid ≠ item.guid
    if itemDest.isSome ≠ merge then reserved
    else (reserveSpace rules (none, tabId, slotId) item itemDest reserved).getD reserved

/-- `CanStoreItemInTab`. -/
def canStoreItemInTab (item : Item) (tabId skipSlotId : Byte) (merge : Bool)
    (reserved : ItemPosCountVec × ℕ) : ItemPosCountVec × ℕ :=
  tabSlotIds.foldl (tryStoreInSlot rules g items item tabId skipSlotId merge) reserved

/-- The search of `BankMoveItemData::CanStore` for what the given slot does not take. -/
def canStoreRest (item : Item) (tabId slotId : Byte) (reserved : ItemPosCountVec × ℕ) :
    Option ItemPosCountVec :=
  let merged :=
    if 1 < rules.maxStack item.entry then
      canStoreItemInTab rules g items item tabId slotId true reserved
    else reserved
  if merged.2 = 0 then some merged.1
  else
    let free := canStoreItemInTab rules g items item tabId slotId false merged
    if free.2 = 0 then some free.1 else none

/-- `BankMoveItemData::CanStore`. -/
def bankCanStore (tabId slotId : Byte) (item : Item) (swap : Bool) : Option ItemPosCountVec :=
  if item.soulBound ∨ g.tabs ≤ tabId.val then none
  else if slotId = nullSlot then canStoreRest rules g items item tabId slotId ([], item.count)
  else
    -- the item that is moved leaves its slot, and so does the item it is swapped with
    let itemDest := (getItem g items (none, tabId, slotId)).filter fun dest =>
      dest.guid ≠ item.guid ∧ ¬ swap
    (reserveSpace rules (none, tabId, slotId) item itemDest ([], item.count)).bind fun reserved =>
      if reserved.2 = 0 then some reserved.1
      else canStoreRest rules g items item tabId slotId reserved

/-- `MoveItemData::CanStore`. -/
def canStore (place : Place) (item : Item) (swap : Bool) : Option ItemPosCountVec :=
  match place with
  | (none, tabId, slotId) => bankCanStore rules g items tabId slotId item swap
  | place => rules.canStoreItem items.held place item swap

/-- Storing an item in an inventory may bind it. -/
def bindsAt (place : Place) (entry : ℕ) : Bool := place.1.isSome && rules.binds place entry

/-- `_StoreItem` of the bank and of the player: a stack grows, or the item or a clone of it is put
into an empty slot. -/
def storeItemAt (item : Item) (place : Place) (count : ℕ) (clone : Bool) (items : Items) : Items :=
  match items.held place with
  | some dest =>
    { items with
      held := Function.update items.held place
        (some { dest with
          count := dest.count + count, soulBound := dest.soulBound || bindsAt rules place dest.entry }) }
  | none =>
    let stored := { item with
      guid := if clone then items.nextGuid else item.guid
      count := count
      soulBound := item.soulBound || bindsAt rules place item.entry }
    { held := Function.update items.held place (some stored)
      nextGuid := if clone then items.nextGuid + 1 else items.nextGuid }

/-- `StoreItem`: all but the last position take clones. -/
def storeItem (item : Item) : ItemPosCountVec → Items → Items
  | [], items => items
  | (place, count) :: vec, items =>
    storeItem item vec (storeItemAt rules item place count (!vec.isEmpty) items)

end Store

/-! ### Moving items -/

/-- What became of a request; two items may have changed places. -/
inductive Outcome
  | refused
  | done
  | swapped
  deriving DecidableEq, Repr

/-- What became of a request that was carried out or not. -/
def Outcome.ofBool (ok : Bool) : Outcome := if ok then .done else .refused

section Move

variable (rules : Rules) (g : Settings)

/-- `InitItem`: bags with items in them and bound items stay with the player. -/
def initItem (b : Bank) (place : Place) : Option Item :=
  match place with
  | (none, tabId, slotId) => getItem g b.items (none, tabId, slotId)
  | place => (b.items.held place).filter fun item => !item.notEmptyBag && item.canBeTraded

/-- Both places are in the same tab of the bank. -/
def sameTab (place other : Place) : Bool :=
  other.1 = none ∧ other.2.1 = place.2.1

/-- `HasStoreRights`. -/
def hasStoreRights (player : Guid) (place other : Place) : Bool :=
  match place with
  | (none, tabId, slotId) =>
    sameTab (none, tabId, slotId) other ||
      memberHasTabRights g player tabId guildBankRightDepositItem
  | _ => true

/-- `HasWithdrawRights`. -/
def hasWithdrawRights (player : Guid) (b : Bank) (place other : Place) : Bool :=
  match place with
  | (none, tabId, slotId) =>
    sameTab (none, tabId, slotId) other ||
      (g.guild.getMember player).any fun member => memberRemainingSlots g b member tabId ≠ 0
  | _ => true

/-- `RemoveItem`: a part of the stack, or all of it. Taking items out of a tab counts. -/
def removeItem (player : Guid) (place other : Place) (item : Item) (splitedAmount : ℕ) (b : Bank) :
    Bank :=
  let left :=
    { b with
      items :=
        { b.items with
          held := Function.update b.items.held place
            (if splitedAmount = 0 then none
            else some { item with count := item.count - splitedAmount }) } }
  match place with
  | (none, tabId, slotId) =>
    if sameTab (none, tabId, slotId) other then left
    else updateMemberWithdrawSlots g player tabId left
  | _ => left

/-- `CloneItem` of the part that is split off. -/
def cloneItem (item : Item) (count : ℕ) (b : Bank) : Item × Bank :=
  ({ item with guid := b.items.nextGuid, count := count },
    { b with items := { b.items with nextGuid := b.items.nextGuid + 1 } })

/-- `_DoItemsMove`: `srcItem` is the item to store, the source item or a clone; `destItem` is there
for a swap. -/
def doItemsMove (player : Guid) (src dest : Place) (item srcItem : Item) (destItem : Option Item)
    (splitedAmount : ℕ) (b : Bank) : Bool × Bank :=
  match canStore rules g b.items dest srcItem destItem.isSome with
  | none => (false, b)
  | some destVec =>
    match destItem with
    | none =>
      let removed := removeItem g player src dest item splitedAmount b
      (true, { removed with items := storeItem rules srcItem destVec removed.items })
    | some swapped =>
      match canStore rules g b.items src swapped true with
      | none => (false, b)
      | some srcVec =>
        let removed := removeItem g player dest src swapped 0
          (removeItem g player src dest item splitedAmount b)
        (true, { removed with
          items := storeItem rules swapped srcVec
            (storeItem rules srcItem destVec removed.items) })

/-- `_MoveItems`. -/
def moveItems (player : Guid) (src dest : Place) (splitedAmount : ℕ) (b : Bank) : Outcome × Bank :=
  match initItem g b src with
  | none => (.refused, b)
  | some item =>
    if item.count < splitedAmount then (.refused, b)
    else if ¬ hasStoreRights g player dest src ∨ ¬ hasWithdrawRights g player b src dest then
      (.refused, b)
    else if splitedAmount ≠ 0 ∧ splitedAmount ≠ item.count then
      let cloned := cloneItem item splitedAmount b
      let moved := doItemsMove rules g player src dest item cloned.1 none splitedAmount cloned.2
      (.ofBool moved.1, moved.2)
    else
      let merged := doItemsMove rules g player src dest item item none 0 b
      if merged.1 then (.done, merged.2)
      else
        match initItem g b dest with
        | none => (.refused, b)
        | some destItem =>
          if ¬ hasStoreRights g player src dest ∨ ¬ hasWithdrawRights g player b dest src then
            (.refused, b)
          else
            let moved := doItemsMove rules g player src dest item item (some destItem) 0 b
            (if moved.1 then .swapped else .refused, moved.2)

/-- `Guild::SwapItems`. -/
def swapItems (player : Guid) (tabId slotId destTabId destSlotId : Byte) (splitedAmount : ℕ)
    (b : Bank) : Outcome × Bank :=
  if g.tabs ≤ tabId.val ∨ guildBankMaxSlots ≤ slotId.val ∨ g.tabs ≤ destTabId.val ∨
      guildBankMaxSlots ≤ destSlotId.val then (.refused, b)
  else if tabId = destTabId ∧ slotId = destSlotId then (.refused, b)
  else moveItems rules g player (none, tabId, slotId) (none, destTabId, destSlotId) splitedAmount b

/-- `Guild::SwapItemsWithInventory`. -/
def swapItemsWithInventory (player : Guid) (toChar : Bool) (tabId slotId playerBag playerSlotId : Byte)
    (splitedAmount : ℕ) (b : Bank) : Outcome × Bank :=
  if guildBankMaxSlots ≤ slotId.val ∧ slotId ≠ nullSlot ∨ g.tabs ≤ tabId.val then (.refused, b)
  else if toChar then
    moveItems rules g player (none, tabId, slotId) (some player, playerBag, playerSlotId)
      splitedAmount b
  else
    moveItems rules g player (some player, playerBag, playerSlotId) (none, tabId, slotId)
      splitedAmount b

end Move

/-! ### Money -/

/-- `Player::ModifyMoney`: gold is given up to a limit. -/
def modifyMoney (player : Guid) (amount : ℤ) (b : Bank) : Bool × Bank :=
  if amount = 0 then (true, b)
  else if amount < 0 then
    (true, { b with
      purse := Function.update b.purse player
        (if -amount < b.purse player then (b.purse player + amount).toNat else 0) })
  else if b.purse player < (maxMoneyAmount : ℤ) - amount then
    (true, { b with purse := Function.update b.purse player (b.purse player + amount).toNat })
  else (false, b)

/-- `Guild::HandleMemberDepositMoney`. -/
def handleMemberDepositMoney (player : Guid) (amount : ℕ) (b : Bank) : Outcome × Bank :=
  if guildBankMoneyLimit - amount < b.bankMoney then (.refused, b)
  else (.done, (modifyMoney player (-int32 amount) { b with bankMoney := b.bankMoney + amount }).2)

/-- The end of `HandleMemberWithdrawMoney`. -/
def payOut (player : Guid) (amount : ℕ) (b : Bank) : Bank :=
  let updated := updateBankWithdrawValue player guildBankMaxTabs amount b
  { updated with bankMoney := updated.bankMoney - amount }

/-- `Guild::HandleMemberWithdrawMoney`: into the purse, or for repairs. -/
def handleMemberWithdrawMoney (g : Settings) (player : Guid) (money : ℕ) (repair : Bool) (b : Bank) :
    Outcome × Bank :=
  let amount := min money maxMoneyAmount
  if b.bankMoney < amount then (.refused, b)
  else
    match g.guild.getMember player with
    | none => (.refused, b)
    | some member =>
      if uint32 (memberRemainingMoney g b member) < amount then (.refused, b)
      else if repair then (.done, payOut member.guid amount b)
      else
        let paid := modifyMoney player (int32 amount) b
        if paid.1 then (.done, payOut member.guid amount paid.2) else (.refused, b)

/-! ### Texts -/

/-- `utf8truncate` to `MAX_GUILD_BANK_TAB_TEXT_LEN`. -/
def truncateText (text : String) : String := String.ofList (text.toList.take 500)

/-- `Guild::SetBankTabText`. -/
def setBankTabText (g : Settings) (tabId : ℕ) (text : String) (b : Bank) : Bank :=
  if tabId < g.tabs ∧ b.text tabId ≠ text then
    { b with text := Function.update b.text tabId (truncateText text) }
  else b

/-- `Guild::HandleSetBankTabInfo`. -/
def handleSetBankTabInfo (g : Settings) (tabId : ℕ) (name icon : String) (b : Bank) : Bank :=
  if tabId < g.tabs then { b with info := Function.update b.info tabId (name, icon) } else b

/-! ### Packets -/

/-- `Player::IsInventoryPos`. -/
def isInventoryPos (bag slot : Byte) : Bool :=
  bag = 255 ∧ slot = nullSlot ∨ bag = 255 ∧ 23 ≤ slot ∧ slot < 39 ∨ 19 ≤ bag ∧ bag < 23 ∨
    bag = 255 ∧ 86 ≤ slot ∧ slot < 150

/-- The packets that reach the bank, from a player at a guild vault. -/
inductive Packet
  /-- `HandleGuildBankSwapItems` within the bank -/
  | swapItems (player : Guid) (tabId slotId destTabId destSlotId : Byte) (splitedAmount : ℕ)
  /-- `HandleGuildBankSwapItems` with the inventory; with `autoStore` the item goes to the player -/
  | swapItemsWithInventory (player : Guid) (autoStore toChar : Bool)
      (tabId slotId playerBag playerSlotId : Byte) (splitedAmount : ℕ)
  | depositMoney (player : Guid) (amount : ℕ)
  | withdrawMoney (player : Guid) (amount : ℕ)
  /-- `HandleRepairItemOpcode` at the cost of the guild -/
  | repair (player : Guid) (cost : ℕ)
  | setTabText (player : Guid) (tabId : ℕ) (text : String)
  | updateTab (player : Guid) (tabId : ℕ) (name icon : String)

/-- The sender of a packet. -/
def Packet.player : Packet → Guid
  | .swapItems player .. | .swapItemsWithInventory player .. | .depositMoney player _
  | .withdrawMoney player _ | .repair player _ | .setTabText player .. | .updateTab player .. => player

/-- A packet of a member: what became of it, and the bank afterwards. -/
def dispatch (rules : Rules) (g : Settings) (b : Bank) : Packet → Outcome × Bank
  | .swapItems player tabId slotId destTabId destSlotId splitedAmount =>
    swapItems rules g player tabId slotId destTabId destSlotId splitedAmount b
  | .swapItemsWithInventory player autoStore toChar tabId slotId playerBag playerSlotId
      splitedAmount =>
      if autoStore then
        swapItemsWithInventory rules g player true tabId slotId 0 nullSlot 0 b
      else if ¬ isInventoryPos playerBag playerSlotId ∧
          ¬ (playerBag = 0 ∧ playerSlotId = nullSlot) then (.refused, b)
      else
        swapItemsWithInventory rules g player toChar tabId slotId playerBag playerSlotId
          splitedAmount b
  | .depositMoney player amount =>
    if amount ≠ 0 ∧ amount ≤ b.purse player then handleMemberDepositMoney player amount b
    else (.refused, b)
  | .withdrawMoney player amount =>
    if amount ≠ 0 then handleMemberWithdrawMoney g player amount false b else (.refused, b)
  | .repair player cost => handleMemberWithdrawMoney g player cost true b
  | .setTabText _ tabId text => (.done, setBankTabText g tabId text b)
  | .updateTab _ tabId name icon =>
    if name.isEmpty ∨ icon.isEmpty then (.refused, b)
    else (.done, handleSetBankTabInfo g tabId name icon b)

/-- The handlers look for the guild of the player first. -/
def handle (rules : Rules) (g : Settings) (b : Bank) (packet : Packet) : Outcome × Bank :=
  if (g.guild.getMember packet.player).isSome then dispatch rules g b packet else (.refused, b)

end IscServer.Guilds
