import IscServer.AuctionHouse.AuctionHouseMgr

/-!
# The Auction House Handlers

The packets with which players sell, bid and cancel (`game/Handlers/AuctionHouseHandler.cpp`), and the
steps of the auction house.

* Each handler is cut at the point where all its checks have passed: `sellItemOrder`, `placeBidAuction`
  and `removeItemAuction` are the checks, and give what the handler then goes on with.
* `GetNPCIfCanInteractWith` and `FindPlayer` are answered by the world outside, so their results are part
  of the step. So is the clock.
-/

namespace IscServer.Auctions

open IscServer.Player

/-- `MAX_AUCTION_ITEMS`. -/
def maxAuctionItems : ℕ := 160

/-- `MIN_AUCTION_TIME`, in seconds. -/
def minAuctionTime : ℕ := 12 * 3600

/-- The auctioneer: the faction group of its faction, and that of the faction of its template when it
has spawn data and a template. -/
structure Creature where
  factionGroup : Option ℕ
  auctioneerInfo : Option (Option ℕ)
  deriving DecidableEq, Repr

/-- The body of `CMSG_AUCTION_SELL_ITEM`: the guids with their counts, the bids and the duration. -/
structure SellItem where
  slots : List (ℕ × ℕ)
  bid : ℕ
  buyout : ℕ
  etime : ℕ
  deriving DecidableEq, Repr

/-- What is put up for auction when all checks have passed. -/
structure SellOrder where
  item : Item
  items : List (Item × ℕ)
  finalCount : ℕ
  house : AuctionHouse
  houseId : ℕ
  auctionHouseEntry : ℕ
  etime : ℕ
  deposit : ℕ

variable (env : Env)

/-! ### Selling -/

/-- The loop that looks up the items, with the `itemEntry` of the first one. -/
def World.sellItems (w : World) (player : ℕ) : ℕ → List (ℕ × ℕ) → Option (List (Item × ℕ))
  | _, [] => some []
  | itemEntry, (guid, count) :: slots =>
    match Keyed.find Item.guid (w.inventory player) guid with
    | none => none
    | some item =>
      let itemEntry := if itemEntry = 0 then item.entry else itemEntry
      if (w.getAItem item.guid).isSome || !item.canBeTraded || item.isNotEmptyBag ||
          env.conjured item.entry || !(item.duration = 0) || item.count < count ||
          !(itemEntry = item.entry) then none
      else (w.sellItems player itemEntry slots).map ((item, count) :: ·)

/-- `AuctionEntry::houseId`: `none` when the auctioneer has no data or no template. -/
def auctionHouseId (creature : Creature) : Option ℕ :=
  if env.allowTwoSideInteractionAuction then some 7
  else creature.auctioneerInfo.bind (getAuctionHouseEntry env)

/-- The checks of `WorldSession::HandleAuctionSellItem`. -/
def World.sellItemOrder (w : World) (player : ℕ) (packet : SellItem) (creature : Option Creature) :
    Option SellOrder := do
  guard (packet.slots.length ≤ maxAuctionItems)
  guard (∀ slot ∈ packet.slots, slot.1 ≠ 0 ∧ slot.2 ≠ 0 ∧ slot.2 ≤ 1000)
  guard (packet.bid ≠ 0 ∧ packet.etime ≠ 0)
  guard (packet.bid ≤ maxMoneyAmount ∧ packet.buyout ≤ maxMoneyAmount)
  let creature ← creature
  let auctionHouseEntry ← getAuctionHouseEntry env creature.factionGroup
  let etime := uint32 (packet.etime * 60)
  guard (etime ∈ [1 * minAuctionTime, 2 * minAuctionTime, 4 * minAuctionTime])
  let items ← w.sellItems env player 0 packet.slots
  let finalCount := (items.map Prod.snd).sum
  guard (finalCount ≠ 0)
  guard (packet.slots.map Prod.fst).Nodup
  guard (∀ item ∈ items, finalCount ≤ env.getMaxStackCount item.1.entry)
  let first ← items.head?
  let deposit := env.getAuctionDeposit auctionHouseEntry etime first.1 finalCount
  guard (deposit ≤ w.money player)
  let houseId ← auctionHouseId env creature
  return ⟨first.1, items, finalCount, getAuctionsMap env creature.factionGroup, houseId,
    auctionHouseEntry, etime, deposit⟩

/-- `Item::CloneItem`. -/
def Item.cloneItem (item : Item) (guid count : ℕ) : Item :=
  { item with guid := guid, count := min count (env.getMaxStackCount item.entry) }

/-- The item of the auction: the only stack, when all of it is sold, else a clone. -/
def World.auctionItem (w : World) (order : SellOrder) : World × Item :=
  if order.items.length = 1 ∧ order.item.count = order.finalCount then (w, order.item)
  else ({ w with itemGuid := w.itemGuid + 1 }, order.item.cloneItem env w.itemGuid order.finalCount)

/-- What is sold of a stack leaves the inventory. -/
def takeFromStack (inventory : List Item) (sold : Item × ℕ) : List Item :=
  if sold.1.count = sold.2 then inventory.filter fun item => !(item.guid = sold.1.guid)
  else Keyed.put Item.guid inventory { sold.1 with count := sold.1.count - sold.2 }

/-- The new auction. -/
def World.newAuction (w : World) (player : ℕ) (packet : SellItem) (order : SellOrder) (item : Item)
    (now : ℕ) : AuctionEntry where
  id := w.auctionId
  houseId := order.houseId
  itemGUIDLow := item.guid
  itemEntry := item.entry
  itemCount := item.count
  owner := player
  startbid := packet.bid
  bid := 0
  buyout := packet.buyout
  expireTime := now + env.auctionTime order.etime
  bidder := 0
  deposit := order.deposit
  etime := order.etime
  bidders := []
  auctionHouseEntry := order.auctionHouseEntry

/-- The deposit becomes pending and the auction public, unless the player cannot pay all deposits. -/
def World.listAuction (w : World) (player : ℕ) (order : SellOrder) (item : Item)
    (auction : AuctionEntry) : Option World := do
  let (w, added) ← w.pendingAuctionAdd player auction
  if added then
    let w ← w.addAItem item
    let inventory := order.items.foldl takeFromStack (w.inventory player)
    return { w.addAuction order.house auction with
      inventory := Function.update w.inventory player inventory }
  else return w

/-- `WorldSession::HandleAuctionSellItem` after its checks. -/
def World.createAuction (w : World) (player : ℕ) (packet : SellItem) (order : SellOrder) (now : ℕ) :
    Option World :=
  let (made, item) := w.auctionItem env order
  let auction := w.newAuction env player packet order item now
  { made with auctionId := made.auctionId + 1 }.listAuction player order item auction

/-- `WorldSession::HandleAuctionSellItem`. -/
def World.handleAuctionSellItem (w : World) (player : ℕ) (packet : SellItem)
    (creature : Option Creature) (now : ℕ) : Option World :=
  match w.sellItemOrder env player packet creature with
  | none => some w
  | some order => w.createAuction env player packet order now

/-! ### Bidding -/

/-- The checks of `WorldSession::HandleAuctionPlaceBid`. -/
def World.placeBidAuction (w : World) (player : ℕ) (creature : Option Creature)
    (auctionId price : ℕ) (ownerFound : Bool) : Option (AuctionHouse × AuctionEntry) := do
  guard (auctionId ≠ 0 ∧ price ≠ 0)
  let creature ← creature
  let house := getAuctionsMap env creature.factionGroup
  let auction ← w.getAuction house auctionId
  guard (auction.owner ≠ player)
  guard (ownerFound = true ∨
    env.getCharacterAccountIdByGuid auction.owner ≠ env.getCharacterAccountIdByGuid player)
  guard (auction.bid < price ∧ auction.startbid ≤ price)
  guard (¬((price < auction.buyout ∨ auction.buyout = 0) ∧
    price < uint32 (auction.bid + env.getAuctionOutBid auction)))
  guard (price ≤ w.money player)
  return (house, auction)

/-- The branch for a bid. -/
def World.bidOn (w : World) (player price : ℕ) (auction : AuctionEntry) : World :=
  let paid :=
    if auction.bidder = 0 then w.pay player price
    else if auction.bidder = player then w.pay player (price - auction.bid)
    else (w.sendAuctionOutbiddedMail env auction).pay player price
  let bidders := if player ∈ auction.bidders then auction.bidders else auction.bidders ++ [player]
  paid.write { auction with bidder := player, bid := price, bidders := bidders }

/-- The branch for a buyout. -/
def World.buyOut (w : World) (player : ℕ) (house : AuctionHouse) (auction : AuctionEntry) : World :=
  let paid :=
    if player = auction.bidder then w.pay player (auction.buyout - auction.bid)
    else if auction.bidder = 0 then w.pay player auction.buyout
    else (w.pay player auction.buyout).sendAuctionOutbiddedMail env auction
  let won := { auction with bidder := player, bid := auction.buyout }
  let mailed := ((paid.sendAuctionSalePendingMail env won).sendAuctionSuccessfulMail env
    won).sendAuctionWonMail env won
  ((mailed.note (.sold won)).removeAItem won.itemGUIDLow).removeAuction house won

/-- A bid that is not a buyout. -/
def isBid (price : ℕ) (auction : AuctionEntry) : Bool := price < auction.buyout || auction.buyout = 0

/-- `WorldSession::HandleAuctionPlaceBid`. -/
def World.handleAuctionPlaceBid (w : World) (player : ℕ) (creature : Option Creature)
    (auctionId price : ℕ) (ownerFound : Bool) : World :=
  match w.placeBidAuction env player creature auctionId price ownerFound with
  | none => w
  | some (house, auction) =>
    if isBid price auction then w.bidOn env player price auction
    else w.buyOut env player house auction

/-! ### Cancelling -/

/-- The checks of `WorldSession::HandleAuctionRemoveItem`. -/
def World.removeItemAuction (w : World) (player : ℕ) (creature : Option Creature) (auctionId : ℕ) :
    Option (AuctionHouse × AuctionEntry × Item) := do
  let creature ← creature
  let house := getAuctionsMap env creature.factionGroup
  let auction ← w.getAuction house auctionId
  guard (auction.owner = player)
  let item ← w.getAItem auction.itemGUIDLow
  guard (auction.bidder = 0 ∨ env.getAuctionCut auction ≤ w.money player)
  return (house, auction, item)

/-- `WorldSession::HandleAuctionRemoveItem`. -/
def World.handleAuctionRemoveItem (w : World) (player : ℕ) (creature : Option Creature)
    (auctionId : ℕ) : World :=
  match w.removeItemAuction env player creature auctionId with
  | none => w
  | some (house, auction, item) =>
    let paid := if auction.bidder = 0 then w
      else (w.sendAuctionCancelledToBidderMail env auction).pay player (env.getAuctionCut auction)
    let mailed := paid.sendMail .canceled player 0 [item]
    ((mailed.note (.cancelled auction)).removeAItem auction.itemGUIDLow).removeAuction house auction

/-! ### Steps -/

/-- What can happen to the auction house. -/
inductive Op
  | sellItem (player : ℕ) (packet : SellItem) (creature : Option Creature) (now : ℕ)
  | placeBid (player : ℕ) (creature : Option Creature) (auctionId price : ℕ) (ownerFound : Bool)
  | removeItem (player : ℕ) (creature : Option Creature) (auctionId : ℕ)
  | update (house : AuctionHouse) (now : ℕ)
  | updatePendingAuctions (now : ℕ)
  | login (player : ℕ)
  | logout (player : ℕ)
  deriving DecidableEq, Repr

/-- The player whose packet it is. -/
def Op.player? : Op → Option ℕ
  | .sellItem player _ _ _ => some player
  | .placeBid player _ _ _ _ => some player
  | .removeItem player _ _ => some player
  | _ => none

/-- One step in a world; the packets of a player that is not connected are not there. The step has no
result when it reads or writes an auction that has been deleted. -/
def World.step (w : World) : Op → Option World
  | .sellItem player packet creature now =>
    if w.connected player then w.handleAuctionSellItem env player packet creature now else some w
  | .placeBid player creature auctionId price ownerFound =>
    if w.connected player then
      some (w.handleAuctionPlaceBid env player creature auctionId price ownerFound)
    else some w
  | .removeItem player creature auctionId =>
    if w.connected player then some (w.handleAuctionRemoveItem env player creature auctionId)
    else some w
  | .update house now => some (w.update env house now)
  | .updatePendingAuctions now => w.updatePendingAuctions now
  | .login player => some { w with connected := Function.update w.connected player true }
  | .logout player => some { w with connected := Function.update w.connected player false }

/-- One step of a run. -/
def step (w : Option World) (op : Op) : Option World := w.bind fun w => w.step env op

end IscServer.Auctions
