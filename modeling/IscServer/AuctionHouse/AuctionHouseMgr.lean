import IscServer.Entities.PlayerMoney
import IscServer.Library.Keyed

/-!
# The Auction House Manager

`AuctionHouseMgr` and `AuctionHouseObject` (`game/AuctionHouse/AuctionHouseMgr.cpp`): auctions, the mails
that end them, and the deposits that are collected some time after an auction has been created.

* An `AuctionEntry*` is the number of the auction. `deref` gives the object behind it, as long as it is
  in one of the three `AuctionsMap`s; `RemoveAuction` deletes it. A function that reads or writes through
  the pointer of a deleted auction has no result (`none`).
* Characters are the counters of their guids. Purses, inventories and the mails that were sent are part
  of the `World`, with the counters of `ObjectMgr` for auctions and items.
* Floating point rates are parameters of the `Env`.
* `history` is what an observer notes, latest first: deposits collected and auctions ended. Nothing in
  the source reads it.
-/

namespace IscServer.Auctions

open IscServer.Player

/-! ### Auctions, items and mails -/

/-- The three `AuctionHouseObject`s. -/
inductive AuctionHouse
  | horde
  | alliance
  | neutral
  deriving DecidableEq, Repr

/-- What the auction house reads of an `Item`. -/
structure Item where
  guid : ℕ
  entry : ℕ
  count : ℕ
  canBeTraded : Bool
  isNotEmptyBag : Bool
  duration : ℕ
  deriving DecidableEq, Repr

/-- `AuctionEntry`. -/
structure AuctionEntry where
  id : ℕ
  houseId : ℕ
  itemGUIDLow : ℕ
  itemEntry : ℕ
  itemCount : ℕ
  owner : ℕ
  startbid : ℕ
  bid : ℕ
  buyout : ℕ
  expireTime : ℕ
  bidder : ℕ
  deposit : ℕ
  etime : ℕ
  bidders : List ℕ
  auctionHouseEntry : ℕ
  deriving DecidableEq, Repr

/-- `MailAuctionAnswers`. -/
inductive MailAuctionAnswer
  | outbidded
  | won
  | successful
  | expired
  | cancelledToBidder
  | canceled
  | salePending
  deriving DecidableEq, Repr

/-- A mail of the auction house. -/
structure Mail where
  answer : MailAuctionAnswer
  receiver : ℕ
  money : ℕ
  items : List Item
  deriving DecidableEq, Repr

/-- One `AuctionPair` of `pendingAuctionMap` with its key. -/
structure PendingAuctions where
  player : ℕ
  auctions : List ℕ
  count : ℕ
  deriving DecidableEq, Repr

/-- What is noted of a run. -/
inductive Event
  | charged (id : ℕ)
  | sold (auction : AuctionEntry)
  | cancelled (auction : AuctionEntry)
  | expired (auction : AuctionEntry)
  deriving DecidableEq, Repr

/-- Characters, item templates and rates. -/
structure Env where
  getCharacterAccountIdByGuid : ℕ → ℕ
  isBotChar : ℕ → Bool
  getMaxStackCount : ℕ → ℕ
  conjured : ℕ → Bool
  allowTwoSideInteractionAuction : Bool
  auctionHouseStore : ℕ → Bool
  auctionTime : ℕ → ℕ
  getAuctionDeposit : ℕ → ℕ → Item → ℕ → ℕ
  getAuctionCut : AuctionEntry → ℕ
  getAuctionOutBid : AuctionEntry → ℕ

/-- The state of the manager and of the characters. -/
structure World where
  auctionsMap : AuctionHouse → List AuctionEntry
  pendingAuctionMap : List PendingAuctions
  aItems : List Item
  auctionId : ℕ
  itemGuid : ℕ
  money : ℕ → ℕ
  inventory : ℕ → List Item
  connected : ℕ → Bool
  mails : List Mail
  history : List Event

/-! ### The three maps -/

/-- `AuctionHouseMgr::GetAuctionsMap`, from the `FactionGroup` of the template. -/
def getAuctionsMap (env : Env) (factionGroup : Option ℕ) : AuctionHouse :=
  if env.allowTwoSideInteractionAuction then .neutral
  else match factionGroup with
    | none => .neutral
    | some group =>
      if group &&& 2 ≠ 0 then .alliance else if group &&& 4 ≠ 0 then .horde else .neutral

/-- `AuctionHouseMgr::GetAuctionHouseEntry`, the id of the entry. -/
def getAuctionHouseEntry (env : Env) (factionGroup : Option ℕ) : Option ℕ :=
  let houseid := match getAuctionsMap env factionGroup with
    | .alliance => 2
    | .horde => 6
    | .neutral => 7
  if env.auctionHouseStore houseid then some houseid else none

/-- All auctions that have not been deleted. -/
def World.live (w : World) : List AuctionEntry :=
  w.auctionsMap .horde ++ w.auctionsMap .alliance ++ w.auctionsMap .neutral

/-- The object behind an `AuctionEntry*`. -/
def World.deref (w : World) (id : ℕ) : Option AuctionEntry := Keyed.find AuctionEntry.id w.live id

/-- Overwrite the object behind an `AuctionEntry*`. -/
def World.write (w : World) (auction : AuctionEntry) : World :=
  { w with auctionsMap := fun house => Keyed.put AuctionEntry.id (w.auctionsMap house) auction }

/-- `AuctionHouseObject::GetAuction`. -/
def World.getAuction (w : World) (house : AuctionHouse) (id : ℕ) : Option AuctionEntry :=
  Keyed.find AuctionEntry.id (w.auctionsMap house) id

/-- `AuctionHouseObject::AddAuction`; the ids go up. -/
def World.addAuction (w : World) (house : AuctionHouse) (auction : AuctionEntry) : World :=
  { w with auctionsMap := Function.update w.auctionsMap house (w.auctionsMap house ++ [auction]) }

/-- `AuctionHouseObject::RemoveAuction`. -/
def World.removeAuction (w : World) (house : AuctionHouse) (auction : AuctionEntry) : World :=
  let others := (w.auctionsMap house).filter fun other => !(other.id = auction.id)
  { w with auctionsMap := Function.update w.auctionsMap house others }

/-- `AuctionHouseMgr::GetAItem`. -/
def World.getAItem (w : World) (id : ℕ) : Option Item := Keyed.find Item.guid w.aItems id

/-- `AuctionHouseMgr::AddAItem`, which asserts that the item is not there yet. -/
def World.addAItem (w : World) (item : Item) : Option World :=
  if (w.getAItem item.guid).isSome then none else some { w with aItems := w.aItems ++ [item] }

/-- `AuctionHouseMgr::RemoveAItem`. -/
def World.removeAItem (w : World) (id : ℕ) : World :=
  { w with aItems := w.aItems.filter fun item => !(item.guid = id) }

/-! ### Money and mails -/

/-- `Player::ModifyMoney(-int32(amount))`. -/
def World.pay (w : World) (player amount : ℕ) : World :=
  { w with money := Function.update w.money player (modifyMoney (w.money player) (-int32 amount)) }

/-- `MailDraft::SendMailTo` with the answer as subject. -/
def World.sendMail (w : World) (answer : MailAuctionAnswer) (receiver money : ℕ) (items : List Item) :
    World :=
  { w with mails := w.mails ++ [⟨answer, receiver, money, items⟩] }

/-- An event is noted. -/
def World.note (w : World) (event : Event) : World := { w with history := event :: w.history }

variable (env : Env)

/-- A character that can get mails of the auction house: connected or known by its account, and not a
character of the auction house bot. -/
def World.receives (w : World) (character : ℕ) : Bool :=
  (w.connected character || !(env.getCharacterAccountIdByGuid character = 0)) &&
    !env.isBotChar character

/-- `AuctionHouseMgr::SendAuctionWonMail`. -/
def World.sendAuctionWonMail (w : World) (auction : AuctionEntry) : World :=
  match w.getAItem auction.itemGUIDLow with
  | none => w
  | some item =>
    if w.receives env auction.bidder then w.sendMail .won auction.bidder 0 [item]
    else w.removeAItem auction.itemGUIDLow

/-- `AuctionHouseMgr::SendAuctionSalePendingMail`. -/
def World.sendAuctionSalePendingMail (w : World) (auction : AuctionEntry) : World :=
  if w.receives env auction.owner then w.sendMail .salePending auction.owner 0 [] else w

/-- `AuctionHouseMgr::SendAuctionSuccessfulMail`. -/
def World.sendAuctionSuccessfulMail (w : World) (auction : AuctionEntry) : World :=
  if w.receives env auction.owner then
    let profit := uint32 (auction.bid + auction.deposit + 2 ^ 32 - env.getAuctionCut auction)
    w.sendMail .successful auction.owner profit []
  else w

/-- `AuctionHouseMgr::SendAuctionExpiredMail`. -/
def World.sendAuctionExpiredMail (w : World) (auction : AuctionEntry) : World :=
  match w.getAItem auction.itemGUIDLow with
  | none => w
  | some item =>
    if w.receives env auction.owner then w.sendMail .expired auction.owner 0 [item]
    else w.removeAItem auction.itemGUIDLow

/-- `AuctionHouseMgr::SendAuctionOutbiddedMail`. -/
def World.sendAuctionOutbiddedMail (w : World) (auction : AuctionEntry) : World :=
  if w.receives env auction.bidder then w.sendMail .outbidded auction.bidder auction.bid [] else w

/-- `AuctionHouseMgr::SendAuctionCancelledToBidderMail`. -/
def World.sendAuctionCancelledToBidderMail (w : World) (auction : AuctionEntry) : World :=
  if w.receives env auction.bidder then w.sendMail .cancelledToBidder auction.bidder auction.bid []
  else w

/-! ### Deposits -/

/-- The auctions of a pending list, read one after the other. -/
def World.derefAll (w : World) (ids : List ℕ) : Option (List AuctionEntry) := ids.mapM w.deref

/-- Overwrite the `AuctionPair` of a player. -/
def World.putPending (w : World) (pending : PendingAuctions) : World :=
  { w with pendingAuctionMap := Keyed.put PendingAuctions.player w.pendingAuctionMap pending }

/-- `AuctionHouseMgr::PendingAuctionAdd`. -/
def World.pendingAuctionAdd (w : World) (player : ℕ) (aEntry : AuctionEntry) :
    Option (World × Bool) :=
  match Keyed.find PendingAuctions.player w.pendingAuctionMap player with
  | some thisAH => do
      let auctions ← w.derefAll thisAH.auctions
      let soFar := auctions.foldl (fun total auction => uint32 (total + auction.deposit)) 0
      if w.money player < uint32 (soFar + aEntry.deposit) then
        return (w, false)
      else
        return (w.putPending { thisAH with auctions := thisAH.auctions ++ [aEntry.id] }, true)
  | none =>
    return ({ w with pendingAuctionMap := w.pendingAuctionMap ++ [⟨player, [aEntry.id], 0⟩] }, true)

/-- The loop of `PendingAuctionProcess` over the auctions whose deposits the player can afford: the
total deposit, those auctions, and the others. -/
def affordable (money : ℕ) : ℕ → List AuctionEntry → ℕ × List AuctionEntry × List AuctionEntry
  | totaldeposit, [] => (totaldeposit, [], [])
  | totaldeposit, auction :: auctions =>
    if money < uint32 (totaldeposit + auction.deposit) then (totaldeposit, [], auction :: auctions)
    else
      let rest := affordable money (uint32 (totaldeposit + auction.deposit)) auctions
      (rest.1, auction :: rest.2.1, rest.2.2)

/-- Auctions without a deposit expire. -/
def World.expireAll (w : World) (now : ℕ) (auctions : List AuctionEntry) : World :=
  auctions.foldl (fun w auction => w.write { auction with expireTime := now }) w

/-- `pendingAuctionMap.erase`. -/
def World.erasePending (w : World) (player : ℕ) : World :=
  { w with pendingAuctionMap := w.pendingAuctionMap.filter fun pending => !(pending.player = player) }

/-- `AuctionHouseMgr::PendingAuctionProcess`. -/
def World.pendingAuctionProcess (w : World) (now player : ℕ) : Option World :=
  match Keyed.find PendingAuctions.player w.pendingAuctionMap player with
  | none => return w
  | some thisAH => do
      let auctions ← w.derefAll thisAH.auctions
      let (totaldeposit, collected, others) := affordable (w.money player) 0 auctions
      let w := ((w.expireAll now others).erasePending player).pay player totaldeposit
      return { w with history := collected.map (fun auction => .charged auction.id) ++ w.history }

/-- One round of the loop in `AuctionHouseMgr::UpdatePendingAuctions`. -/
def World.updatePendingAuction (w : World) (now player : ℕ) : Option World :=
  match Keyed.find PendingAuctions.player w.pendingAuctionMap player with
  | none => return w
  | some thisAH =>
    if w.connected player then
      if thisAH.auctions.length = thisAH.count then w.pendingAuctionProcess now player
      else return w.putPending { thisAH with count := thisAH.auctions.length }
    else do
      -- the deposits cannot be collected
      let auctions ← w.derefAll thisAH.auctions
      return (w.expireAll now auctions).erasePending player

/-- `AuctionHouseMgr::UpdatePendingAuctions`. -/
def World.updatePendingAuctions (w : World) (now : ℕ) : Option World :=
  (w.pendingAuctionMap.map PendingAuctions.player).foldlM (fun w player =>
    w.updatePendingAuction now player) w

/-! ### Auctions that expire -/

/-- One round of the loop in `AuctionHouseObject::Update`. -/
def World.updateAuction (house : AuctionHouse) (now : ℕ) (w : World) (auction : AuctionEntry) : World :=
  if now + 60 < auction.expireTime then w
  else
    let ended := if auction.bidder = 0 && auction.bid = 0 then
        (w.sendAuctionExpiredMail env auction).note (.expired auction)
      else ((w.sendAuctionSuccessfulMail env auction).sendAuctionWonMail env auction).note
        (.sold auction)
    (ended.removeAItem auction.itemGUIDLow).removeAuction house auction

/-- `AuctionHouseObject::Update`. -/
def World.update (w : World) (house : AuctionHouse) (now : ℕ) : World :=
  (w.auctionsMap house).foldl (World.updateAuction env house now) w

end IscServer.Auctions
