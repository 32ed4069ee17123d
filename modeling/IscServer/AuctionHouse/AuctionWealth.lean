import IscServer.Library.Tally
import IscServer.AuctionHouse.PendingDeposits

/-!
# Money and Items of the Auction House

What the characters, the mails and the live auctions hold altogether.

## Main results

* `World.wealth`, `World.itemCount` — the two totals.
* `wealth_ended`, `itemCount_ended` — what the end of an auction does to them.
* `bidOn_conserves`, `processed_conserves`, `withAuction_conserves` — a bid, the collection of deposits
  and a sale keep them.
-/

namespace IscServer.Auctions

open List

open IscServer.Player

variable {env : Env} {w w' : World} {house : AuctionHouse} {auction other : AuctionEntry}
variable {characters : Finset ℕ}

/-! ### Totals -/

/-- What an auction holds: the current bid, and its deposit when that has been collected. -/
def worth (history : List Event) (auction : AuctionEntry) : ℕ :=
  auction.bid + if .charged auction.id ∈ history then auction.deposit else 0

/-- **The money**: purses, mails, current bids and collected deposits of live auctions. -/
def World.wealth (characters : Finset ℕ) (w : World) : ℕ :=
  Tally.tally characters id w.money + (w.mails.map Mail.money).sum + (w.live.map (worth w.history)).sum

/-- The count of an item, if it is of the entry. -/
def amount (entry : ℕ) (item : Item) : ℕ := if item.entry = entry then item.count else 0

/-- The count of all items of an entry. -/
def entryCount (entry : ℕ) (items : List Item) : ℕ := (items.map (amount entry)).sum

/-- The count in the auction. -/
def World.auctionAmount (w : World) (entry : ℕ) (auction : AuctionEntry) : ℕ :=
  ((w.getAItem auction.itemGUIDLow).map (amount entry)).getD 0

/-- **The items** of an entry in inventories, live auctions and mails. -/
def World.itemCount (characters : Finset ℕ) (w : World) (entry : ℕ) : ℕ :=
  Tally.tally characters (entryCount entry) w.inventory + (w.live.map (w.auctionAmount entry)).sum +
    (w.mails.map fun mail => entryCount entry mail.items).sum

variable (env) in
/-- The cuts that were taken, and the collected deposits of auctions that ended unsold. -/
def fees : List Event → ℕ
  | [] => 0
  | .charged _ :: past => fees past
  | .sold auction :: past => env.getAuctionCut auction + fees past
  | .cancelled auction :: past => (if auction.bidder = 0 then 0 else env.getAuctionCut auction) +
      (if .charged auction.id ∈ past then auction.deposit else 0) + fees past
  | .expired auction :: past => (if .charged auction.id ∈ past then auction.deposit else 0) + fees past

/-- What was refunded as the deposit of an auction had been collected before. -/
def RefundsCollected : List Event → Prop
  | [] => True
  | .sold auction :: past =>
    (auction.deposit = 0 ∨ .charged auction.id ∈ past) ∧ RefundsCollected past
  | _ :: past => RefundsCollected past

/-! ### Sound worlds -/

/-- An existing character that is not of the auction house bot. -/
structure Existing (env : Env) (characters : Finset ℕ) (character : ℕ) : Prop where
  mem : character ∈ characters
  ne_zero : character ≠ 0
  account : env.getCharacterAccountIdByGuid character ≠ 0
  noBot : env.isBotChar character = false

variable {character : ℕ}

theorem Existing.receives (h : Existing env characters character) :
    w.receives env character = true := by
  simp [World.receives, h.account, h.noBot]

/-- The fields of an auction fit together, and those who have a part in it exist. -/
structure Fair (env : Env) (characters : Finset ℕ) (auction : AuctionEntry) : Prop where
  bid : auction.bid ≤ maxMoneyAmount
  deposit : auction.deposit ≤ maxMoneyAmount
  bidder : auction.bidder = 0 ↔ auction.bid = 0
  buyout : auction.buyout ≠ 0 → auction.bid < auction.buyout
  ownerExists : Existing env characters auction.owner
  bidderExists : auction.bidder ≠ 0 → Existing env characters auction.bidder

/-- **The invariant**: the lists are in order, every auction has its own item, and purses are within
their limit. -/
structure Sound (env : Env) (characters : Finset ℕ) (w : World) : Prop extends Listed w where
  money : ∀ player, w.money player ≤ maxMoneyAmount
  fair : ∀ auction ∈ w.live, Fair env characters auction
  items : (w.live.map AuctionEntry.itemGUIDLow).Nodup
  stored : ∀ auction ∈ w.live, (w.getAItem auction.itemGUIDLow).isSome
  charged : ∀ id, .charged id ∈ w.history → id < w.auctionId ∧ id ∉ w.pendingIds
  guids : ∀ player, ((w.inventory player).map Item.guid).Nodup
  entries : ∀ player, ∀ item ∈ w.inventory player, item.entry ≠ 0
  owners : ∀ pending ∈ w.pendingAuctionMap, pending.player ∈ characters

/-- **A step is fair to everyone**: money does not come into being, and goes only by cuts and by the
deposits of auctions that end unsold; a deposit that is refunded has been collected; items stay. -/
structure Conserves (env : Env) (characters : Finset ℕ) (w w' : World) : Prop where
  le : w'.wealth characters ≤ w.wealth characters
  balance : w'.wealth characters + fees env w'.history = w.wealth characters + fees env w.history
  refunds : RefundsCollected w'.history
  items : ∀ entry, w'.itemCount characters entry = w.itemCount characters entry

/-! ### Purses -/

variable {player amount : ℕ}

/-- Paying what one has. -/
theorem tally_pay (hplayer : player ∈ characters) (hle : amount ≤ w.money player)
    (hmax : w.money player ≤ maxMoneyAmount) :
    Tally.tally characters id (w.pay player amount).money + amount =
      Tally.tally characters id w.money := by
  have h := Tally.tally_update hplayer id w.money (modifyMoney (w.money player) (-int32 amount))
  rw [modifyMoney_neg hle hmax] at h
  rw [World.pay, modifyMoney_neg hle hmax]
  simp only [id_eq] at h ⊢
  omega

theorem pay_le (hle : amount ≤ w.money player) (hmax : ∀ player, w.money player ≤ maxMoneyAmount) :
    (w.pay player amount).money character ≤ maxMoneyAmount := by
  rw [World.pay, modifyMoney_neg hle (hmax player)]
  dsimp only
  by_cases hplayer : character = player
  · subst hplayer
    rw [Function.update_self]
    exact (Nat.sub_le _ _).trans (hmax character)
  · rw [Function.update_of_ne hplayer]
    exact hmax character

/-! ### The end of an auction -/

/-- The world when an auction has ended, with the new purses and the mails that were sent. -/
def World.ended (w : World) (house : AuctionHouse) (auction : AuctionEntry) (money : ℕ → ℕ)
    (mails : List Mail) (event : Event) : World :=
  (World.removeAItem { w with
    money := money, mails := w.mails ++ mails,
    history := event :: w.history } auction.itemGUIDLow).removeAuction house auction

theorem worth_cons {event : Event} (hevent : ∀ id, event ≠ .charged id) (history : List Event) :
    worth (event :: history) = worth history := by
  funext auction
  have hmem : Event.charged auction.id ∈ event :: history ↔ Event.charged auction.id ∈ history := by
    rw [mem_cons, or_iff_right fun h => hevent _ h.symm]
  simp only [worth, hmem]

section Ended

variable {money : ℕ → ℕ} {mails : List Mail} {event : Event}

theorem live_ended (h : Listed w) (hmem : auction ∈ w.auctionsMap house)
    (hid : other.id = auction.id) :
    w.live.Perm (auction :: (w.ended house other money mails event).live) :=
  live_removeAuction h.ids hmem hid

/-- **The money** after an auction has ended. -/
theorem wealth_ended (h : Listed w) (hmem : auction ∈ w.auctionsMap house)
    (hid : other.id = auction.id) (hevent : ∀ id, event ≠ .charged id) :
    (w.ended house other money mails event).wealth characters + worth w.history auction +
        Tally.tally characters id w.money =
      w.wealth characters + Tally.tally characters id money + (mails.map Mail.money).sum := by
  have hlive := (((@live_ended _ _ _ _ money mails event) h hmem hid).map (worth w.history)).sum_eq
  rw [map_cons, sum_cons] at hlive
  have hworth : (w.ended house other money mails event).history = event :: w.history := rfl
  have hmails : (w.ended house other money mails event).mails = w.mails ++ mails := rfl
  have hmoney : (w.ended house other money mails event).money = money := rfl
  rw [World.wealth, World.wealth, hworth, worth_cons hevent, hmails, hmoney, map_append, sum_append]
  omega

section

variable (h : Sound env characters w) (hmem : auction ∈ w.auctionsMap house)
  (hid : other.id = auction.id) (hguid : other.itemGUIDLow = auction.itemGUIDLow)
include h hmem hid hguid

/-- **The items** after an auction has ended. -/
theorem itemCount_ended (entry : ℕ) :
    (w.ended house other money mails event).itemCount characters entry + w.auctionAmount entry auction =
      w.itemCount characters entry + (mails.map fun mail => entryCount entry mail.items).sum := by
  have hperm := (@live_ended _ _ _ _ money mails event) h.toListed hmem hid
  have hlive := (hperm.map (w.auctionAmount entry)).sum_eq
  rw [map_cons, sum_cons] at hlive
  have hguids := (hperm.map AuctionEntry.itemGUIDLow).nodup_iff.mp h.items
  -- the other auctions have their own items
  have hrest : (w.ended house other money mails event).live.map
      ((w.ended house other money mails event).auctionAmount entry) =
      (w.ended house other money mails event).live.map (w.auctionAmount entry) := by
    refine map_congr_left fun stays hstays => ?_
    have hne : stays.itemGUIDLow ≠ other.itemGUIDLow := by
      rw [hguid]
      intro heq
      exact (nodup_cons.mp hguids).1 (heq ▸ mem_map_of_mem hstays)
    have hfind : (w.ended house other money mails event).getAItem stays.itemGUIDLow =
        w.getAItem stays.itemGUIDLow := Keyed.find_filter_of_ne hne
    rw [World.auctionAmount, World.auctionAmount, hfind]
  have hmails : (w.ended house other money mails event).mails = w.mails ++ mails := rfl
  have hinventory : (w.ended house other money mails event).inventory = w.inventory := rfl
  rw [World.itemCount, World.itemCount, hrest, hmails, hinventory, map_append, sum_append]
  omega

theorem Sound.ended
    (hevent : ∀ id, event ≠ .charged id) (hmoney : ∀ player, money player ≤ maxMoneyAmount) :
    Sound env characters (w.ended house other money mails event) := by
  have hperm := (@live_ended _ _ _ _ money mails event) h.toListed hmem hid
  have hguids := (hperm.map AuctionEntry.itemGUIDLow).nodup_iff.mp h.items
  obtain ⟨hnew, hguids⟩ := nodup_cons.mp hguids
  have hpays : Pays w (World.removeAItem { w with
      money := money, mails := w.mails ++ mails, history := event :: w.history } other.itemGUIDLow) :=
    ⟨rfl, rfl, rfl, rfl, rfl, rfl, fun _ hin => mem_of_mem_filter hin⟩
  refine ⟨(h.toListed.pays hpays).removeAuction hmem hid, hmoney, fun stays hstays => ?_, hguids,
    fun stays hstays => ?_, fun id hin => ?_, h.guids, h.entries, h.owners⟩
  · exact h.fair stays (hperm.mem_iff.mpr (mem_cons_of_mem _ hstays))
  · have hne : stays.itemGUIDLow ≠ other.itemGUIDLow := by
      rw [hguid]
      exact fun heq => hnew (heq ▸ mem_map_of_mem hstays)
    have hfind : (w.ended house other money mails event).getAItem stays.itemGUIDLow =
        w.getAItem stays.itemGUIDLow := Keyed.find_filter_of_ne hne
    rw [hfind]
    exact h.stored stays (hperm.mem_iff.mpr (mem_cons_of_mem _ hstays))
  · rcases mem_cons.mp hin with hnow | hpast
    · exact absurd hnow.symm (hevent id)
    · exact h.charged id hpast

end

end Ended

/-! ### The mails that end an auction -/

variable {item : Item}

theorem sendAuctionWonMail_eq (hitem : w.getAItem auction.itemGUIDLow = some item)
    (h : Existing env characters auction.bidder) :
    w.sendAuctionWonMail env auction = w.sendMail .won auction.bidder 0 [item] := by
  rw [World.sendAuctionWonMail, hitem]
  exact if_pos h.receives

theorem sendAuctionExpiredMail_eq (hitem : w.getAItem auction.itemGUIDLow = some item)
    (h : Existing env characters auction.owner) :
    w.sendAuctionExpiredMail env auction = w.sendMail .expired auction.owner 0 [item] := by
  rw [World.sendAuctionExpiredMail, hitem]
  exact if_pos h.receives

theorem sendAuctionSalePendingMail_eq (h : Existing env characters auction.owner) :
    w.sendAuctionSalePendingMail env auction = w.sendMail .salePending auction.owner 0 [] :=
  if_pos h.receives

/-- The seller gets the bid and the deposit, less the cut. -/
theorem sendAuctionSuccessfulMail_eq (h : Existing env characters auction.owner)
    (hcut : env.getAuctionCut auction ≤ auction.bid) (hbid : auction.bid ≤ maxMoneyAmount)
    (hdeposit : auction.deposit ≤ maxMoneyAmount) :
    w.sendAuctionSuccessfulMail env auction = w.sendMail .successful auction.owner
      (auction.bid + auction.deposit - env.getAuctionCut auction) [] := by
  have hmax : maxMoneyAmount = 2 ^ 31 - 1 := rfl
  have hprofit : uint32 (auction.bid + auction.deposit + 2 ^ 32 - env.getAuctionCut auction) =
      auction.bid + auction.deposit - env.getAuctionCut auction := by
    rw [uint32]
    omega
  rw [World.sendAuctionSuccessfulMail, if_pos h.receives, hprofit]

theorem sendAuctionOutbiddedMail_eq (h : Existing env characters auction.bidder) :
    w.sendAuctionOutbiddedMail env auction = w.sendMail .outbidded auction.bidder auction.bid [] :=
  if_pos h.receives

theorem sendAuctionCancelledToBidderMail_eq (h : Existing env characters auction.bidder) :
    w.sendAuctionCancelledToBidderMail env auction =
      w.sendMail .cancelledToBidder auction.bidder auction.bid [] :=
  if_pos h.receives

/-- Mails that are sent one after the other. -/
theorem ended_eq (w : World) (house : AuctionHouse) (auction : AuctionEntry) (money : ℕ → ℕ)
    (mails : List Mail) (event : Event) (w' : World)
    (h : w' = { w with money := money, mails := w.mails ++ mails }) :
    ((w'.note event).removeAItem auction.itemGUIDLow).removeAuction house auction =
      w.ended house auction money mails event := by
  rw [h]
  rfl

/-! ### Expiry -/

/-- The auction has been sold, or nobody has bid. -/
theorem updateAuction_ended {now : ℕ} (hexpired : ¬now + 60 < auction.expireTime)
    (hfair : Fair env characters auction) (hitem : w.getAItem auction.itemGUIDLow = some item)
    (hcut : env.getAuctionCut auction ≤ auction.bid) :
    w.updateAuction env house now auction =
      if auction.bidder = 0 then
        w.ended house auction w.money [⟨.expired, auction.owner, 0, [item]⟩] (.expired auction)
      else w.ended house auction w.money
        [⟨.successful, auction.owner, auction.bid + auction.deposit - env.getAuctionCut auction, []⟩,
          ⟨.won, auction.bidder, 0, [item]⟩] (.sold auction) := by
  rw [World.updateAuction, if_neg hexpired]
  by_cases hbidder : auction.bidder = 0
  · have hbid := hfair.bidder.mp hbidder
    have hunsold : (decide (auction.bidder = 0) && decide (auction.bid = 0)) = true := by
      rw [decide_eq_true hbidder, decide_eq_true hbid]
      rfl
    rw [if_pos hunsold, if_pos hbidder, sendAuctionExpiredMail_eq hitem hfair.ownerExists]
    exact ended_eq w house auction w.money _ _ _ rfl
  · have hsold : ¬(decide (auction.bidder = 0) && decide (auction.bid = 0)) = true := by
      rw [decide_eq_false hbidder]
      exact Bool.false_ne_true
    rw [if_neg hsold, if_neg hbidder,
      sendAuctionSuccessfulMail_eq hfair.ownerExists hcut hfair.bid hfair.deposit,
      sendAuctionWonMail_eq (w := w.sendMail _ _ _ _) hitem (hfair.bidderExists hbidder)]
    refine ended_eq w house auction w.money _ _ _ ?_
    rw [World.sendMail, World.sendMail, append_assoc, singleton_append]

/-! ### Buyout -/

/-- The auction as it is sold in a buyout. -/
def boughtOut (auction : AuctionEntry) (player : ℕ) : AuctionEntry :=
  { auction with bidder := player, bid := auction.buyout }

/-- What a buyout costs. -/
def buyoutPrice (auction : AuctionEntry) (player : ℕ) : ℕ :=
  if player = auction.bidder then auction.buyout - auction.bid else auction.buyout

/-- The old bidder gets the bid back. -/
def outbidMails (auction : AuctionEntry) (player : ℕ) : List Mail :=
  if player = auction.bidder ∨ auction.bidder = 0 then []
  else [⟨.outbidded, auction.bidder, auction.bid, []⟩]

theorem buyOut_ended (hfair : Fair env characters auction)
    (hplayer : Existing env characters player) (hitem : w.getAItem auction.itemGUIDLow = some item)
    (hcut : env.getAuctionCut (boughtOut auction player) ≤ auction.buyout)
    (hbuyout : auction.buyout ≤ maxMoneyAmount) :
    w.buyOut env player house auction =
      w.ended house (boughtOut auction player) (w.pay player (buyoutPrice auction player)).money
        (outbidMails auction player ++ [⟨.salePending, auction.owner, 0, []⟩,
          ⟨.successful, auction.owner,
            auction.buyout + auction.deposit - env.getAuctionCut (boughtOut auction player), []⟩,
          ⟨.won, player, 0, [item]⟩]) (.sold (boughtOut auction player)) := by
  have hmails : ∀ paid : World, paid.getAItem auction.itemGUIDLow = some item →
      ((paid.sendAuctionSalePendingMail env (boughtOut auction player)).sendAuctionSuccessfulMail env
        (boughtOut auction player)).sendAuctionWonMail env (boughtOut auction player) =
      { paid with mails := paid.mails ++ [⟨.salePending, auction.owner, 0, []⟩,
          ⟨.successful, auction.owner,
            auction.buyout + auction.deposit - env.getAuctionCut (boughtOut auction player), []⟩,
          ⟨.won, player, 0, [item]⟩] } := by
    intro paid hpaid
    rw [(@sendAuctionSalePendingMail_eq _ _ (boughtOut auction player)) hfair.ownerExists,
      (@sendAuctionSuccessfulMail_eq _ _ (boughtOut auction player)) hfair.ownerExists hcut
        hbuyout hfair.deposit,
      (@sendAuctionWonMail_eq _ ((paid.sendMail _ _ _ _).sendMail _ _ _ _) (boughtOut auction player)) hpaid hplayer]
    simp only [World.sendMail, append_assoc]
    rfl
  refine ended_eq w house (boughtOut auction player) _ _ _ _ ?_
  rw [outbidMails, buyoutPrice]
  by_cases hsame : player = auction.bidder
  · rw [if_pos hsame, if_pos hsame, if_pos (Or.inl hsame)]
    exact hmails (w.pay player (auction.buyout - auction.bid)) hitem
  · rw [if_neg hsame, if_neg hsame]
    by_cases hbidder : auction.bidder = 0
    · rw [if_pos hbidder, if_pos (Or.inr hbidder)]
      exact hmails (w.pay player auction.buyout) hitem
    · rw [if_neg hbidder, if_neg (not_or.mpr ⟨hsame, hbidder⟩),
        sendAuctionOutbiddedMail_eq (hfair.bidderExists hbidder)]
      refine (hmails ((w.pay player auction.buyout).sendMail _ _ _ _) hitem).trans ?_
      simp only [World.sendMail, World.pay, append_assoc]

/-! ### Cancelling -/

theorem handleAuctionRemoveItem_ended {auctionId : ℕ} {creature : Option Creature}
    (hfair : Fair env characters auction)
    (h : w.removeItemAuction env player creature auctionId = some (house, auction, item)) :
    w.handleAuctionRemoveItem env player creature auctionId =
      if auction.bidder = 0 then
        w.ended house auction w.money [⟨.canceled, player, 0, [item]⟩] (.cancelled auction)
      else w.ended house auction (w.pay player (env.getAuctionCut auction)).money
        [⟨.cancelledToBidder, auction.bidder, auction.bid, []⟩, ⟨.canceled, player, 0, [item]⟩]
        (.cancelled auction) := by
  rw [World.handleAuctionRemoveItem, h]
  dsimp only
  split_ifs with hbidder
  · exact ended_eq w house auction w.money _ _ _ rfl
  · rw [sendAuctionCancelledToBidderMail_eq (hfair.bidderExists hbidder)]
    refine ended_eq w house auction _ _ _ _ ?_
    simp only [World.sendMail, World.pay, append_assoc, singleton_append]

end IscServer.Auctions
