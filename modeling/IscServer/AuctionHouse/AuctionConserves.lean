import IscServer.AuctionHouse.AuctionWealth

/-!
# The Auction House Conserves Money and Items

One after the other: the end of an auction, a bid, the collection of deposits and a sale. Each keeps the
totals but for cuts and the deposits of auctions that end unsold, when no deposit is refunded that has not
been collected.

## Main results

* `updateAuction_conserves`, `buyOut_conserves`, `handleAuctionRemoveItem_conserves` — auctions that end.
* `bidOn_conserves` — bids.
* `updatePendingAuction_conserves` — deposits.
* `createAuction_conserves` — sales.
-/

namespace IscServer.Auctions

open List Keyed

open IscServer.Player

variable {env : Env} {w w' w'' : World} {house : AuctionHouse} {auction other : AuctionEntry}
variable {characters : Finset ℕ}

theorem Conserves.refl (hrefunds : RefundsCollected w.history) : Conserves env characters w w :=
  ⟨Nat.le_refl _, rfl, hrefunds, fun _ => rfl⟩

theorem Conserves.trans (h : Conserves env characters w w') (h' : Conserves env characters w' w'') :
    Conserves env characters w w'' := by
  refine ⟨h'.le.trans h.le, ?_, h'.refunds, fun entry => (h'.items entry).trans (h.items entry)⟩
  have hbalance := h.balance
  have hbalance' := h'.balance
  omega

/-- The deposit of the auction has been collected, or there is none. -/
def Refundable (w : World) (auction : AuctionEntry) : Prop :=
  auction.deposit = 0 ∨ .charged auction.id ∈ w.history

instance (w : World) (auction : AuctionEntry) : Decidable (Refundable w auction) :=
  inferInstanceAs (Decidable (_ ∨ _))

theorem Refundable.worth_eq (h : Refundable w auction) :
    worth w.history auction = auction.bid + auction.deposit := by
  rcases h with h | h
  · rw [worth, h]
    split_ifs <;> rfl
  · rw [worth, if_pos h]

/-! ### Auctions that end -/

/-- **An auction ends**: what the parties get is what the auction held, less the fees. -/
theorem ended_spec {money : ℕ → ℕ} {mails : List Mail} {event : Event} {fee : ℕ}
    (h : Sound env characters w) (hmem : auction ∈ w.auctionsMap house)
    (hid : other.id = auction.id) (hguid : other.itemGUIDLow = auction.itemGUIDLow)
    (hevent : ∀ id, event ≠ .charged id) (hmoney : ∀ player, money player ≤ maxMoneyAmount)
    (hfee : fees env (event :: w.history) = fees env w.history + fee)
    (hrefunds : RefundsCollected (event :: w.history))
    (hbalance : Tally.tally characters id money + (mails.map Mail.money).sum + fee =
      Tally.tally characters id w.money + worth w.history auction)
    (hitems : ∀ entry, (mails.map fun mail => entryCount entry mail.items).sum =
      w.auctionAmount entry auction) :
    Sound env characters (w.ended house other money mails event) ∧
      Conserves env characters w (w.ended house other money mails event) := by
  refine ⟨h.ended hmem hid hguid hevent hmoney, ?_⟩
  have hwealth := (@wealth_ended _ _ _ _ characters money mails) h.toListed hmem hid hevent
  refine ⟨by omega, ?_, hrefunds, fun entry => ?_⟩
  · have hhistory : (w.ended house other money mails event).history = event :: w.history := rfl
    rw [hhistory, hfee]
    omega
  · have hcount := (@itemCount_ended _ _ _ _ _ _ money mails event) h hmem hid hguid
      entry
    rw [hitems entry] at hcount
    omega

theorem entryCount_singleton (entry : ℕ) (item : Item) : entryCount entry
    [item] = amount entry item :=
  Nat.add_zero _

theorem auctionAmount_eq {item : Item} (hitem : w.getAItem auction.itemGUIDLow = some item)
    (entry : ℕ) : w.auctionAmount entry auction = amount entry item := by
  rw [World.auctionAmount, hitem]
  rfl

/-- **Expiry** of an auction in `AuctionHouseObject::Update`. -/
theorem updateAuction_conserves {now : ℕ}
    (hcut : ∀ auction, env.getAuctionCut auction ≤ auction.bid) (h : Sound env characters w)
    (hrefunds : RefundsCollected w.history) (hmem : auction ∈ w.auctionsMap house)
    (hrefund : ¬now + 60 < auction.expireTime → auction.bidder ≠ 0 → Refundable w auction) :
    Sound env characters (w.updateAuction env house now auction) ∧
      Conserves env characters w (w.updateAuction env house now auction) := by
  by_cases hlater : now + 60 < auction.expireTime
  · have hsame : w.updateAuction env house now auction = w := if_pos hlater
    rw [hsame]
    exact ⟨h, Conserves.refl hrefunds⟩
  · have hlive := mem_live.mpr ⟨house, hmem⟩
    have hfair := h.fair auction hlive
    obtain ⟨item, hitem⟩ := Option.isSome_iff_exists.mp (h.stored auction hlive)
    have hamount := auctionAmount_eq hitem
    rw [updateAuction_ended hlater hfair hitem (hcut auction)]
    by_cases hbidder : auction.bidder = 0
    · rw [if_pos hbidder]
      have hbid := hfair.bidder.mp hbidder
      refine ended_spec h hmem rfl rfl (fun _ hev => by cases hev) h.money (Nat.add_comm _ _) hrefunds ?_
        fun entry => ?_
      · rw [worth, hbid]
        simp
      · rw [hamount entry]
        simp [entryCount_singleton]
    · rw [if_neg hbidder]
      have hrefundable := hrefund hlater hbidder
      have hle := hcut auction
      refine ended_spec h hmem rfl rfl (fun _ hev => by cases hev) h.money (Nat.add_comm _ _)
        ⟨hrefundable, hrefunds⟩ ?_ fun entry => ?_
      · rw [hrefundable.worth_eq]
        simp only [map_cons, map_nil, sum_cons, sum_nil]
        omega
      · rw [hamount entry]
        simp [entryCount]

variable {player : ℕ}

/-- The old bidder gets the old bid, which a new bid of the same player takes into account. -/
theorem money_outbidMails {price : ℕ} (hfair : Fair env characters auction) (player : ℕ)
    (hle : auction.bid ≤ price) :
    ((outbidMails auction player).map Mail.money).sum + price =
      (if player = auction.bidder then price - auction.bid else price) + auction.bid := by
  rw [outbidMails]
  by_cases hsame : player = auction.bidder
  · rw [if_pos (Or.inl hsame), if_pos hsame, map_nil, sum_nil]
    omega
  · by_cases hbidder : auction.bidder = 0
    · rw [if_pos (Or.inr hbidder), if_neg hsame, hfair.bidder.mp hbidder]
      exact Nat.add_comm _ _
    · rw [if_neg (not_or.mpr ⟨hsame, hbidder⟩), if_neg hsame]
      exact Nat.add_comm _ _

theorem items_outbidMails (auction : AuctionEntry) (player entry : ℕ) :
    ((outbidMails auction player).map fun mail => entryCount entry mail.items).sum = 0 := by
  rw [outbidMails]
  split_ifs <;> rfl

/-- **Buyout** in `HandleAuctionPlaceBid`. -/
theorem buyOut_conserves {price : ℕ} (hcut : ∀ auction, env.getAuctionCut auction ≤ auction.bid)
    (h : Sound env characters w) (hrefunds : RefundsCollected w.history)
    (hmem : auction ∈ w.auctionsMap house) (hplayer : Existing env characters player)
    (hprice : price ≤ w.money player) (hbuyout : isBid price auction = false)
    (hrefund : Refundable w auction) :
    Sound env characters (w.buyOut env player house auction) ∧
      Conserves env characters w (w.buyOut env player house auction) := by
  have hlive := mem_live.mpr ⟨house, hmem⟩
  have hfair := h.fair auction hlive
  obtain ⟨item, hitem⟩ := Option.isSome_iff_exists.mp (h.stored auction hlive)
  rw [isBid, Bool.or_eq_false_iff, decide_eq_false_iff_not, decide_eq_false_iff_not] at hbuyout
  have hbid := hfair.buyout hbuyout.2
  have hmax := h.money player
  have hcost : buyoutPrice auction player ≤ w.money player := by
    rw [buyoutPrice]
    split_ifs <;> omega
  have hcuts : env.getAuctionCut (boughtOut auction player) ≤ auction.buyout :=
    hcut (boughtOut auction player)
  have htally := tally_pay hplayer.mem hcost hmax
  rw [buyOut_ended hfair hplayer hitem hcuts (by omega)]
  refine ended_spec h hmem rfl rfl (fun _ hev => by cases hev) (fun _ => pay_le hcost h.money)
    (Nat.add_comm _ _) ⟨hrefund, hrefunds⟩ ?_ fun entry => ?_
  · rw [hrefund.worth_eq]
    simp only [map_append, map_cons, map_nil, sum_append, sum_cons, sum_nil]
    have hmails := money_outbidMails hfair player hbid.le
    rw [← buyoutPrice] at hmails
    omega
  · rw [auctionAmount_eq hitem]
    rw [map_append, sum_append, items_outbidMails]
    simp [entryCount]

/-- **Cancelling** in `HandleAuctionRemoveItem`. -/
theorem handleAuctionRemoveItem_conserves {auctionId : ℕ} {creature : Option Creature}
    (h : Sound env characters w)
    (hrefunds : RefundsCollected w.history) (hplayer : Existing env characters player) :
    Sound env characters (w.handleAuctionRemoveItem env player creature auctionId) ∧
      Conserves env characters w (w.handleAuctionRemoveItem env player creature auctionId) := by
  cases hfound : w.removeItemAuction env player creature auctionId with
  | none =>
    rw [World.handleAuctionRemoveItem, hfound]
    exact ⟨h, Conserves.refl hrefunds⟩
  | some found =>
    obtain ⟨house, auction, item⟩ := found
    obtain ⟨hmem, -, -, hitem, hpay⟩ := removeItemAuction_spec hfound
    have hfair := h.fair auction (mem_live.mpr ⟨house, hmem⟩)
    rw [handleAuctionRemoveItem_ended hfair hfound]
    by_cases hbidder : auction.bidder = 0
    · rw [if_pos hbidder]
      have hbid := hfair.bidder.mp hbidder
      have hfee : fees env (.cancelled auction :: w.history) = fees env w.history +
          if .charged auction.id ∈ w.history then auction.deposit else 0 := by
        rw [fees, if_pos hbidder, Nat.zero_add, Nat.add_comm]
      refine ended_spec h hmem rfl rfl (fun _ hev => by cases hev) h.money hfee hrefunds ?_
        fun entry => ?_
      · rw [worth, hbid]
        simp
      · rw [auctionAmount_eq hitem]
        simp [entryCount_singleton]
    · rw [if_neg hbidder]
      have hcost := hpay.resolve_left hbidder
      have htally := tally_pay hplayer.mem hcost (h.money player)
      have hfee : fees env (.cancelled auction :: w.history) = fees env w.history +
          (env.getAuctionCut auction +
            if .charged auction.id ∈ w.history then auction.deposit else 0) := by
        rw [fees, if_neg hbidder, Nat.add_comm]
      refine ended_spec h hmem rfl rfl (fun _ hev => by cases hev) (fun _ => pay_le hcost h.money)
        hfee hrefunds ?_ fun entry => ?_
      · rw [worth]
        simp only [map_cons, map_nil, sum_cons, sum_nil]
        omega
      · rw [auctionAmount_eq hitem]
        simp [entryCount]

/-! ### Bids -/

/-- What a bid costs. -/
def bidPrice (auction : AuctionEntry) (player price : ℕ) : ℕ :=
  if auction.bidder = player then price - auction.bid else price

/-- The auction after a bid. -/
def bidded (auction : AuctionEntry) (player price : ℕ) : AuctionEntry :=
  let bidders := if player ∈ auction.bidders then auction.bidders else auction.bidders ++ [player]
  { auction with bidder := player, bid := price, bidders := bidders }

theorem bidOn_paid {price : ℕ} (hfair : Fair env characters auction) (hplayer : player ≠ 0) :
    w.bidOn env player price auction =
      World.write { w.pay player (bidPrice auction player price) with
        mails := w.mails ++ outbidMails auction player } (bidded auction player price) := by
  rw [World.bidOn, bidded, outbidMails, bidPrice]
  by_cases hbidder : auction.bidder = 0
  · have hne : auction.bidder ≠ player := hbidder ▸ hplayer.symm
    rw [if_pos hbidder, if_neg hne, if_pos (Or.inr hbidder), append_nil]
    rfl
  · by_cases hsame : auction.bidder = player
    · rw [if_neg hbidder, if_pos hsame, if_pos hsame, if_pos (Or.inl hsame.symm), append_nil]
      rfl
    · rw [if_neg hbidder, if_neg hsame, if_neg hsame,
        if_neg (not_or.mpr ⟨fun h => hsame h.symm, hbidder⟩),
        sendAuctionOutbiddedMail_eq (hfair.bidderExists hbidder)]
      rfl

/-- **A bid** in `HandleAuctionPlaceBid`. -/
theorem bidOn_conserves {player price : ℕ} (h : Sound env characters w)
    (hrefunds : RefundsCollected w.history) (hmem : auction ∈ w.auctionsMap house)
    (hplayer : Existing env characters player) (hprice : price ≤ w.money player)
    (hhigher : auction.bid < price) (hbid : isBid price auction = true) :
    Sound env characters (w.bidOn env player price auction) ∧
      Conserves env characters w (w.bidOn env player price auction) := by
  have hlive := mem_live.mpr ⟨house, hmem⟩
  have hfair := h.fair auction hlive
  have hmax := h.money player
  have hcost : bidPrice auction player price ≤ w.money player := by
    rw [bidPrice]
    split_ifs <;> omega
  have htally := tally_pay hplayer.mem hcost hmax
  let paid : World := { w.pay player (bidPrice auction player price) with
    mails := w.mails ++ outbidMails auction player }
  have hpays : Pays w paid := ⟨rfl, rfl, rfl, rfl, rfl, rfl, fun _ hin => hin⟩
  have hput : (paid.write (bidded auction player price)).live =
      Keyed.put AuctionEntry.id w.live (bidded auction player price) := live_write paid _
  -- the auction differs from the old one in its bid only
  have hsame : ∀ {γ : Type} (g : AuctionEntry → γ), g (bidded auction player price) = g auction →
      (paid.write (bidded auction player price)).live.map g = w.live.map g := by
    intro γ g hg
    rw [hput]
    refine map_put g fun b hb hkey => ?_
    rw [eq_of_key h.ids hb hlive hkey, hg]
  rw [bidOn_paid hfair hplayer.ne_zero]
  constructor
  · refine ⟨(@Listed.write _ auction _) (h.toListed.pays hpays) hlive rfl, fun character =>
      pay_le hcost h.money, fun stays hstays => ?_, ?_, fun stays hstays => ?_, h.charged, h.guids,
      h.entries, h.owners⟩
    · rw [hput] at hstays
      rcases mem_put_iff.mp hstays with ⟨rfl, -⟩ | ⟨hold, -⟩
      · refine ⟨?_, hfair.deposit, ?_, ?_, hfair.ownerExists, fun _ => hplayer⟩
        · exact hprice.trans hmax
        · refine iff_of_false hplayer.ne_zero ?_
          exact Nat.ne_of_gt (Nat.lt_of_le_of_lt (Nat.zero_le _) hhigher)
        · intro hbuyout
          rw [isBid, Bool.or_eq_true, decide_eq_true_eq, decide_eq_true_eq] at hbid
          exact hbid.resolve_right hbuyout
      · exact h.fair stays hold
    · have hguids := hsame AuctionEntry.itemGUIDLow rfl
      exact hguids ▸ h.items
    · rw [hput] at hstays
      rcases mem_put_iff.mp hstays with ⟨rfl, -⟩ | ⟨hold, -⟩
      · exact h.stored auction hlive
      · exact h.stored stays hold
  · have hsum := sum_put (b := bidded auction player price) h.ids hlive rfl (worth w.history)
    have hworth : worth w.history (bidded auction player price) + auction.bid =
        worth w.history auction + price := by
      have hcharged : (bidded auction player price).id = auction.id := rfl
      have hnew : (bidded auction player price).bid = price := rfl
      have hdeposit : (bidded auction player price).deposit = auction.deposit := rfl
      rw [worth, worth, hcharged, hnew, hdeposit]
      omega
    have hmails := money_outbidMails hfair player hhigher.le
    have hpaid : bidPrice auction player price =
        if player = auction.bidder then price - auction.bid else price := by
      rw [bidPrice]
      exact if_congr eq_comm rfl rfl
    rw [← hpaid] at hmails
    have hwealth : (paid.write (bidded auction player price)).wealth characters =
        w.wealth characters := by
      have hmoney : (paid.write (bidded auction player price)).money =
        (w.pay player (bidPrice auction player price)).money := rfl
      have hsent : (paid.write (bidded auction player price)).mails =
        w.mails ++ outbidMails auction player := rfl
      have hhistory : (paid.write (bidded auction player price)).history = w.history := rfl
      rw [World.wealth, World.wealth, hput, hmoney, hsent, hhistory, map_append, sum_append]
      omega
    refine ⟨Nat.le_of_eq hwealth, ?_, hrefunds, fun entry => ?_⟩
    · rw [hwealth]
      rfl
    · have hamount := hsame (w.auctionAmount entry) rfl
      have hstock : (paid.write (bidded auction player price)).auctionAmount entry =
        w.auctionAmount entry := rfl
      have hsent : (paid.write (bidded auction player price)).mails =
        w.mails ++ outbidMails auction player := rfl
      have hinventory : (paid.write (bidded auction player price)).inventory = w.inventory := rfl
      rw [World.itemCount, World.itemCount, hstock, hamount, hsent, hinventory, map_append,
        sum_append, items_outbidMails, Nat.add_zero]

/-! ### Deposits -/

variable {auctions : List AuctionEntry}

/-- A deposit that is collected is worth as much in the auction. -/
theorem sum_worth_charged {history : List Event} (hids : (auctions.map AuctionEntry.id).Nodup)
    (hmem : auction ∈ auctions) (hnew : Event.charged auction.id ∉ history) :
    (auctions.map (worth (.charged auction.id :: history))).sum =
      (auctions.map (worth history)).sum + auction.deposit := by
  have hperm := perm_cons_filter hids hmem
  have hrest : (auctions.filter fun b => !(b.id = auction.id)).map
      (worth (.charged auction.id :: history)) =
      (auctions.filter fun b => !(b.id = auction.id)).map (worth history) := by
    refine map_congr_left fun b hb => ?_
    have hne : b.id ≠ auction.id := by simpa using of_mem_filter hb
    have hiff : Event.charged b.id ∈ Event.charged auction.id :: history ↔
        Event.charged b.id ∈ history := by
      rw [mem_cons, Event.charged.injEq, or_iff_right hne]
    simp only [worth, hiff]
  have hone : worth (.charged auction.id :: history) auction =
      worth history auction + auction.deposit := by
    rw [worth, if_pos mem_cons_self, worth, if_neg hnew, Nat.add_zero]
  rw [(hperm.map _).sum_eq, (hperm.map (worth history)).sum_eq, map_cons, map_cons,
    sum_cons, sum_cons, hrest, hone]
  omega

/-- The deposits of different auctions. -/
theorem sum_worth_collected {history : List Event} {auctions collected : List AuctionEntry}
    (hids : (auctions.map AuctionEntry.id).Nodup) (hmem : ∀ auction ∈ collected, auction ∈ auctions)
    (hcollected : (collected.map AuctionEntry.id).Nodup)
    (hnew : ∀ auction ∈ collected, Event.charged auction.id ∉ history) :
    (auctions.map (worth (collected.map (fun auction => .charged auction.id) ++ history))).sum =
      (auctions.map (worth history)).sum + (collected.map AuctionEntry.deposit).sum := by
  induction collected with
  | nil => rfl
  | cons auction collected ih =>
    obtain ⟨hfirst, hmem⟩ := forall_mem_cons.mp hmem
    obtain ⟨hother, hcollected⟩ := nodup_cons.mp hcollected
    obtain ⟨hold, hnew⟩ := forall_mem_cons.mp hnew
    have hnot : Event.charged auction.id ∉
        collected.map (fun auction => Event.charged auction.id) ++ history := by
      rw [mem_append, not_or]
      refine ⟨fun hin => ?_, hold⟩
      obtain ⟨same, hsame, heq⟩ := mem_map.mp hin
      rw [Event.charged.injEq] at heq
      exact hother (heq ▸ mem_map_of_mem hsame)
    rw [map_cons, cons_append, sum_worth_charged hids hfirst hnot,
      ih hmem hcollected hnew, map_cons, sum_cons]
    omega

/-- The total deposit that the player can afford. -/
theorem affordable_spec {money : ℕ} (hmax : money ≤ maxMoneyAmount)
    (hdeposits : ∀ auction ∈ auctions, auction.deposit ≤ maxMoneyAmount) {total : ℕ}
    (htotal : total ≤ money) :
    (affordable money total auctions).1 =
        total + ((affordable money total auctions).2.1.map AuctionEntry.deposit).sum ∧
      (affordable money total auctions).1 ≤ money := by
  have hlimit : maxMoneyAmount = 2 ^ 31 - 1 := rfl
  induction auctions generalizing total with
  | nil => exact ⟨rfl, htotal⟩
  | cons auction auctions ih =>
    obtain ⟨hdeposit, hdeposits⟩ := forall_mem_cons.mp hdeposits
    have hsum : uint32 (total + auction.deposit) = total + auction.deposit := by
      rw [uint32]
      omega
    rw [affordable, hsum]
    split_ifs with hmoney
    · exact ⟨rfl, htotal⟩
    · obtain ⟨heq, hle⟩ := ih hdeposits (Nat.le_of_not_lt hmoney)
      rw [heq, map_cons, sum_cons]
      omega

theorem fees_charged (collected : List AuctionEntry) (history : List Event) :
    fees env (collected.map (fun auction => .charged auction.id) ++ history) = fees env history := by
  induction collected with
  | nil => rfl
  | cons auction collected ih => exact ih

theorem refundsCollected_charged (collected : List AuctionEntry) (history : List Event) :
    RefundsCollected (collected.map (fun auction => .charged auction.id) ++ history) ↔
      RefundsCollected history := by
  induction collected with
  | nil => rfl
  | cons auction collected ih => exact ih

/-- Money, mails and items do not change when the lists do. -/
theorem Collects.sound (h : Sound env characters w) (hc : Collects w w' player)
    (hmoney : ∀ player, w'.money player ≤ maxMoneyAmount)
    (hcharged : ∀ id, .charged id ∈ w'.history → id < w'.auctionId ∧ id ∉ w'.pendingIds) :
    Sound env characters w' := by
  have hfair := (@map_of_ageless w w') (fun auction =>
    ((auction.bid, auction.deposit, auction.bidder), auction.buyout, auction.owner,
      auction.itemGUIDLow)) (fun _ => rfl) hc.ageless
  have hsame : ∀ stays ∈ w'.live, ∃ old ∈ w.live, stays.bid = old.bid ∧ stays.deposit = old.deposit ∧
      stays.bidder = old.bidder ∧ stays.buyout = old.buyout ∧ stays.owner = old.owner ∧
      stays.itemGUIDLow = old.itemGUIDLow := by
    intro stays hstays
    have hin := mem_map_of_mem (f := fun auction : AuctionEntry =>
      ((auction.bid, auction.deposit, auction.bidder), auction.buyout, auction.owner,
        auction.itemGUIDLow)) hstays
    rw [hfair] at hin
    obtain ⟨old, hold, heq⟩ := mem_map.mp hin
    simp only [Prod.mk.injEq] at heq
    obtain ⟨⟨hbid, hdeposit, hbidder⟩, hbuyout, howner, hguid⟩ := heq
    exact ⟨old, hold, hbid.symm, hdeposit.symm, hbidder.symm, hbuyout.symm, howner.symm, hguid.symm⟩
  refine ⟨h.toListed.collects hc, hmoney, fun stays hstays => ?_, ?_, fun stays hstays => ?_, hcharged,
    fun player => hc.inventory ▸ h.guids player, fun player => hc.inventory ▸ h.entries player,
    fun pending hpending => ?_⟩
  · obtain ⟨old, hold, hbid, hdeposit, hbidder, hbuyout, howner, -⟩ := hsame stays hstays
    obtain ⟨hf1, hf2, hf3, hf4, hf5, hf6⟩ := h.fair old hold
    constructor
    · rwa [hbid]
    · rwa [hdeposit]
    · rwa [hbid, hbidder]
    · rwa [hbid, hbuyout]
    · rwa [howner]
    · rwa [hbidder]
  · rw [map_of_ageless AuctionEntry.itemGUIDLow (fun _ => rfl) hc.ageless]
    exact h.items
  · obtain ⟨old, hold, -, -, -, -, -, hguid⟩ := hsame stays hstays
    rw [hguid, World.getAItem, hc.aItems]
    exact h.stored old hold
  · obtain ⟨old, hold, hcontent⟩ := mem_map.mp (hc.pending.subset (mem_map_of_mem hpending))
    have howner : old.player = pending.player := congrArg Prod.fst hcontent
    exact howner ▸ h.owners old hold

/-- The totals when the lists change, with what has been collected. -/
theorem Collects.conserves {player : ℕ} {collected : List AuctionEntry}
    (h : Sound env characters w) (hc : Collects w w' player)
    (hrefunds : RefundsCollected w.history)
    (hhistory : w'.history = collected.map (fun auction => .charged auction.id) ++ w.history)
    (hmails : w'.mails = w.mails) (hmem : ∀ auction ∈ collected, auction ∈ w.live)
    (hcollected : (collected.map AuctionEntry.id).Nodup)
    (hnew : ∀ auction ∈ collected, Event.charged auction.id ∉ w.history)
    (hmoney : Tally.tally characters id w'.money + (collected.map AuctionEntry.deposit).sum =
      Tally.tally characters id w.money) : Conserves env characters w w' := by
  have hworth : w'.live.map (worth w'.history) = w.live.map (worth w'.history) :=
    map_of_ageless _ (fun _ => rfl) hc.ageless
  have hsum := sum_worth_collected h.ids hmem hcollected hnew
  rw [← hhistory] at hsum
  have hwealth : w'.wealth characters = w.wealth characters := by
    rw [World.wealth, World.wealth, hworth, hmails]
    omega
  refine ⟨Nat.le_of_eq hwealth, ?_, ?_, fun entry => ?_⟩
  · rw [hwealth, hhistory, fees_charged]
  · rw [hhistory]
    exact (refundsCollected_charged collected w.history).mpr hrefunds
  · have hstock : w'.auctionAmount entry = w.auctionAmount entry := by
      funext auction
      rw [World.auctionAmount, World.auctionAmount, World.getAItem, hc.aItems, World.getAItem]
    have hamount : w'.live.map (w.auctionAmount entry) = w.live.map (w.auctionAmount entry) :=
      map_of_ageless _ (fun _ => rfl) hc.ageless
    rw [World.itemCount, World.itemCount, hstock, hamount, hmails, hc.inventory]

/-- The auctions of an erased list are no longer pending. -/
theorem not_mem_pendingIds_erase (h : Listed w) {pending : PendingAuctions} {id : ℕ}
    (hfind : Keyed.find PendingAuctions.player w.pendingAuctionMap player = some pending)
    (hid : id ∈ pending.auctions) : id ∉ (w.erasePending player).pendingIds := by
  obtain rfl : pending.player = player := key_of_find hfind
  have hperm := (perm_cons_filter h.players (mem_of_find hfind)).flatMap_right
    PendingAuctions.auctions
  have hnodup := hperm.nodup_iff.mp h.pending
  exact disjoint_of_nodup_append hnodup hid

theorem pendingIds_erase_subset (w : World) (player : ℕ) :
    (w.erasePending player).pendingIds ⊆ w.pendingIds :=
  (filter_sublist.flatMap _).subset

/-- **A round of `UpdatePendingAuctions`.** -/
theorem updatePendingAuction_conserves {now player : ℕ} (h : Sound env characters w)
    (hrefunds : RefundsCollected w.history) (hround : w.updatePendingAuction now player = some w') :
    Sound env characters w' ∧ Conserves env characters w w' := by
  rcases updatePendingAuction_cases w now player with ⟨-, hnone⟩ |
    ⟨-, hsame | ⟨pending, hfind, hput | ⟨auctions, hderef, hoffline | hprocessed⟩⟩⟩
  · rw [hnone] at hround
    cases hround
  · rw [hsame] at hround
    cases hround
    exact ⟨h, Conserves.refl hrefunds⟩
  · rw [hput] at hround
    cases hround
    have hc := collects_putPending h.toListed hfind
    have hids : (w.putPending { pending with count := pending.auctions.length }).pendingIds =
        w.pendingIds := by
      have hcontent := congrArg List.flatten (congrArg (List.map Prod.snd)
        ((@map_put _ _ PendingAuctions.player w.pendingAuctionMap { pending with count := pending.auctions.length }) PendingAuctions.content
          fun b hb hkey => by
            rw [eq_of_key h.players hb (mem_of_find hfind) hkey]
            rfl))
      rw [map_map, map_map] at hcontent
      exact hcontent
    refine ⟨hc.sound h h.money fun id hid => ?_, ?_⟩
    · rw [hids]
      exact h.charged id hid
    · exact (@Collects.conserves _ _ _ _ _ []) h hc hrefunds rfl rfl (fun _ hin => by cases hin)
        nodup_nil (fun _ hin => by cases hin) rfl
  · rw [hoffline] at hround
    cases hround
    obtain ⟨-, hlive⟩ := derefAll_eq_some hderef
    have hc := (@collects_erase _ now player) h.toListed hlive
    rw [expireAll_eq] at hc ⊢
    refine ⟨hc.sound h h.money fun id hid => ?_, ?_⟩
    · obtain ⟨hlt, hnot⟩ := h.charged id hid
      exact ⟨hlt, fun hin => hnot (pendingIds_erase_subset w player hin)⟩
    · exact (@Collects.conserves _ _ _ _ _ []) h hc hrefunds rfl rfl (fun _ hin => by cases hin)
        nodup_nil (fun _ hin => by cases hin) rfl
  · rw [hprocessed] at hround
    cases hround
    obtain ⟨hids, hlive⟩ := derefAll_eq_some hderef
    have hpend := mem_of_find hfind
    have hkey : pending.player = player := key_of_find hfind
    have hc := (@collects_processed _ now player) h.toListed hlive
    have happend := affordable_append (w.money player) 0 auctions
    obtain ⟨htotal, hle⟩ := affordable_spec (h.money player)
      (fun auction hmem => (h.fair auction (hlive auction hmem)).deposit) (Nat.zero_le _)
    have hsub : ∀ auction ∈ (affordable (w.money player) 0 auctions).2.1, auction ∈ auctions :=
      fun auction hmem => happend ▸ mem_append_left _ hmem
    have hpending : ∀ auction ∈ (affordable (w.money player) 0 auctions).2.1,
        auction.id ∈ pending.auctions := by
      intro auction hmem
      rw [← hids]
      exact mem_map_of_mem (hsub auction hmem)
    rw [World.processed, expireAll_eq] at hc ⊢
    refine ⟨hc.sound h (fun other => pay_le hle h.money) fun id hid => ?_, ?_⟩
    · rcases mem_append.mp hid with hnow | hpast
      · obtain ⟨auction, hmem, heq⟩ := mem_map.mp hnow
        rw [Event.charged.injEq] at heq
        have hin := hpending auction hmem
        rw [heq] at hin
        exact ⟨h.pendingFresh id (mem_pendingIds.mpr ⟨pending, hpend, hin⟩),
          not_mem_pendingIds_erase h.toListed hfind hin⟩
      · obtain ⟨hlt, hnot⟩ := h.charged id hpast
        exact ⟨hlt, fun hin => hnot (pendingIds_erase_subset w player hin)⟩
    · refine (@Collects.conserves _ _ _ _ _ (affordable (w.money player) 0 auctions).2.1) h hc hrefunds rfl
        rfl (fun auction hmem => hlive auction (hsub auction hmem)) ?_ (fun auction hmem hin => ?_) ?_
      · have hnodup : (auctions.map AuctionEntry.id).Nodup := by
          rw [hids]
          have hall := h.pending
          rw [World.pendingIds, nodup_flatMap] at hall
          exact hall.1 pending hpend
        rw [← happend, map_append] at hnodup
        exact hnodup.of_append_left
      · exact (h.charged auction.id hin).2 (mem_pendingIds.mpr ⟨pending, hpend, hpending auction hmem⟩)
      · rw [Nat.zero_add] at htotal
        have htally := tally_pay (hkey ▸ h.owners pending hpend) hle (h.money player)
        exact htotal ▸ htally

/-! ### Sales -/

/-- The items of a sale are of one entry. -/
theorem sellItems_entry {player itemEntry : ℕ} {slots : List (ℕ × ℕ)} {items : List (Item × ℕ)}
    (hentries : ∀ item ∈ w.inventory player, item.entry ≠ 0)
    (h : w.sellItems env player itemEntry slots = some items) :
    ∃ entry, (itemEntry ≠ 0 → entry = itemEntry) ∧ ∀ sold ∈ items, sold.1.entry = entry := by
  induction slots generalizing itemEntry items with
  | nil =>
    cases h
    exact ⟨itemEntry, fun _ => rfl, fun _ hmem => by cases hmem⟩
  | cons slot slots ih =>
    obtain ⟨guid, count⟩ := slot
    rw [World.sellItems] at h
    cases hfind : Keyed.find Item.guid (w.inventory player) guid with
    | none =>
      rw [hfind] at h
      cases h
    | some item =>
      rw [hfind] at h
      dsimp only at h
      generalize htemplate : (if itemEntry = 0 then item.entry else itemEntry) = template at h
      split_ifs at h with hrejected
      simp only [Bool.or_eq_true, not_or] at hrejected
      obtain ⟨rest, hrest, rfl⟩ := Option.map_eq_some_iff.mp h
      have hentry : template = item.entry := by simpa using hrejected.2
      have hne : template ≠ 0 := hentry ▸ hentries item (mem_of_find hfind)
      obtain ⟨entry, hsame, hall⟩ := ih hrest
      refine ⟨entry, fun hzero => ?_, forall_mem_cons.mpr ⟨?_, hall⟩⟩
      · rw [hsame hne, ← htemplate, if_neg hzero]
      · rw [hsame hne, hentry]

/-- What is sold of one stack. -/
theorem entryCount_takeFromStack {inventory : List Item} {sold : Item × ℕ}
    (hguids : (inventory.map Item.guid).Nodup) (hmem : sold.1 ∈ inventory)
    (hle : sold.2 ≤ sold.1.count) (entry : ℕ) :
    entryCount entry (takeFromStack inventory sold) + (if sold.1.entry = entry then sold.2 else 0) =
      entryCount entry inventory := by
  obtain ⟨item, count⟩ := sold
  dsimp only at hmem hle ⊢
  have htake : takeFromStack inventory (item, count) = if item.count = count then
      inventory.filter fun other => !(other.guid = item.guid)
      else Keyed.put Item.guid inventory { item with count := item.count - count } := rfl
  rw [htake]
  split_ifs with hall hentry hentry
  · have hperm := ((perm_cons_filter hguids hmem).map (amount entry)).sum_eq
    rw [map_cons, sum_cons, amount, if_pos hentry] at hperm
    rw [entryCount, entryCount]
    omega
  · have hperm := ((perm_cons_filter hguids hmem).map (amount entry)).sum_eq
    rw [map_cons, sum_cons, amount, if_neg hentry] at hperm
    rw [entryCount, entryCount]
    omega
  · have hput := sum_put (b := { item with count := item.count - count }) hguids hmem rfl
      (amount entry)
    simp only [amount, if_pos hentry] at hput
    rw [entryCount, entryCount]
    omega
  · have hput := sum_put (b := { item with count := item.count - count }) hguids hmem rfl
      (amount entry)
    simp only [amount, if_neg hentry] at hput
    rw [entryCount, entryCount]
    omega

variable {inventory : List Item} {item : Item}

/-- Stacks of other guids stay as they are. -/
theorem mem_takeFromStack {sold : Item × ℕ} (hmem : item ∈ inventory)
    (hne : item.guid ≠ sold.1.guid) : item ∈ takeFromStack inventory sold := by
  rw [takeFromStack]
  split_ifs
  · exact mem_filter.mpr ⟨hmem, by simpa using hne⟩
  · exact mem_put_iff.mpr (Or.inr ⟨hmem, hne⟩)

theorem guids_takeFromStack (hguids : (inventory.map Item.guid).Nodup) (sold : Item × ℕ) :
    ((takeFromStack inventory sold).map Item.guid).Nodup := by
  rw [takeFromStack]
  split_ifs
  · exact hguids.sublist (filter_sublist.map _)
  · rwa [keys_put]

section

variable {items : List (Item × ℕ)} {inventory : List Item}
  (hguids : (inventory.map Item.guid).Nodup)
include hguids

/-- **What is sold** of all stacks. -/
theorem entryCount_foldl_takeFromStack (hmem : ∀ sold ∈ items, sold.1 ∈ inventory)
    (hcount : ∀ sold ∈ items, sold.2 ≤ sold.1.count)
    (hdistinct : (items.map fun sold => sold.1.guid).Nodup) {template : ℕ}
    (htemplate : ∀ sold ∈ items, sold.1.entry = template) (entry : ℕ) :
    entryCount entry (items.foldl takeFromStack inventory) +
      (if template = entry then (items.map Prod.snd).sum else 0) = entryCount entry inventory := by
  induction items generalizing inventory with
  | nil => simp
  | cons sold items ih =>
    obtain ⟨hfirst, hmem⟩ := forall_mem_cons.mp hmem
    obtain ⟨hle, hcount⟩ := forall_mem_cons.mp hcount
    obtain ⟨hone, htemplate⟩ := forall_mem_cons.mp htemplate
    obtain ⟨hnew, hdistinct⟩ := nodup_cons.mp hdistinct
    have hstay : ∀ other ∈ items, other.1 ∈ takeFromStack inventory sold := by
      intro other hother
      refine mem_takeFromStack (hmem other hother) fun hguid => hnew ?_
      exact mem_map.mpr ⟨other, hother, hguid⟩
    have hrest := ih (guids_takeFromStack hguids sold) hstay hcount hdistinct htemplate
    have htake := entryCount_takeFromStack hguids hfirst hle entry
    rw [foldl_cons, map_cons, sum_cons]
    split_ifs at hrest htake ⊢ <;> omega

theorem foldl_takeFromStack_spec (hentries : ∀ item ∈ inventory, item.entry ≠ 0)
    (hitems : ∀ sold ∈ items, sold.1.entry ≠ 0) :
    ((items.foldl takeFromStack inventory).map Item.guid).Nodup ∧
      ∀ item ∈ items.foldl takeFromStack inventory, item.entry ≠ 0 := by
  induction items generalizing inventory with
  | nil => exact ⟨hguids, hentries⟩
  | cons sold items ih =>
    obtain ⟨hsold, hitems⟩ := forall_mem_cons.mp hitems
    refine ih (guids_takeFromStack hguids sold) (fun item hmem => ?_) hitems
    rw [takeFromStack] at hmem
    split_ifs at hmem
    · exact hentries item (mem_of_mem_filter hmem)
    · rcases mem_put_iff.mp hmem with ⟨rfl, -⟩ | ⟨hold, -⟩
      · exact hsold
      · exact hentries item hold

end

/-- The item of the auction is all that is sold. -/
theorem auctionItem_amount {itemGuid : ℕ} {packet : SellItem} {order : SellOrder}
    (horder : Accepted env w player packet order)
    (hitem : w.auctionItem env order = ({ w with itemGuid := itemGuid }, item)) :
    item.entry = order.item.entry ∧ item.count = order.finalCount := by
  rw [World.auctionItem] at hitem
  split_ifs at hitem with hstack
  · obtain ⟨-, rfl⟩ := Prod.mk.injEq _ _ _ _ ▸ hitem
    exact ⟨rfl, hstack.2⟩
  · obtain ⟨-, rfl⟩ := Prod.mk.injEq _ _ _ _ ▸ hitem
    obtain ⟨first, hfirst, hsold⟩ := horder.first
    exact ⟨rfl, Nat.min_eq_left (hsold ▸ horder.stack first hfirst)⟩

/-- **A sale** that lists an auction. -/
theorem withAuction_conserves {player now itemGuid : ℕ} {packet : SellItem} {order : SellOrder}
    {item : Item} {after : List PendingAuctions} (h : Sound env characters w)
    (hrefunds : RefundsCollected w.history) (hplayer : Existing env characters player)
    (horder : Accepted env w player packet order)
    (hafter : PendingAdds w.pendingAuctionMap after player w.auctionId) (hle : w.itemGuid ≤ itemGuid)
    (hlt : item.guid < itemGuid) (hnew : w.getAItem item.guid = none)
    (hitem : w.auctionItem env order = ({ w with itemGuid := itemGuid }, item)) :
    Sound env characters (w.withAuction env player packet order now itemGuid item after) ∧
      Conserves env characters w (w.withAuction env player packet order now itemGuid item after) := by
  obtain ⟨w', hw'⟩ : ∃ w', w.withAuction env player packet order now itemGuid item after = w' := ⟨_, rfl⟩
  have hperm : w'.live.Perm (w.newAuction env player packet order item now :: w.live) :=
    hw' ▸ live_addAuction _ _ _
  have hlisted : Listed w' := hw' ▸ h.toListed.withAuction hafter hle hlt
  have hhistory : w'.history = w.history := hw' ▸ rfl
  have hmoney : w'.money = w.money := hw' ▸ rfl
  have hmails : w'.mails = w.mails := hw' ▸ rfl
  have hids : w'.pendingIds = after.flatMap PendingAuctions.auctions := hw' ▸ rfl
  have hpendings : w'.pendingAuctionMap = after := hw' ▸ rfl
  have hnext : w'.auctionId = w.auctionId + 1 := hw' ▸ rfl
  have hinventory : w'.inventory =
      Function.update w.inventory player (order.items.foldl takeFromStack (w.inventory player)) :=
    hw' ▸ rfl
  have hfind : ∀ guid, w'.getAItem guid = (w.getAItem guid).or (Keyed.find Item.guid [item] guid) :=
    fun guid => hw' ▸ find_append _
  rw [hw']
  have hdeposit := horder.deposit
  have hmax := h.money player
  have hold : ∀ stays ∈ w.live, w'.getAItem stays.itemGUIDLow = w.getAItem stays.itemGUIDLow := by
    intro stays hmem
    obtain ⟨found, hget⟩ := Option.isSome_iff_exists.mp (h.stored stays hmem)
    rw [hfind, hget, Option.some_or]
  have hown : w'.getAItem item.guid = some item := by
    rw [hfind, hnew, Option.none_or, find_cons, if_pos rfl]
  obtain ⟨template, -, htemplate⟩ := sellItems_entry (h.entries player) horder.looked
  have hsold : ∀ sold ∈ order.items, sold.1.entry ≠ 0 := fun sold hmem =>
    h.entries player sold.1 (horder.items.inventory sold hmem)
  have hspec := foldl_takeFromStack_spec (h.guids player) (h.entries player) hsold
  constructor
  · refine ⟨hlisted, hmoney ▸ h.money, fun stays hmem => ?_, ?_, fun stays hmem => ?_, fun id hid => ?_,
      fun other => ?_, fun other => ?_, fun pending hpending => ?_⟩
    · rcases mem_cons.mp (hperm.mem_iff.mp hmem) with rfl | hold
      · exact ⟨Nat.zero_le _, hdeposit.trans hmax, iff_of_true rfl rfl, Nat.pos_of_ne_zero, hplayer,
          fun hne => absurd rfl hne⟩
      · exact h.fair stays hold
    · refine ((hperm.map AuctionEntry.itemGUIDLow).nodup_iff).mpr ?_
      refine nodup_cons.mpr ⟨fun hin => ?_, h.items⟩
      obtain ⟨stays, hmem, hguid⟩ := mem_map.mp hin
      have hstored := h.stored stays hmem
      have hsame : stays.itemGUIDLow = item.guid := hguid
      rw [hsame, hnew] at hstored
      exact Bool.false_ne_true hstored
    · rcases mem_cons.mp (hperm.mem_iff.mp hmem) with rfl | hin
      · exact Option.isSome_of_eq_some hown
      · rw [hold stays hin]
        exact h.stored stays hin
    · obtain ⟨hfresh, hnot⟩ := h.charged id (hhistory ▸ hid)
      rw [hnext, hids]
      refine ⟨Nat.lt_succ_of_lt hfresh, fun hin => ?_⟩
      rcases mem_cons.mp (hafter.ids.mem_iff.mp hin) with rfl | hold
      · exact Nat.lt_irrefl _ hfresh
      · exact hnot hold
    · rw [hinventory, Function.update_apply]
      split_ifs
      · exact hspec.1
      · exact h.guids other
    · rw [hinventory, Function.update_apply]
      split_ifs
      · exact hspec.2
      · exact h.entries other
    · rcases hafter.owners pending (hpendings ▸ hpending) with heq | ⟨old, hold, heq⟩
      · exact heq ▸ hplayer.mem
      · exact heq ▸ h.owners old hold
  · have hworth := (hperm.map (worth w.history)).sum_eq
    have hnothing : worth w.history (w.newAuction env player packet order item now) = 0 := by
      have hnot : Event.charged w.auctionId ∉ w.history := fun hin =>
        Nat.lt_irrefl _ (h.charged _ hin).1
      have hid : (w.newAuction env player packet order item now).id = w.auctionId := rfl
      rw [worth, hid, if_neg hnot]
      rfl
    have hwealth : w'.wealth characters = w.wealth characters := by
      rw [map_cons, sum_cons, hnothing] at hworth
      rw [World.wealth, World.wealth, hhistory, hmoney, hmails]
      omega
    refine ⟨Nat.le_of_eq hwealth, ?_, hhistory ▸ hrefunds, fun entry => ?_⟩
    · rw [hwealth, hhistory]
    · obtain ⟨hentry, hcount⟩ := auctionItem_amount horder hitem
      obtain ⟨first, hfirst, hfirstItem⟩ := horder.first
      have hdistinct : (order.items.map fun sold => sold.1.guid).Nodup := by
        have hslots := congrArg (List.map Prod.fst) horder.items.slots
        rw [map_map] at hslots
        exact (congrArg List.Nodup hslots).mpr horder.nodup
      have htaken := entryCount_foldl_takeFromStack (h.guids player) horder.items.inventory
        horder.items.count hdistinct htemplate entry
      have hitemAmount : amount entry item = if template = entry then (order.items.map Prod.snd).sum
          else 0 := by
        rw [amount, hentry, hcount, ← hfirstItem, htemplate first hfirst, horder.finalCount]
      have hpurse := Tally.tally_update hplayer.mem (entryCount entry) w.inventory
        (order.items.foldl takeFromStack (w.inventory player))
      have hstock := (hperm.map (w'.auctionAmount entry)).sum_eq
      have hnewAmount : w'.auctionAmount entry (w.newAuction env player packet order item now) =
          amount entry item := auctionAmount_eq hown entry
      have hsame : w.live.map (w'.auctionAmount entry) = w.live.map (w.auctionAmount entry) := by
        refine map_congr_left fun stays hmem => ?_
        rw [World.auctionAmount, World.auctionAmount, hold stays hmem]
      rw [map_cons, sum_cons, hnewAmount, hsame] at hstock
      rw [World.itemCount, World.itemCount, hmails, hinventory]
      omega

end IscServer.Auctions
