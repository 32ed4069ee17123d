import IscServer.AuctionHouse.AuctionHouseHandler

/-!
# The Lists of Auctions

What the operations of the auction house do to the three maps and to the pending lists.

## Main results

* `live_addAuction`, `live_removeAuction`, `live_write` — one auction comes, goes or is overwritten.
* `Pays` — what only moves money, mails and items taken out of the auction house.
* `Listed` — the invariant of the lists, and `Listed.shrink`, which keeps it when auctions and pending
  lists go.
-/

namespace IscServer.Auctions

open List Keyed

open IscServer.Player

variable {env : Env} {w w' w'' : World} {house : AuctionHouse} {auction other : AuctionEntry}

/-! ### Auctions that are live -/

/-- The auctions of the other two houses. -/
def World.others (w : World) : AuctionHouse → List AuctionEntry
  | .horde => w.auctionsMap .alliance ++ w.auctionsMap .neutral
  | .alliance => w.auctionsMap .horde ++ w.auctionsMap .neutral
  | .neutral => w.auctionsMap .horde ++ w.auctionsMap .alliance

theorem live_perm (w : World) (house : AuctionHouse) :
    w.live.Perm (w.auctionsMap house ++ w.others house) := by
  cases house with
  | horde => rw [World.live, World.others, append_assoc]
  | alliance =>
    rw [World.live, World.others, ← append_assoc]
    exact perm_append_comm.append_right _
  | neutral => exact perm_append_comm

theorem mem_live : auction ∈ w.live ↔ ∃ house, auction ∈ w.auctionsMap house := by
  constructor
  · intro h
    rw [World.live, mem_append, mem_append] at h
    rcases h with (h | h) | h
    · exact ⟨.horde, h⟩
    · exact ⟨.alliance, h⟩
    · exact ⟨.neutral, h⟩
  · rintro ⟨house, h⟩
    exact (live_perm w house).mem_iff.mpr (mem_append_left _ h)

variable {house' : AuctionHouse}

theorem mem_others (hne : house' ≠ house) (h : auction ∈ w.auctionsMap house') :
    auction ∈ w.others house := by
  cases house <;> cases house' <;>
    simp only [World.others, ne_eq, not_true_eq_false] at * <;> simp [h]

/-- The others do not see a change of one map. -/
theorem others_update (w : World) (house : AuctionHouse) (auctions : List AuctionEntry) :
    { w with auctionsMap := Function.update w.auctionsMap house auctions }.others house =
      w.others house := by
  cases house <;> rfl

/-- A new map of one house. -/
theorem live_update (w : World) (house : AuctionHouse) (auctions : List AuctionEntry) :
    { w with auctionsMap := Function.update w.auctionsMap house auctions }.live.Perm
      (auctions ++ w.others house) := by
  have h := live_perm { w with auctionsMap := Function.update w.auctionsMap house auctions } house
  rw [others_update] at h
  dsimp only at h
  rw [Function.update_self] at h
  exact h

/-- **One auction comes.** -/
theorem live_addAuction (w : World) (house : AuctionHouse) (auction : AuctionEntry) :
    (w.addAuction house auction).live.Perm (auction :: w.live) := by
  refine (live_update w house _).trans ?_
  rw [append_assoc]
  exact perm_middle.trans ((live_perm w house).symm.cons auction)

theorem nodup_auctionsMap (h : (w.live.map AuctionEntry.id).Nodup) (house : AuctionHouse) :
    ((w.auctionsMap house).map AuctionEntry.id).Nodup := by
  have hperm := ((live_perm w house).map AuctionEntry.id).nodup_iff.mp h
  rw [map_append] at hperm
  exact hperm.of_append_left

/-- **One auction goes.** -/
theorem live_removeAuction (h : (w.live.map AuctionEntry.id).Nodup)
    (hmem : auction ∈ w.auctionsMap house) (hid : other.id = auction.id) :
    w.live.Perm (auction :: (w.removeAuction house other).live) := by
  have hone := perm_cons_filter (nodup_auctionsMap h house) hmem
  have hrest := live_update w house
    ((w.auctionsMap house).filter fun entry => !(entry.id = other.id))
  refine (live_perm w house).trans ((hone.append_right _).trans ?_)
  rw [hid] at hrest
  refine List.Perm.cons auction (hrest.symm.trans ?_)
  rw [World.removeAuction, hid]

/-- **One auction is overwritten.** -/
theorem live_write (w : World) (auction : AuctionEntry) :
    (w.write auction).live = Keyed.put AuctionEntry.id w.live auction := by
  rw [World.live, World.live, put_append, put_append]
  rfl

/-- An auction is in one map only. -/
theorem house_unique (h : (w.live.map AuctionEntry.id).Nodup) (hmem : auction ∈ w.auctionsMap house)
    (hother : other ∈ w.auctionsMap house') (hid : other.id = auction.id) :
    house' = house ∧ other = auction := by
  have heq := eq_of_key h (mem_live.mpr ⟨house', hother⟩) (mem_live.mpr ⟨house, hmem⟩) hid
  refine ⟨?_, heq⟩
  by_contra hne
  have hperm := ((live_perm w house).map AuctionEntry.id).nodup_iff.mp h
  rw [map_append] at hperm
  exact disjoint_of_nodup_append hperm (mem_map_of_mem hmem)
    (mem_map.mpr ⟨other, mem_others hne hother, hid⟩)

variable {id : ℕ}

theorem getAuction_mem (h : w.getAuction house id = some auction) :
    auction ∈ w.auctionsMap house ∧ auction.id = id :=
  ⟨mem_of_find h, key_of_find h⟩

/-! ### Money and mails only -/

/-- Nothing has changed but purses, mails, notes and items taken out of the auction house. -/
structure Pays (w w' : World) : Prop where
  auctionsMap : w'.auctionsMap = w.auctionsMap
  pendingAuctionMap : w'.pendingAuctionMap = w.pendingAuctionMap
  auctionId : w'.auctionId = w.auctionId
  itemGuid : w'.itemGuid = w.itemGuid
  inventory : w'.inventory = w.inventory
  connected : w'.connected = w.connected
  aItems : w'.aItems ⊆ w.aItems

theorem Pays.refl (w : World) : Pays w w := ⟨rfl, rfl, rfl, rfl, rfl, rfl, fun _ h => h⟩

theorem Pays.trans (h : Pays w w') (h' : Pays w' w'') : Pays w w'' :=
  ⟨h'.auctionsMap.trans h.auctionsMap, h'.pendingAuctionMap.trans h.pendingAuctionMap,
    h'.auctionId.trans h.auctionId, h'.itemGuid.trans h.itemGuid, h'.inventory.trans h.inventory,
    h'.connected.trans h.connected, fun _ hmem => h.aItems (h'.aItems hmem)⟩

theorem Pays.live (h : Pays w w') : w'.live = w.live := by
  rw [World.live, World.live, h.auctionsMap]

section

variable (w : World)

theorem pays_pay (player amount : ℕ) : Pays w (w.pay player amount) :=
  ⟨rfl, rfl, rfl, rfl, rfl, rfl, fun _ h => h⟩

theorem pays_sendMail (answer : MailAuctionAnswer) (receiver money : ℕ) (items : List Item) : Pays w (w.sendMail answer receiver money items) :=
  ⟨rfl, rfl, rfl, rfl, rfl, rfl, fun _ h => h⟩

theorem pays_note (event : Event) : Pays w (w.note event) :=
  ⟨rfl, rfl, rfl, rfl, rfl, rfl, fun _ h => h⟩

theorem pays_removeAItem (id : ℕ) : Pays w (w.removeAItem id) :=
  ⟨rfl, rfl, rfl, rfl, rfl, rfl, fun _ h => mem_of_mem_filter h⟩

theorem pays_sendAuctionWonMail (auction : AuctionEntry) :
    Pays w (w.sendAuctionWonMail env auction) := by
  rw [World.sendAuctionWonMail]
  cases w.getAItem auction.itemGUIDLow with
  | none => exact Pays.refl w
  | some item =>
    split_ifs
    · exact pays_sendMail w _ _ _ _
    · exact pays_removeAItem w _

theorem pays_sendAuctionExpiredMail (auction : AuctionEntry) :
    Pays w (w.sendAuctionExpiredMail env auction) := by
  rw [World.sendAuctionExpiredMail]
  cases w.getAItem auction.itemGUIDLow with
  | none => exact Pays.refl w
  | some item =>
    split_ifs
    · exact pays_sendMail w _ _ _ _
    · exact pays_removeAItem w _

theorem pays_sendAuctionSalePendingMail (auction : AuctionEntry) :
    Pays w (w.sendAuctionSalePendingMail env auction) := by
  rw [World.sendAuctionSalePendingMail]
  split_ifs
  · exact pays_sendMail w _ _ _ _
  · exact Pays.refl w

theorem pays_sendAuctionSuccessfulMail (auction : AuctionEntry) :
    Pays w (w.sendAuctionSuccessfulMail env auction) := by
  rw [World.sendAuctionSuccessfulMail]
  split_ifs
  · exact pays_sendMail w _ _ _ _
  · exact Pays.refl w

theorem pays_sendAuctionOutbiddedMail (auction : AuctionEntry) :
    Pays w (w.sendAuctionOutbiddedMail env auction) := by
  rw [World.sendAuctionOutbiddedMail]
  split_ifs
  · exact pays_sendMail w _ _ _ _
  · exact Pays.refl w

theorem pays_sendAuctionCancelledToBidderMail (auction : AuctionEntry) :
    Pays w (w.sendAuctionCancelledToBidderMail env auction) := by
  rw [World.sendAuctionCancelledToBidderMail]
  split_ifs
  · exact pays_sendMail w _ _ _ _
  · exact Pays.refl w

/-- **A bid** moves money and overwrites the bidder, the bid and the bidders. -/
theorem bidOn_eq (player price : ℕ) (auction : AuctionEntry) :
    ∃ paid bidders, Pays w paid ∧ w.bidOn env player price auction =
      paid.write { auction with bidder := player, bid := price, bidders := bidders } := by
  refine ⟨_, _, ?_, rfl⟩
  split_ifs
  · exact pays_pay w _ _
  · exact pays_pay w _ _
  · exact (pays_sendAuctionOutbiddedMail w auction).trans (pays_pay _ _ _)

/-- **A buyout** moves money and removes the auction. -/
theorem buyOut_eq (player : ℕ) (house : AuctionHouse) (auction : AuctionEntry) :
    ∃ paid, Pays w paid ∧ w.buyOut env player house auction =
      paid.removeAuction house { auction with bidder := player, bid := auction.buyout } := by
  refine ⟨_, ?_, rfl⟩
  refine Pays.trans ?_ (pays_removeAItem _ _)
  refine Pays.trans ?_ (pays_note _ _)
  refine Pays.trans ?_ (pays_sendAuctionWonMail _ _)
  refine Pays.trans ?_ (pays_sendAuctionSuccessfulMail _ _)
  refine Pays.trans ?_ (pays_sendAuctionSalePendingMail _ _)
  split_ifs
  · exact pays_pay w _ _
  · exact pays_pay w _ _
  · exact (pays_pay w _ _).trans (pays_sendAuctionOutbiddedMail _ _)

/-- **An auction that expires** is removed when money and mails have moved. -/
theorem updateAuction_eq (now : ℕ) (hexpired : ¬now + 60 < auction.expireTime) :
    ∃ paid, Pays w paid ∧ w.updateAuction env house now auction = paid.removeAuction house auction := by
  rw [World.updateAuction, if_neg hexpired]
  refine ⟨_, ?_, rfl⟩
  refine Pays.trans ?_ (pays_removeAItem _ _)
  split_ifs
  · exact (pays_sendAuctionExpiredMail w _).trans (pays_note _ _)
  · exact ((pays_sendAuctionSuccessfulMail w _).trans (pays_sendAuctionWonMail _ _)).trans
      (pays_note _ _)

end

variable {player auctionId : ℕ} {creature : Option Creature} {item : Item}

section

variable (h : w.removeItemAuction env player creature auctionId = some (house, auction, item))
include h

/-- **A cancelled auction** is removed when money and mails have moved. -/
theorem handleAuctionRemoveItem_eq :
    ∃ paid, Pays w paid ∧
      w.handleAuctionRemoveItem env player creature auctionId = paid.removeAuction house auction := by
  rw [World.handleAuctionRemoveItem, h]
  refine ⟨_, ?_, rfl⟩
  refine Pays.trans ?_ (pays_removeAItem _ _)
  refine Pays.trans ?_ (pays_note _ _)
  refine Pays.trans ?_ (pays_sendMail _ _ _ _ _)
  split_ifs
  · exact Pays.refl w
  · exact (pays_sendAuctionCancelledToBidderMail w auction).trans (pays_pay _ _ _)

/-! ### The checks -/

omit h in
/-- What the checks of a bid give. -/
theorem placeBidAuction_spec {price : ℕ} {ownerFound : Bool}
    (h : w.placeBidAuction env player creature auctionId price ownerFound = some (house, auction)) :
    auction ∈ w.auctionsMap house ∧ auction.id = auctionId ∧ auction.owner ≠ player ∧ price ≠ 0 ∧
      auction.bid < price ∧ price ≤ w.money player := by
  simp only [World.placeBidAuction, Option.bind_eq_bind, Option.bind_eq_some_iff, Option.guard_eq_some',
    Option.pure_def, Option.some.injEq, Prod.mk.injEq, exists_const] at h
  obtain ⟨hzero, creature, -, found, hfound, howner, -, hbid, -, hmoney, hhouse, rfl⟩ := h
  obtain ⟨hmem, hid⟩ := getAuction_mem hfound
  exact ⟨hhouse ▸ hmem, hid, howner, hzero.2, hbid.1, hmoney⟩

/-- What the checks of a cancellation give. -/
theorem removeItemAuction_spec :
    auction ∈ w.auctionsMap house ∧ auction.id = auctionId ∧ auction.owner = player ∧
      w.getAItem auction.itemGUIDLow = some item ∧
      (auction.bidder = 0 ∨ env.getAuctionCut auction ≤ w.money player) := by
  simp only [World.removeItemAuction, Option.bind_eq_bind, Option.bind_eq_some_iff,
    Option.guard_eq_some', Option.pure_def, Option.some.injEq, Prod.mk.injEq, exists_const] at h
  obtain ⟨creature, -, found, hfound, howner, taken, htaken, hmoney, hhouse, rfl, rfl⟩ := h
  obtain ⟨hmem, hid⟩ := getAuction_mem hfound
  exact ⟨hhouse ▸ hmem, hid, howner, htaken, hmoney⟩

/-! ### Pending auctions -/

end

/-- The auctions of all pending lists. -/
def World.pendingIds (w : World) : List ℕ := w.pendingAuctionMap.flatMap PendingAuctions.auctions

/-- An auction has not been deleted. -/
def World.IsLive (w : World) (id : ℕ) : Prop := ∃ auction ∈ w.live, auction.id = id

instance (w : World) (id : ℕ) : Decidable (w.IsLive id) :=
  inferInstanceAs (Decidable (∃ auction ∈ w.live, auction.id = id))

theorem isLive_iff {id : ℕ} : w.IsLive id ↔ id ∈ w.live.map AuctionEntry.id := by
  rw [World.IsLive, mem_map]

variable {ids : List ℕ} {auctions : List AuctionEntry}

/-- The pointers of a list can all be followed if and only if no auction has been deleted. -/
theorem derefAll_eq_some (h : w.derefAll ids = some auctions) :
    auctions.map AuctionEntry.id = ids ∧ ∀ auction ∈ auctions, auction ∈ w.live := by
  induction ids generalizing auctions with
  | nil =>
    cases h
    exact ⟨rfl, fun _ h => by cases h⟩
  | cons id ids ih =>
    simp only [World.derefAll, mapM_cons, Option.bind_eq_bind, Option.bind_eq_some_iff,
      Option.pure_def, Option.some.injEq] at h
    obtain ⟨first, hfirst, rest, hrest, rfl⟩ := h
    obtain ⟨hids, hlive⟩ := ih hrest
    refine ⟨by rw [map_cons, hids, key_of_find hfirst], ?_⟩
    exact forall_mem_cons.mpr ⟨mem_of_find hfirst, hlive⟩

theorem isSome_deref : (w.deref id).isSome ↔ w.IsLive id := by
  rw [← Option.ne_none_iff_isSome, World.deref, ne_eq, find_eq_none_iff, World.IsLive]
  push Not
  rfl

theorem isSome_derefAll : (w.derefAll ids).isSome ↔ ∀ id ∈ ids, w.IsLive id := by
  induction ids with
  | nil => simp [World.derefAll]
  | cons id ids ih =>
    rw [forall_mem_cons, ← ih, ← isSome_deref, World.derefAll, mapM_cons, World.derefAll]
    cases w.deref id with
    | none => simp
    | some auction => cases ids.mapM w.deref <;> simp

/-- An auction apart from the time at which it expires. -/
def ageless (auction : AuctionEntry) : AuctionEntry := { auction with expireTime := 0 }

/-- Expiry does not change anything else. -/
theorem map_ageless_expireAll {now : ℕ} (hids : (w.live.map AuctionEntry.id).Nodup)
    (h : ∀ auction ∈ auctions, ageless auction ∈ w.live.map ageless) :
    (w.expireAll now auctions).live.map ageless = w.live.map ageless := by
  induction auctions generalizing w with
  | nil => rfl
  | cons auction auctions ih =>
    obtain ⟨hfirst, hrest⟩ := forall_mem_cons.mp h
    obtain ⟨stored, hstored, heq⟩ := mem_map.mp hfirst
    have hid : (ageless stored).id = (ageless auction).id := by rw [heq]
    have hwrite : (w.write { auction with expireTime := now }).live.map ageless =
        w.live.map ageless := by
      rw [live_write]
      refine map_put ageless fun b hb hkey => ?_
      rw [eq_of_key hids hb hstored (hkey.trans hid.symm)]
      exact heq
    have hkeys : (w.write { auction with expireTime := now }).live.map AuctionEntry.id =
        w.live.map AuctionEntry.id := by
      rw [live_write, keys_put]
    refine (ih ?_ ?_).trans hwrite
    · rw [hkeys]
      exact hids
    · rw [hwrite]
      exact hrest

/-- Expiry changes the maps only. -/
theorem expireAll_eq (w : World) (now : ℕ) (auctions : List AuctionEntry) :
    w.expireAll now auctions = { w with auctionsMap := (w.expireAll now auctions).auctionsMap } := by
  induction auctions generalizing w with
  | nil => rfl
  | cons auction auctions ih => exact ih _

/-! ### The invariant of the lists -/

/-- Which auction it is, and whose. -/
def ident (auction : AuctionEntry) : ℕ × ℕ := (auction.id, auction.owner)

/-- The player of a pending list and its auctions. -/
def PendingAuctions.content (pending : PendingAuctions) : ℕ × List ℕ := (pending.player, pending.auctions)

/-- **The invariant**: auctions have different ids, each is pending at most once and only for its
owner, and the counters are beyond all ids. -/
structure Listed (w : World) : Prop where
  ids : (w.live.map AuctionEntry.id).Nodup
  fresh : ∀ auction ∈ w.live, auction.id < w.auctionId
  players : (w.pendingAuctionMap.map PendingAuctions.player).Nodup
  pending : w.pendingIds.Nodup
  pendingFresh : ∀ id ∈ w.pendingIds, id < w.auctionId
  owner : ∀ pending ∈ w.pendingAuctionMap, ∀ auction ∈ w.live, auction.id ∈ pending.auctions →
    auction.owner = pending.player
  inventory : ∀ player, ∀ item ∈ w.inventory player, item.guid < w.itemGuid
  aItems : ∀ item ∈ w.aItems, item.guid < w.itemGuid

theorem mem_pendingIds :
    id ∈ w.pendingIds ↔ ∃ pending ∈ w.pendingAuctionMap, id ∈ pending.auctions := mem_flatMap

section

variable (h : Listed w)
include h

/-- Lists are kept when auctions and pending lists go. -/
theorem Listed.shrink (hlive : (w'.live.map ident).Subperm (w.live.map ident))
    (hpending : (w'.pendingAuctionMap.map PendingAuctions.content).Sublist
      (w.pendingAuctionMap.map PendingAuctions.content))
    (hauctionId : w'.auctionId = w.auctionId) (hitemGuid : w'.itemGuid = w.itemGuid)
    (hinventory : w'.inventory = w.inventory) (haItems : w'.aItems ⊆ w.aItems) : Listed w' := by
  obtain ⟨kept, hperm, hkept⟩ := hlive
  have hids : kept.map Prod.fst |>.Perm (w'.live.map AuctionEntry.id) := by
    have hmap := hperm.map Prod.fst
    rwa [map_map] at hmap
  have hold : (kept.map Prod.fst).Sublist (w.live.map AuctionEntry.id) := by
    have hmap := hkept.map Prod.fst
    rwa [map_map] at hmap
  have hplayers : (w'.pendingAuctionMap.map PendingAuctions.player).Sublist
      (w.pendingAuctionMap.map PendingAuctions.player) := by
    have hmap := hpending.map Prod.fst
    rwa [map_map, map_map] at hmap
  have hlists : w'.pendingIds.Sublist w.pendingIds := by
    have hmap := (hpending.map Prod.snd).flatten
    rwa [map_map, map_map] at hmap
  refine ⟨?_, ?_, h.players.sublist hplayers, h.pending.sublist hlists, ?_, ?_, ?_, ?_⟩
  · exact hids.nodup_iff.mp (h.ids.sublist hold)
  · intro auction hmem
    obtain ⟨old, hold, hid⟩ := mem_map.mp (hold.subset (hids.mem_iff.mpr (mem_map_of_mem hmem)))
    rw [hauctionId, ← hid]
    exact h.fresh old hold
  · intro id hid
    rw [hauctionId]
    exact h.pendingFresh id (hlists.subset hid)
  · intro pending hpend auction hmem hid
    obtain ⟨old, hold, hident⟩ :=
      mem_map.mp (hkept.subset (hperm.mem_iff.mpr (mem_map_of_mem hmem)))
    obtain ⟨list, hlist, hcontent⟩ := mem_map.mp (hpending.subset (mem_map_of_mem hpend))
    rw [ident, ident, Prod.mk.injEq] at hident
    rw [PendingAuctions.content, PendingAuctions.content, Prod.mk.injEq] at hcontent
    rw [← hident.2, ← hcontent.1]
    refine h.owner list hlist old hold ?_
    rw [hident.1, hcontent.2]
    exact hid
  · intro player item hmem
    rw [hitemGuid]
    rw [hinventory] at hmem
    exact h.inventory player item hmem
  · intro item hmem
    rw [hitemGuid]
    exact h.aItems item (haItems hmem)

theorem Listed.pays (hpays : Pays w w') : Listed w' := by
  refine h.shrink ?_ ?_ hpays.auctionId hpays.itemGuid hpays.inventory hpays.aItems
  · rw [hpays.live]
  · rw [hpays.pendingAuctionMap]

/-- An auction is overwritten by one of the same owner. -/
theorem Listed.write (hmem : auction ∈ w.live) (hident : ident other = ident auction) :
    Listed (w.write other) := by
  refine h.shrink (List.Perm.subperm (List.Perm.of_eq ?_)) (List.Sublist.refl _) rfl rfl rfl
    (fun _ hmem => hmem)
  rw [live_write]
  refine map_put ident fun b hb hkey => ?_
  have hid : other.id = auction.id := congrArg Prod.fst hident
  rw [eq_of_key h.ids hb hmem (hkey.trans hid), hident]

theorem Listed.removeAuction (hmem : auction ∈ w.auctionsMap house) (hid : other.id = auction.id) : Listed (w.removeAuction house other) := by
  refine h.shrink ?_ (List.Sublist.refl _) rfl rfl rfl (fun _ hmem => hmem)
  have hperm := (live_removeAuction h.ids hmem hid).map ident
  exact (sublist_cons_self _ _).subperm.trans hperm.symm.subperm

/-- Which auctions are live after one has been removed. -/
theorem isLive_removeAuction (hmem : auction ∈ w.auctionsMap house) (hid : other.id = auction.id) :
    (w.removeAuction house other).IsLive id ↔ w.IsLive id ∧ id ≠ auction.id := by
  have hperm := (live_removeAuction h.ids hmem hid).map AuctionEntry.id
  have hnodup := hperm.nodup_iff.mp h.ids
  rw [map_cons] at hperm hnodup
  rw [isLive_iff, isLive_iff, hperm.mem_iff, mem_cons]
  constructor
  · intro hlive
    refine ⟨Or.inr hlive, ?_⟩
    rintro rfl
    exact (nodup_cons.mp hnodup).1 hlive
  · rintro ⟨rfl | hlive, hne⟩
    · exact absurd rfl hne
    · exact hlive

end

theorem isLive_write (w : World) (auction : AuctionEntry) :
    (w.write auction).IsLive id ↔ w.IsLive id := by
  rw [isLive_iff, isLive_iff, live_write, keys_put]

theorem Pays.isLive (h : Pays w w') : w'.IsLive id ↔ w.IsLive id := by
  rw [World.IsLive, World.IsLive, h.live]

end IscServer.Auctions
