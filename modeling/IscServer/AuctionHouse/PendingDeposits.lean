import IscServer.Library.Run
import IscServer.AuctionHouse.AuctionLists

/-!
# Pending Deposits

A new auction is public at once, but its deposit is collected in a later tick, from the pointer in the
pending list of its owner. Nothing that ends an auction takes it out of that list: when a buyout, a
cancellation or the clock ends an auction first, the pointer is left behind.

## Main results

* `updatePendingAuctions_isSome`, `createAuction_isSome` — when no pointer of a deleted auction is
  followed.
* `Listed.step` — every step keeps the lists.
* `pendingLive_iff` — pending deposits refer to live auctions in a whole run exactly when no step of
  it ends an auction whose deposit is pending.
* `not_pendingLive_of_cancel` — an auction that is sold and cancelled at once.
-/

namespace IscServer.Auctions

open List Keyed

open IscServer.Player

variable {env : Env} {w w' : World} {house : AuctionHouse} {auction : AuctionEntry}

/-! ### A deposit becomes pending -/

/-- One more auction in the pending list of a player. -/
structure PendingAdds (before after : List PendingAuctions) (player id : ℕ) : Prop where
  ids : (after.flatMap PendingAuctions.auctions).Perm
    (id :: before.flatMap PendingAuctions.auctions)
  players : (before.map PendingAuctions.player).Nodup → (after.map PendingAuctions.player).Nodup
  lists : ∀ pending ∈ after, ∀ other ∈ pending.auctions, (other = id ∧ pending.player = player) ∨
    ∃ old ∈ before, other ∈ old.auctions ∧ old.player = pending.player
  owners : ∀ pending ∈ after, pending.player = player ∨
    ∃ old ∈ before, old.player = pending.player

variable {player : ℕ}

variable {before : List PendingAuctions}

/-- A new list at the end. -/
theorem pendingAdds_append (id : ℕ) (h : Keyed.find PendingAuctions.player before player = none) :
    PendingAdds before (before ++ [⟨player, [id], 0⟩]) player id := by
  rw [find_eq_none_iff] at h
  refine ⟨?_, fun hnodup => ?_, fun pending hmem other hother => ?_, fun pending hmem => ?_⟩
  · rw [flatMap_append, flatMap_singleton]
    exact perm_append_comm
  · rw [map_append, map_singleton, nodup_append]
    refine ⟨hnodup, nodup_singleton _, fun a ha b hb => ?_⟩
    obtain ⟨old, hold, rfl⟩ := mem_map.mp ha
    rw [mem_singleton.mp hb]
    exact h old hold
  · rcases mem_append.mp hmem with hold | hnew
    · exact Or.inr ⟨pending, hold, hother, rfl⟩
    · rw [mem_singleton.mp hnew] at hother ⊢
      exact Or.inl ⟨mem_singleton.mp hother, rfl⟩
  · rcases mem_append.mp hmem with hold | hnew
    · exact Or.inr ⟨pending, hold, rfl⟩
    · exact Or.inl (congrArg PendingAuctions.player (mem_singleton.mp hnew))

/-- A longer list. -/
theorem pendingAdds_put {thisAH : PendingAuctions}
    (id : ℕ) (hnodup : (before.map PendingAuctions.player).Nodup)
    (h : Keyed.find PendingAuctions.player before player = some thisAH) :
    PendingAdds before (Keyed.put PendingAuctions.player before
      { thisAH with auctions := thisAH.auctions ++ [id] }) player id := by
  have hmem := mem_of_find h
  have hkey := key_of_find h
  refine ⟨?_, fun _ => ?_, fun pending hpending other hother => ?_, fun pending hpending => ?_⟩
  · have hone := perm_cons_filter hnodup hmem
    have hnew := (@perm_cons_filter _ _ PendingAuctions.player (Keyed.put PendingAuctions.player before { thisAH with auctions := thisAH.auctions ++ [id] }) { thisAH with auctions := thisAH.auctions ++ [id] })
      (by rw [keys_put]; exact hnodup)
      (mem_put_iff.mpr (Or.inl ⟨rfl, mem_map.mpr ⟨thisAH, hmem, rfl⟩⟩))
    have hrest : (Keyed.put PendingAuctions.player before
        { thisAH with auctions := thisAH.auctions ++ [id] }).filter
          (fun b => !(b.player = thisAH.player)) =
        before.filter fun b => !(b.player = thisAH.player) := by
      rw [Keyed.put, filter_map]
      have hfilter : (before.filter ((fun b : PendingAuctions => !(b.player = thisAH.player : Bool)) ∘
          fun b => if b.player = thisAH.player then
            { thisAH with auctions := thisAH.auctions ++ [id] } else b)) =
          before.filter fun b => !(b.player = thisAH.player) := by
        refine filter_congr fun b _ => ?_
        by_cases hb : b.player = thisAH.player
        · simp [hb]
        · simp [hb]
      rw [hfilter]
      refine (map_congr_left fun b hb => ?_).trans (map_id _)
      have hne := of_mem_filter hb
      rw [if_neg (by simpa using hne)]
      rfl
    refine (hnew.flatMap_right _).trans ?_
    rw [hrest, flatMap_cons, append_assoc, singleton_append]
    refine perm_middle.trans (List.Perm.cons id ?_)
    exact (hone.flatMap_right PendingAuctions.auctions).symm
  · rw [keys_put]
    exact hnodup
  · rcases mem_put_iff.mp hpending with ⟨rfl, -⟩ | ⟨hold, -⟩
    · rcases mem_append.mp hother with hother | hother
      · exact Or.inr ⟨thisAH, hmem, hother, rfl⟩
      · exact Or.inl ⟨mem_singleton.mp hother, hkey⟩
    · exact Or.inr ⟨pending, hold, hother, rfl⟩
  · rcases mem_put_iff.mp hpending with ⟨rfl, -⟩ | ⟨hold, -⟩
    · exact Or.inl hkey
    · exact Or.inr ⟨pending, hold, rfl⟩

/-- The pointers of the pending list of a player can be followed. -/
def World.Intact (w : World) (player : ℕ) : Prop :=
  ∀ pending ∈ Keyed.find PendingAuctions.player w.pendingAuctionMap player,
    ∀ id ∈ pending.auctions, w.IsLive id

instance (w : World) (player : ℕ) : Decidable (w.Intact player) :=
  inferInstanceAs (Decidable (∀ pending ∈ Keyed.find PendingAuctions.player w.pendingAuctionMap player,
    ∀ id ∈ pending.auctions, w.IsLive id))

theorem pendingAuctionAdd_isSome {aEntry : AuctionEntry} :
    (w.pendingAuctionAdd player aEntry).isSome ↔ w.Intact player := by
  rw [World.pendingAuctionAdd, World.Intact]
  cases hfind : Keyed.find PendingAuctions.player w.pendingAuctionMap player with
  | none => simp
  | some thisAH =>
    simp only [Option.mem_def, Option.some.injEq, forall_eq', ← isSome_derefAll]
    cases w.derefAll thisAH.auctions with
    | none => simp
    | some auctions =>
      rw [Option.bind_eq_bind, Option.bind_some]
      split_ifs <;> simp

/-- **`PendingAuctionAdd`** changes nothing, or makes the deposit pending. -/
theorem pendingAuctionAdd_cases {aEntry : AuctionEntry} {added : Bool}
    (hplayers : (w.pendingAuctionMap.map PendingAuctions.player).Nodup)
    (h : w.pendingAuctionAdd player aEntry = some (w', added)) :
    (added = false ∧ w' = w) ∨ (added = true ∧ ∃ after,
      PendingAdds w.pendingAuctionMap after player aEntry.id ∧
      w' = { w with pendingAuctionMap := after }) := by
  rw [World.pendingAuctionAdd] at h
  cases hfind : Keyed.find PendingAuctions.player w.pendingAuctionMap player with
  | none =>
    rw [hfind] at h
    cases h
    exact Or.inr ⟨rfl, _, pendingAdds_append aEntry.id hfind, rfl⟩
  | some thisAH =>
    rw [hfind] at h
    simp only [Option.bind_eq_bind, Option.bind_eq_some_iff] at h
    obtain ⟨auctions, -, h⟩ := h
    split_ifs at h
    · cases h
      exact Or.inl ⟨rfl, rfl⟩
    · cases h
      exact Or.inr ⟨rfl, _, pendingAdds_put aEntry.id hplayers hfind, rfl⟩

/-! ### Selling -/

/-- What the loop over the slots has looked up. -/
structure SellItems (w : World) (player : ℕ) (slots : List (ℕ × ℕ)) (items : List (Item × ℕ)) :
    Prop where
  slots : items.map (fun sold => (sold.1.guid, sold.2)) = slots
  inventory : ∀ sold ∈ items, sold.1 ∈ w.inventory player
  aItems : ∀ sold ∈ items, w.getAItem sold.1.guid = none
  count : ∀ sold ∈ items, sold.2 ≤ sold.1.count

theorem sellItems_spec {player itemEntry : ℕ} {slots : List (ℕ × ℕ)} {items : List (Item × ℕ)}
    (h : w.sellItems env player itemEntry slots = some items) : SellItems w player slots items := by
  induction slots generalizing itemEntry items with
  | nil =>
    cases h
    exact ⟨rfl, fun _ h => (by cases h), fun _ h => (by cases h), fun _ h => (by cases h)⟩
  | cons slot slots ih =>
    obtain ⟨guid, count⟩ := slot
    rw [World.sellItems] at h
    cases hfind : Keyed.find Item.guid (w.inventory player) guid with
    | none =>
      rw [hfind] at h
      cases h
    | some item =>
      rw [hfind] at h
      dsimp only at h
      generalize (if itemEntry = 0 then item.entry else itemEntry) = template at h
      split_ifs at h with hrejected
      simp only [Bool.or_eq_true, not_or, decide_eq_true_eq] at hrejected
      obtain ⟨rest, hrest, rfl⟩ := Option.map_eq_some_iff.mp h
      obtain ⟨hslots, hinventory, haItems, hcount⟩ := ih hrest
      refine ⟨?_, ?_, ?_, ?_⟩
      · rw [map_cons, hslots, key_of_find hfind]
      · exact forall_mem_cons.mpr ⟨mem_of_find hfind, hinventory⟩
      · refine forall_mem_cons.mpr ⟨?_, haItems⟩
        simpa using hrejected.1.1.1.1.1.1
      · exact forall_mem_cons.mpr ⟨Nat.le_of_not_lt hrejected.1.2, hcount⟩

/-- What the checks of a sale give. -/
structure Accepted (env : Env) (w : World) (player : ℕ) (packet : SellItem) (order : SellOrder) :
    Prop where
  items : SellItems w player packet.slots order.items
  looked : w.sellItems env player 0 packet.slots = some order.items
  first : ∃ sold ∈ order.items, sold.1 = order.item
  finalCount : order.finalCount = (order.items.map Prod.snd).sum
  nodup : (packet.slots.map Prod.fst).Nodup
  stack : ∀ sold ∈ order.items, order.finalCount ≤ env.getMaxStackCount sold.1.entry
  bid : packet.bid ≠ 0 ∧ packet.bid ≤ maxMoneyAmount ∧ packet.buyout ≤ maxMoneyAmount
  deposit : order.deposit ≤ w.money player

theorem sellItemOrder_spec {packet : SellItem} {creature : Option Creature}
    {order : SellOrder} (h : w.sellItemOrder env player packet creature = some order) :
    Accepted env w player packet order := by
  simp only [World.sellItemOrder, Option.bind_eq_bind, Option.bind_eq_some_iff,
    Option.guard_eq_some', Option.pure_def, Option.some.injEq, exists_const] at h
  obtain ⟨-, -, hbid, hmax, creature, -, auctionHouseEntry, -, -, items, hitems, -, hnodup, hstack,
    first, hfirst, hdeposit, houseId, -, rfl⟩ := h
  exact ⟨sellItems_spec hitems, hitems, ⟨first, mem_of_mem_head? hfirst, rfl⟩, rfl, hnodup,
    hstack, ⟨hbid.1, hmax.1, hmax.2⟩, hdeposit⟩

/-- The item of the auction is not in the auction house yet. -/
theorem auctionItem_spec {packet : SellItem} {order : SellOrder} (h : Listed w)
    (horder : Accepted env w player packet order) :
    ∃ itemGuid item, w.auctionItem env order = ({ w with itemGuid := itemGuid }, item) ∧
      w.itemGuid ≤ itemGuid ∧ w.getAItem item.guid = none ∧ item.guid < itemGuid := by
  obtain ⟨first, hfirst, hsold⟩ := horder.first
  rw [World.auctionItem]
  split_ifs with hstack
  · refine ⟨w.itemGuid, order.item, rfl, Nat.le_refl _, ?_, ?_⟩
    · exact hsold ▸ horder.items.aItems first hfirst
    · exact hsold ▸ h.inventory player first.1 (horder.items.inventory first hfirst)
  · refine ⟨w.itemGuid + 1, _, rfl, Nat.le_succ _, ?_, Nat.lt_succ_self _⟩
    exact find_eq_none_iff.mpr fun other hother => Nat.ne_of_lt (h.aItems other hother)

/-- The auction is listed when no pointer in the pending list of the player is left behind and the
player can pay the deposits. -/
theorem listAuction_cases {order : SellOrder} {item : Item} {auction : AuctionEntry}
    (hplayers : (w.pendingAuctionMap.map PendingAuctions.player).Nodup)
    (hnew : w.getAItem item.guid = none) :
    (¬w.Intact player ∧ w.listAuction player order item auction = none) ∨
    (w.Intact player ∧ w.listAuction player order item auction = some w) ∨
    (w.Intact player ∧ ∃ after, PendingAdds w.pendingAuctionMap after player auction.id ∧
      w.listAuction player order item auction =
        some { ({ w with pendingAuctionMap := after, aItems := w.aItems ++ [item] } :
            World).addAuction order.house auction with
          inventory := Function.update w.inventory player
            (order.items.foldl takeFromStack (w.inventory player)) }) := by
  have hintact := (@pendingAuctionAdd_isSome w player auction)
  rw [World.listAuction]
  cases hadd : w.pendingAuctionAdd player auction with
  | none =>
    rw [hadd] at hintact
    exact Or.inl ⟨fun h => Bool.false_ne_true (hintact.mpr h), rfl⟩
  | some result =>
    rw [hadd] at hintact
    have hsome := hintact.mp rfl
    obtain ⟨pend, added⟩ := result
    rcases pendingAuctionAdd_cases hplayers hadd with ⟨rfl, rfl⟩ | ⟨rfl, after, hafter, rfl⟩
    · exact Or.inr (Or.inl ⟨hsome, rfl⟩)
    · refine Or.inr (Or.inr ⟨hsome, after, hafter, ?_⟩)
      have hstore : World.addAItem { w with pendingAuctionMap := after } item =
          some { w with pendingAuctionMap := after, aItems := w.aItems ++ [item] } := by
        have hnone : World.getAItem { w with pendingAuctionMap := after } item.guid = none := hnew
        rw [World.addAItem, hnone]
        rfl
      rw [Option.bind_eq_bind, Option.bind_some]
      dsimp only
      rw [if_pos rfl, hstore]
      rfl

/-- The world with a new auction. -/
def World.withAuction (w : World) (env : Env) (player : ℕ) (packet : SellItem) (order : SellOrder)
    (now itemGuid : ℕ) (item : Item) (after : List PendingAuctions) : World :=
  { ({ w with
      auctionId := w.auctionId + 1, itemGuid := itemGuid, pendingAuctionMap := after,
      aItems := w.aItems ++ [item] } : World).addAuction order.house
        (w.newAuction env player packet order item now) with
    inventory := Function.update w.inventory player
      (order.items.foldl takeFromStack (w.inventory player)) }

/-- **A sale** does nothing, uses the ids up, or lists a new auction, when no pointer in the pending
list of the player is left behind. -/
theorem createAuction_cases {player now : ℕ} {packet : SellItem} {order : SellOrder} (h : Listed w)
    (horder : Accepted env w player packet order) :
    (¬w.Intact player ∧ w.createAuction env player packet order now = none) ∨
    (w.Intact player ∧ ∃ itemGuid item, w.itemGuid ≤ itemGuid ∧ item.guid < itemGuid ∧
      w.getAItem item.guid = none ∧
      w.auctionItem env order = ({ w with itemGuid := itemGuid }, item) ∧
      (w.createAuction env player packet order now =
        some { w with auctionId := w.auctionId + 1, itemGuid := itemGuid } ∨
      ∃ after, PendingAdds w.pendingAuctionMap after player w.auctionId ∧
        w.createAuction env player packet order now =
          some (w.withAuction env player packet order now itemGuid item after))) := by
  obtain ⟨itemGuid, item, hitem, hle, hnew, hlt⟩ := auctionItem_spec h horder
  rw [World.createAuction, hitem]
  rcases (@listAuction_cases { w with auctionId := w.auctionId + 1, itemGuid := itemGuid } player order item (w.newAuction env player packet order item now)) h.players hnew with
    ⟨hdead, hnone⟩ | ⟨hintact, hsame⟩ | ⟨hintact, after, hafter, hlisted⟩
  · exact Or.inl ⟨hdead, hnone⟩
  · exact Or.inr ⟨hintact, itemGuid, item, hle, hlt, hnew, rfl, Or.inl hsame⟩
  · exact Or.inr ⟨hintact, itemGuid, item, hle, hlt, hnew, rfl, Or.inr ⟨after, hafter, hlisted⟩⟩

/-! ### Collecting -/

/-- The pending list is processed in this tick: its owner is offline, or has not added to it since the
last one. -/
def World.Due (w : World) (pending : PendingAuctions) : Prop :=
  w.connected pending.player = true → pending.auctions.length = pending.count

instance (w : World) (pending : PendingAuctions) : Decidable (w.Due pending) :=
  inferInstanceAs (Decidable (_ → _))

/-- The pointers that are followed in the round of a player can be followed. -/
def World.RoundIntact (w : World) (player : ℕ) : Prop :=
  ∀ pending ∈ Keyed.find PendingAuctions.player w.pendingAuctionMap player,
    w.Due pending → ∀ id ∈ pending.auctions, w.IsLive id

/-- What `PendingAuctionProcess` leaves, when it has read the auctions of the list. -/
def World.processed (w : World) (now player : ℕ) (auctions : List AuctionEntry) : World :=
  let result := affordable (w.money player) 0 auctions
  let w := ((w.expireAll now result.2.2).erasePending player).pay player result.1
  { w with history := result.2.1.map (fun auction => .charged auction.id) ++ w.history }

/-- **A round of `UpdatePendingAuctions`**: nothing is pending, a pointer has been left behind, the list
has grown since the last tick, its owner is offline, or the deposits are collected. -/
theorem updatePendingAuction_cases (w : World) (now player : ℕ) :
    (¬w.RoundIntact player ∧ w.updatePendingAuction now player = none) ∨
    (w.RoundIntact player ∧
      (w.updatePendingAuction now player = some w ∨
      ∃ pending, Keyed.find PendingAuctions.player w.pendingAuctionMap player = some pending ∧
        (w.updatePendingAuction now player =
          some (w.putPending { pending with count := pending.auctions.length }) ∨
        ∃ auctions, w.derefAll pending.auctions = some auctions ∧
          (w.updatePendingAuction now player =
            some ((w.expireAll now auctions).erasePending player) ∨
          w.updatePendingAuction now player = some (w.processed now player auctions))))) := by
  rw [World.updatePendingAuction, World.RoundIntact]
  cases hfind : Keyed.find PendingAuctions.player w.pendingAuctionMap player with
  | none => exact Or.inr ⟨fun _ h => (by cases h), Or.inl rfl⟩
  | some pending =>
    obtain rfl : pending.player = player := key_of_find hfind
    simp only [Option.mem_def, Option.some.injEq, forall_eq']
    by_cases hconnected : w.connected pending.player = true
    · by_cases hlength : pending.auctions.length = pending.count
      · rw [if_pos hconnected, if_pos hlength, World.pendingAuctionProcess, hfind]
        have hlive := (@isSome_derefAll w pending.auctions)
        cases hderef : w.derefAll pending.auctions with
        | none =>
          rw [hderef] at hlive
          refine Or.inl ⟨fun h => ?_, ?_⟩
          · exact Bool.false_ne_true (hlive.mpr (h fun _ => hlength))
          · dsimp only
            rw [hderef]
            rfl
        | some auctions =>
          rw [hderef] at hlive
          refine Or.inr ⟨fun _ => hlive.mp rfl, Or.inr ⟨pending, rfl, Or.inr ⟨auctions, hderef,
            Or.inr ?_⟩⟩⟩
          dsimp only
          rw [hderef]
          rfl
      · rw [if_pos hconnected, if_neg hlength]
        exact Or.inr ⟨fun h => absurd (h hconnected) hlength, Or.inr ⟨pending, rfl, Or.inl rfl⟩⟩
    · rw [if_neg hconnected]
      have hlive := (@isSome_derefAll w pending.auctions)
      cases hderef : w.derefAll pending.auctions with
      | none =>
        rw [hderef] at hlive
        refine Or.inl ⟨fun h => ?_, rfl⟩
        exact Bool.false_ne_true (hlive.mpr (h fun hconn => absurd hconn hconnected))
      | some auctions =>
        rw [hderef] at hlive
        exact Or.inr ⟨fun _ => hlive.mp rfl, Or.inr ⟨pending, rfl, Or.inr ⟨auctions, hderef,
          Or.inl rfl⟩⟩⟩

/-- What a round leaves of the lists. -/
structure Collects (w w' : World) (player : ℕ) : Prop where
  ageless : w'.live.map ageless = w.live.map ageless
  pending : (w'.pendingAuctionMap.map PendingAuctions.content).Sublist
    (w.pendingAuctionMap.map PendingAuctions.content)
  others : ∀ other, other ≠ player →
    Keyed.find PendingAuctions.player w'.pendingAuctionMap other =
      Keyed.find PendingAuctions.player w.pendingAuctionMap other
  auctionId : w'.auctionId = w.auctionId
  itemGuid : w'.itemGuid = w.itemGuid
  inventory : w'.inventory = w.inventory
  connected : w'.connected = w.connected
  aItems : w'.aItems = w.aItems

/-- Expired auctions and an erased list. -/
theorem collects_erase {now player : ℕ} {auctions : List AuctionEntry} (h : Listed w)
    (hauctions : ∀ auction ∈ auctions, auction ∈ w.live) :
    Collects w ((w.expireAll now auctions).erasePending player) player := by
  have hage := (@map_ageless_expireAll _ _ now) h.ids
    (fun auction hmem => mem_map_of_mem (f := ageless) (hauctions auction hmem))
  rw [expireAll_eq]
  refine ⟨?_, ?_, fun other hne => find_filter_of_ne hne, rfl, rfl, rfl, rfl, rfl⟩
  · exact hage
  · exact List.Sublist.map _ filter_sublist

theorem affordable_append (money total : ℕ) (auctions : List AuctionEntry) :
    (affordable money total auctions).2.1 ++ (affordable money total auctions).2.2 = auctions := by
  induction auctions generalizing total with
  | nil => rfl
  | cons auction auctions ih =>
    rw [affordable]
    split_ifs
    · rfl
    · rw [cons_append, ih]

theorem collects_processed {now player : ℕ} {auctions : List AuctionEntry} (h : Listed w)
    (hauctions : ∀ auction ∈ auctions, auction ∈ w.live) :
    Collects w (w.processed now player auctions) player := by
  have hothers : ∀ auction ∈ (affordable (w.money player) 0 auctions).2.2, auction ∈ w.live := by
    intro auction hmem
    refine hauctions auction ?_
    rw [← affordable_append (w.money player) 0 auctions]
    exact mem_append_right _ hmem
  have herase := (@collects_erase _ now player) h hothers
  exact ⟨herase.ageless, herase.pending, herase.others, herase.auctionId, herase.itemGuid,
    herase.inventory, herase.connected, herase.aItems⟩

/-- Only the count of a list has changed. -/
theorem collects_putPending {pending : PendingAuctions} (h : Listed w)
    (hfind : Keyed.find PendingAuctions.player w.pendingAuctionMap player = some pending) :
    Collects w (w.putPending { pending with count := pending.auctions.length }) player := by
  have hkey : pending.player = player := key_of_find hfind
  refine ⟨rfl, ?_, fun other hne => ?_, rfl, rfl, rfl, rfl, rfl⟩
  · have hcontent : (w.putPending { pending with
        count := pending.auctions.length }).pendingAuctionMap.map PendingAuctions.content =
        w.pendingAuctionMap.map PendingAuctions.content := by
      refine map_put PendingAuctions.content fun b hb hb' => ?_
      rw [eq_of_key h.players hb (mem_of_find hfind) hb']
      rfl
    rw [hcontent]
  · exact find_put_of_ne (hkey.trans_ne hne.symm)

/-- **A round** has a result when the pointers it follows can be followed. -/
theorem updatePendingAuction_collects (h : Listed w) (now player : ℕ) :
    (¬w.RoundIntact player ∧ w.updatePendingAuction now player = none) ∨
    (w.RoundIntact player ∧ ∃ w', w.updatePendingAuction now player = some w' ∧
      Collects w w' player) := by
  rcases updatePendingAuction_cases w now player with ⟨hdead, hnone⟩ |
    ⟨hround, hsame | ⟨pending, hfind, hput | ⟨auctions, hderef, hoffline | hcollected⟩⟩⟩
  · exact Or.inl ⟨hdead, hnone⟩
  · exact Or.inr ⟨hround, w, hsame, rfl, List.Sublist.refl _, fun _ _ => rfl, rfl, rfl, rfl, rfl, rfl⟩
  · exact Or.inr ⟨hround, _, hput, collects_putPending h hfind⟩
  · exact Or.inr ⟨hround, _, hoffline, collects_erase h (derefAll_eq_some hderef).2⟩
  · exact Or.inr ⟨hround, _, hcollected, collects_processed h (derefAll_eq_some hderef).2⟩

theorem map_of_ageless {γ : Type} (g : AuctionEntry → γ)
    (hg : ∀ auction, g (ageless auction) = g auction)
    (h : w'.live.map ageless = w.live.map ageless) : w'.live.map g = w.live.map g := by
  have hmap := congrArg (List.map g) h
  rw [map_map, map_map] at hmap
  have hcomp : g ∘ ageless = g := funext hg
  rwa [hcomp] at hmap

theorem Collects.isLive {player id : ℕ} (h : Collects w w' player) : w'.IsLive id ↔ w.IsLive id := by
  rw [isLive_iff, isLive_iff, map_of_ageless AuctionEntry.id (fun _ => rfl) h.ageless]

theorem Listed.collects (h : Listed w) (hc : Collects w w' player) : Listed w' := by
  refine h.shrink ?_ hc.pending hc.auctionId hc.itemGuid hc.inventory
    (fun _ hmem => hc.aItems ▸ hmem)
  rw [map_of_ageless ident (fun _ => rfl) hc.ageless]

theorem Collects.roundIntact {player other : ℕ} (h : Collects w w' player) (hne : other ≠ player) :
    w'.RoundIntact other ↔ w.RoundIntact other := by
  simp only [World.RoundIntact, World.Due, h.others other hne, h.connected, h.isLive]

/-- **`UpdatePendingAuctions`** has a result when the pointers of all lists that are processed can be
followed. -/
theorem foldlM_updatePendingAuction {players : List ℕ} {now : ℕ} (hnodup : players.Nodup)
    (h : Listed w) :
    (players.foldlM (fun (w : World) player => w.updatePendingAuction now player) w).isSome ↔
      ∀ player ∈ players, w.RoundIntact player := by
  induction players generalizing w with
  | nil => simp
  | cons player players ih =>
    obtain ⟨hplayer, hnodup⟩ := nodup_cons.mp hnodup
    rw [foldlM_cons, forall_mem_cons]
    rcases updatePendingAuction_collects h now player with ⟨hdead, hnone⟩ | ⟨hround, w', hsome, hc⟩
    · rw [hnone]
      simp [hdead]
    · rw [hsome, Option.bind_eq_bind, Option.bind_some, ih hnodup (h.collects hc)]
      have hrest : (∀ other ∈ players, w'.RoundIntact other) ↔
          ∀ other ∈ players, w.RoundIntact other := by
        refine forall₂_congr fun other hother => hc.roundIntact ?_
        rintro rfl
        exact hplayer hother
      rw [hrest]
      exact (and_iff_right hround).symm

/-- A property that every round keeps is kept by the tick. -/
theorem foldlM_updatePendingAuction_induction (Inv : World → Prop) {players : List ℕ} {now : ℕ}
    (hround : ∀ w w' player, Inv w → w.updatePendingAuction now player = some w' → Inv w')
    (hw : Inv w)
    (h : players.foldlM (fun (w : World) player => w.updatePendingAuction now player) w = some w') : Inv w' := by
  induction players generalizing w with
  | nil =>
    cases h
    exact hw
  | cons player players ih =>
    rw [foldlM_cons, Option.bind_eq_bind, Option.bind_eq_some_iff] at h
    obtain ⟨first, hfirst, hrest⟩ := h
    exact ih (hround w first player hw hfirst) hrest

/-! ### How auctions end -/

/-- The auction with this id ends in the step: by a buyout, by its owner, or because its time is over. -/
def Ends (env : Env) (w : World) (op : Op) (id : ℕ) : Prop :=
  match op with
  | .placeBid player creature auctionId price ownerFound => w.connected player = true ∧
      ∃ found ∈ w.placeBidAuction env player creature auctionId price ownerFound,
        isBid price found.2 = false ∧ found.2.id = id
  | .removeItem player creature auctionId => w.connected player = true ∧
      ∃ found ∈ w.removeItemAuction env player creature auctionId, found.2.1.id = id
  | .update house now => ∃ auction ∈ w.auctionsMap house,
      ¬now + 60 < auction.expireTime ∧ auction.id = id
  | _ => False

instance (env : Env) (w : World) (op : Op) (id : ℕ) : Decidable (Ends env w op id) := by
  cases op <;> unfold Ends <;> infer_instance

/-- Auctions have ended: which ones are still live, with the same lists. -/
structure EndsOnly (w w' : World) (ended : ℕ → Prop) : Prop where
  pendingAuctionMap : w'.pendingAuctionMap = w.pendingAuctionMap
  isLive : ∀ id, w'.IsLive id ↔ w.IsLive id ∧ ¬ended id

theorem endsOnly_removeAuction {paid : World} {other : AuctionEntry} (h : Listed w) (hp : Pays w paid)
    (hmem : auction ∈ w.auctionsMap house) (hid : other.id = auction.id) :
    EndsOnly w (paid.removeAuction house other) fun id => auction.id = id := by
  refine ⟨hp.pendingAuctionMap, fun id => ?_⟩
  have hpaid : auction ∈ paid.auctionsMap house := hp.auctionsMap ▸ hmem
  rw [isLive_removeAuction (h.pays hp) hpaid hid, hp.isLive, ne_comm]

/-- The other auctions of a house stay in its map. -/
theorem mem_updateAuction {now : ℕ} {other : AuctionEntry} (hmem : other ∈ w.auctionsMap house)
    (hne : other.id ≠ auction.id) :
    other ∈ (w.updateAuction env house now auction).auctionsMap house := by
  by_cases hlater : now + 60 < auction.expireTime
  · have hsame : w.updateAuction env house now auction = w := if_pos hlater
    rwa [hsame]
  · obtain ⟨paid, hp, hremove⟩ := (@updateAuction_eq env house) w now hlater
    rw [hremove, World.removeAuction]
    dsimp only
    rw [Function.update_self, mem_filter, hp.auctionsMap]
    exact ⟨hmem, by simpa using hne⟩

/-- **The clock** ends the auctions whose time is over. -/
theorem foldl_updateAuction {auctions : List AuctionEntry} {now : ℕ} (h : Listed w)
    (hauctions : ∀ auction ∈ auctions, auction ∈ w.auctionsMap house)
    (hnodup : (auctions.map AuctionEntry.id).Nodup) :
    Listed (auctions.foldl (World.updateAuction env house now) w) ∧
      EndsOnly w (auctions.foldl (World.updateAuction env house now) w) fun id =>
        ∃ auction ∈ auctions, ¬now + 60 < auction.expireTime ∧ auction.id = id := by
  induction auctions generalizing w with
  | nil => exact ⟨h, rfl, fun id => by simp⟩
  | cons auction auctions ih =>
    obtain ⟨hmem, hauctions⟩ := forall_mem_cons.mp hauctions
    obtain ⟨hnew, hnodup⟩ := nodup_cons.mp hnodup
    rw [foldl_cons]
    by_cases hlater : now + 60 < auction.expireTime
    · have hsame : w.updateAuction env house now auction = w := if_pos hlater
      rw [hsame]
      obtain ⟨hlisted, hpending, hlive⟩ := ih h hauctions hnodup
      refine ⟨hlisted, hpending, fun id => ?_⟩
      rw [hlive id, exists_mem_cons_iff]
      simp [hlater]
    · obtain ⟨paid, hp, hremove⟩ := (@updateAuction_eq env house) w now hlater
      have hpaid : auction ∈ paid.auctionsMap house := hp.auctionsMap ▸ hmem
      have hstay : ∀ other ∈ auctions,
          other ∈ (w.updateAuction env house now auction).auctionsMap house := fun other hother =>
        mem_updateAuction (hauctions other hother) fun hid => hnew (hid ▸ mem_map_of_mem hother)
      rw [hremove] at hstay ⊢
      obtain ⟨hlisted, hpending, hlive⟩ := ih ((h.pays hp).removeAuction hpaid rfl) hstay hnodup
      obtain ⟨hpending', hlive'⟩ := endsOnly_removeAuction h hp hmem rfl
      refine ⟨hlisted, hpending.trans hpending', fun id => ?_⟩
      rw [hlive id, hlive' id, exists_mem_cons_iff, and_assoc, not_or]
      simp [hlater]

/-- The steps that are not about deposits: they have a result, which keeps the pending lists. -/
theorem step_endsOnly (h : Listed w) (op : Op)
    (hop : ∀ player packet creature now, op ≠ .sellItem player packet creature now)
    (hop' : ∀ now, op ≠ .updatePendingAuctions now) :
    ∃ w', w.step env op = some w' ∧ Listed w' ∧ EndsOnly w w' (Ends env w op) := by
  have hsame : ∀ ended : ℕ → Prop, (∀ id, ¬ended id) → EndsOnly w w ended := fun ended hnot =>
    ⟨rfl, fun id => by simp [hnot id]⟩
  cases op with
  | sellItem player packet creature now => exact absurd rfl (hop player packet creature now)
  | updatePendingAuctions now => exact absurd rfl (hop' now)
  | login player =>
    exact ⟨_, rfl, ⟨h.ids, h.fresh, h.players, h.pending, h.pendingFresh, h.owner, h.inventory,
      h.aItems⟩, rfl, fun id => (and_iff_left not_false).symm⟩
  | logout player =>
    exact ⟨_, rfl, ⟨h.ids, h.fresh, h.players, h.pending, h.pendingFresh, h.owner, h.inventory,
      h.aItems⟩, rfl, fun id => (and_iff_left not_false).symm⟩
  | update house now =>
    obtain ⟨hlisted, hends⟩ := (@foldl_updateAuction env _ _ _ now) h
      (fun auction hmem => hmem) (nodup_auctionsMap h.ids house)
    exact ⟨_, rfl, hlisted, hends⟩
  | placeBid player creature auctionId price ownerFound =>
    by_cases hconnected : w.connected player = true
    · refine ⟨_, if_pos hconnected, ?_⟩
      rw [World.handleAuctionPlaceBid]
      cases hfound : w.placeBidAuction env player creature auctionId price ownerFound with
      | none => exact ⟨h, hsame _ fun id hends => by simp [Ends, hfound] at hends⟩
      | some found =>
        obtain ⟨house, auction⟩ := found
        obtain ⟨hmem, -, -⟩ := placeBidAuction_spec hfound
        dsimp only
        by_cases hbid : isBid price auction = true
        · rw [if_pos hbid]
          obtain ⟨paid, bidders, hp, heq⟩ := (@bidOn_eq env) w player price auction
          have hpaid : auction ∈ paid.live := hp.live ▸ mem_live.mpr ⟨house, hmem⟩
          rw [heq]
          refine ⟨(h.pays hp).write hpaid rfl, hp.pendingAuctionMap, fun id => ?_⟩
          rw [isLive_write, hp.isLive]
          simp [Ends, hfound, hbid]
        · rw [if_neg hbid]
          obtain ⟨paid, hp, heq⟩ := (@buyOut_eq env) w player house auction
          have hpaid : auction ∈ paid.auctionsMap house := hp.auctionsMap ▸ hmem
          rw [heq]
          obtain ⟨hpending, hlive⟩ := (@endsOnly_removeAuction _ _ _ _ { auction with bidder := player, bid := auction.buyout }) h hp hmem rfl
          refine ⟨(h.pays hp).removeAuction hpaid rfl, hpending, fun id => ?_⟩
          rw [hlive id]
          simp [Ends, hfound, hbid, hconnected]
    · exact ⟨w, if_neg hconnected, h, hsame _ fun id hends => hconnected hends.1⟩
  | removeItem player creature auctionId =>
    by_cases hconnected : w.connected player = true
    · refine ⟨_, if_pos hconnected, ?_⟩
      cases hfound : w.removeItemAuction env player creature auctionId with
      | none =>
        rw [World.handleAuctionRemoveItem, hfound]
        exact ⟨h, hsame _ fun id hends => by simp [Ends, hfound] at hends⟩
      | some found =>
        obtain ⟨house, auction, item⟩ := found
        obtain ⟨hmem, -, -⟩ := removeItemAuction_spec hfound
        obtain ⟨paid, hp, heq⟩ := handleAuctionRemoveItem_eq hfound
        have hpaid : auction ∈ paid.auctionsMap house := hp.auctionsMap ▸ hmem
        rw [heq]
        obtain ⟨hpending, hlive⟩ := endsOnly_removeAuction h hp hmem rfl
        refine ⟨(h.pays hp).removeAuction hpaid rfl, hpending, fun id => ?_⟩
        rw [hlive id]
        simp [Ends, hfound, hconnected]
    · exact ⟨w, if_neg hconnected, h, hsame _ fun id hends => hconnected hends.1⟩

/-! ### Every step -/

/-- No item comes with what is sold. -/
theorem guid_of_mem_foldl_takeFromStack {items : List (Item × ℕ)} {inventory : List Item} {item : Item}
    (h : item ∈ items.foldl takeFromStack inventory) :
    item.guid ∈ inventory.map Item.guid := by
  induction items generalizing inventory with
  | nil => exact mem_map_of_mem h
  | cons sold items ih =>
    have hrest := ih h
    rw [takeFromStack] at hrest
    split_ifs at hrest
    · obtain ⟨old, hold, hguid⟩ := mem_map.mp hrest
      exact hguid ▸ mem_map_of_mem (mem_of_mem_filter hold)
    · rwa [keys_put] at hrest

theorem Listed.withAuction {player now itemGuid : ℕ} {packet : SellItem} {order : SellOrder}
    {item : Item} {after : List PendingAuctions} (h : Listed w)
    (hafter : PendingAdds w.pendingAuctionMap after player w.auctionId) (hle : w.itemGuid ≤ itemGuid)
    (hlt : item.guid < itemGuid) :
    Listed (w.withAuction env player packet order now itemGuid item after) := by
  have hlive : (w.withAuction env player packet order now itemGuid item after).live.Perm
      (w.newAuction env player packet order item now :: w.live) := live_addAuction _ _ _
  have hids := hlive.map AuctionEntry.id
  refine ⟨?_, fun auction hmem => ?_, hafter.players h.players, ?_, fun id hid => ?_, ?_, ?_, ?_⟩
  · refine hids.nodup_iff.mpr (nodup_cons.mpr ⟨fun hmem => ?_, h.ids⟩)
    obtain ⟨old, hold, hid⟩ := mem_map.mp hmem
    exact Nat.ne_of_lt (h.fresh old hold) hid
  · rcases mem_cons.mp (hlive.mem_iff.mp hmem) with rfl | hold
    · exact Nat.lt_succ_self _
    · exact Nat.lt_succ_of_lt (h.fresh auction hold)
  · refine hafter.ids.nodup_iff.mpr (nodup_cons.mpr ⟨fun hmem => ?_, h.pending⟩)
    exact Nat.lt_irrefl _ (h.pendingFresh _ hmem)
  · rcases mem_cons.mp (hafter.ids.mem_iff.mp hid) with rfl | hold
    · exact Nat.lt_succ_self _
    · exact Nat.lt_succ_of_lt (h.pendingFresh id hold)
  · intro pending hpending auction hmem hid
    rcases hafter.lists pending hpending auction.id hid with ⟨hnew, hplayer⟩ | ⟨old, hold, hin, hplayer⟩
    · rcases mem_cons.mp (hlive.mem_iff.mp hmem) with rfl | hlisted
      · exact hplayer.symm
      · exact absurd hnew (Nat.ne_of_lt (h.fresh auction hlisted))
    · rcases mem_cons.mp (hlive.mem_iff.mp hmem) with rfl | hlisted
      · exact absurd (h.pendingFresh _ (mem_pendingIds.mpr ⟨old, hold, hin⟩)) (Nat.lt_irrefl _)
      · exact (h.owner old hold auction hlisted hin).trans hplayer
  · intro other stored hstored
    refine Nat.lt_of_lt_of_le ?_ hle
    by_cases hother : other = player
    · subst hother
      have hin : stored ∈ order.items.foldl takeFromStack (w.inventory other) := by
        have hupdate : (w.withAuction env other packet order now itemGuid item after).inventory other =
            order.items.foldl takeFromStack (w.inventory other) := Function.update_self _ _ _
        exact hupdate ▸ hstored
      obtain ⟨old, hold, hguid⟩ := mem_map.mp (guid_of_mem_foldl_takeFromStack hin)
      rw [← hguid]
      exact h.inventory other old hold
    · have hupdate : (w.withAuction env player packet order now itemGuid item after).inventory other =
          w.inventory other := Function.update_of_ne hother _ _
      exact h.inventory other stored (hupdate ▸ hstored)
  · intro stored hstored
    rcases mem_append.mp hstored with hold | hnew
    · exact Nat.lt_of_lt_of_le (h.aItems stored hold) hle
    · rw [mem_singleton.mp hnew]
      exact hlt

/-- **Every step** keeps the lists. -/
theorem Listed.step (h : Listed w) {op : Op} (hstep : w.step env op = some w') : Listed w' := by
  by_cases hsell : ∃ player packet creature now, op = .sellItem player packet creature now
  · obtain ⟨player, packet, creature, now, rfl⟩ := hsell
    rw [World.step] at hstep
    split_ifs at hstep
    · rw [World.handleAuctionSellItem] at hstep
      cases horder : w.sellItemOrder env player packet creature with
      | none =>
        rw [horder] at hstep
        cases hstep
        exact h
      | some order =>
        rw [horder] at hstep
        dsimp only at hstep
        rcases (@createAuction_cases _ _ _ now) h (sellItemOrder_spec horder) with ⟨-, hnone⟩ |
          ⟨-, itemGuid, item, hle, hlt, -, -, hused | ⟨after, hafter, hlisted⟩⟩
        · rw [hnone] at hstep
          cases hstep
        · rw [hused] at hstep
          cases hstep
          exact ⟨h.ids, fun auction hmem => Nat.lt_succ_of_lt (h.fresh auction hmem), h.players,
            h.pending, fun id hid => Nat.lt_succ_of_lt (h.pendingFresh id hid), h.owner,
            fun player item hmem => Nat.lt_of_lt_of_le (h.inventory player item hmem) hle,
            fun item hmem => Nat.lt_of_lt_of_le (h.aItems item hmem) hle⟩
        · rw [hlisted] at hstep
          cases hstep
          exact h.withAuction hafter hle hlt
    · cases hstep
      exact h
  · by_cases hcollect : ∃ now, op = .updatePendingAuctions now
    · obtain ⟨now, rfl⟩ := hcollect
      refine foldlM_updatePendingAuction_induction Listed (fun w w' player hw hround => ?_) h hstep
      rcases updatePendingAuction_collects hw now player with ⟨-, hnone⟩ | ⟨-, next, hsome, hc⟩
      · rw [hnone] at hround
        cases hround
      · rw [hsome] at hround
        cases hround
        exact hw.collects hc
    · push Not at hsell hcollect
      obtain ⟨next, hnext, hlisted, -⟩ := (@step_endsOnly env) h op hsell hcollect
      rw [hnext] at hstep
      cases hstep
      exact hlisted

/-! ### Pending deposits refer to live auctions -/

/-- Every auction in a pending list is in exactly one of the maps, and there only once; it is pending
only once; and it belongs to the player of the list. -/
def PendingLive (w : World) : Prop :=
  ∀ pending ∈ w.pendingAuctionMap, ∀ id ∈ pending.auctions,
    (∃ house auction, auction ∈ w.auctionsMap house ∧ auction.id = id ∧
      auction.owner = pending.player ∧ ∀ house', ((w.auctionsMap house').map AuctionEntry.id).count id =
        if house' = house then 1 else 0) ∧
    w.pendingIds.count id = 1

theorem pendingLive_iff_isLive (h : Listed w) : PendingLive w ↔ ∀ id ∈ w.pendingIds, w.IsLive id := by
  constructor
  · intro hlive id hid
    obtain ⟨pending, hpending, hin⟩ := mem_pendingIds.mp hid
    obtain ⟨⟨house, auction, hmem, hauction, -⟩, -⟩ := hlive pending hpending id hin
    exact ⟨auction, mem_live.mpr ⟨house, hmem⟩, hauction⟩
  · intro hlive pending hpending id hin
    have hid := mem_pendingIds.mpr ⟨pending, hpending, hin⟩
    obtain ⟨auction, hauction, rfl⟩ := hlive id hid
    obtain ⟨house, hmem⟩ := mem_live.mp hauction
    refine ⟨⟨house, auction, hmem, rfl, h.owner pending hpending auction hauction hin, fun house' => ?_⟩,
      count_eq_one_of_mem h.pending hid⟩
    by_cases hhouse : house' = house
    · subst hhouse
      rw [if_pos rfl]
      exact count_eq_one_of_mem (nodup_auctionsMap h.ids house') (mem_map_of_mem hmem)
    · rw [if_neg hhouse, count_eq_zero]
      intro hother
      obtain ⟨other, hin', hsame⟩ := mem_map.mp hother
      exact hhouse (house_unique h.ids hmem hin' hsame).1

/-- The step ends no auction whose deposit is pending. -/
def KeepsPending (env : Env) (w : World) (op : Op) : Prop := ∀ id ∈ w.pendingIds, ¬Ends env w op id

instance (env : Env) (w : World) (op : Op) : Decidable (KeepsPending env w op) :=
  inferInstanceAs (Decidable (∀ id ∈ w.pendingIds, ¬Ends env w op id))

/-- **One step**: pending deposits refer to live auctions afterwards exactly when it ends none of
them. -/
theorem step_pendingLive_iff (h : Listed w) (hlive : PendingLive w) (op : Op) :
    (∃ w', w.step env op = some w' ∧ PendingLive w') ↔ KeepsPending env w op := by
  have hall := (pendingLive_iff_isLive h).mp hlive
  by_cases hsell : ∃ player packet creature now, op = .sellItem player packet creature now
  · obtain ⟨player, packet, creature, now, rfl⟩ := hsell
    refine iff_of_true ?_ fun id _ hends => hends
    rw [World.step]
    split_ifs
    · rw [World.handleAuctionSellItem]
      cases horder : w.sellItemOrder env player packet creature with
      | none => exact ⟨w, rfl, hlive⟩
      | some order =>
        rcases (@createAuction_cases _ _ _ now) h (sellItemOrder_spec horder) with ⟨hdead, -⟩ |
          ⟨-, itemGuid, item, hle, hlt, -, -, hused | ⟨after, hafter, hlisted⟩⟩
        · refine absurd (fun pending hpending id hid => hall id ?_) hdead
          exact mem_pendingIds.mpr ⟨pending, mem_of_find hpending, hid⟩
        · exact ⟨_, hused, hlive⟩
        · refine ⟨_, hlisted, (pendingLive_iff_isLive (h.withAuction hafter hle hlt)).mpr ?_⟩
          have hperm : (w.withAuction env player packet order now itemGuid item after).live.Perm
              (w.newAuction env player packet order item now :: w.live) := live_addAuction _ _ _
          intro id hid
          rcases mem_cons.mp (hafter.ids.mem_iff.mp hid) with rfl | hold
          · exact ⟨_, hperm.mem_iff.mpr mem_cons_self, rfl⟩
          · obtain ⟨auction, hauction, hsame⟩ := hall id hold
            exact ⟨auction, hperm.mem_iff.mpr (mem_cons_of_mem _ hauction), hsame⟩
    · exact ⟨w, rfl, hlive⟩
  · by_cases hcollect : ∃ now, op = .updatePendingAuctions now
    · obtain ⟨now, rfl⟩ := hcollect
      refine iff_of_true ?_ fun id _ hends => hends
      have hsome : (w.updatePendingAuctions now).isSome := by
        refine (foldlM_updatePendingAuction h.players h).mpr fun player _ pending hpending _ id hid => ?_
        exact hall id (mem_pendingIds.mpr ⟨pending, mem_of_find hpending, hid⟩)
      obtain ⟨w', hw'⟩ := Option.isSome_iff_exists.mp hsome
      refine ⟨w', hw', ?_⟩
      have hinv := foldlM_updatePendingAuction_induction
        (fun w => Listed w ∧ ∀ id ∈ w.pendingIds, w.IsLive id) (fun w w' player hw hround => ?_)
        ⟨h, hall⟩ hw'
      · exact (pendingLive_iff_isLive hinv.1).mpr hinv.2
      rcases updatePendingAuction_collects hw.1 now player with ⟨-, hnone⟩ | ⟨-, next, hnext, hc⟩
      · rw [hnone] at hround
        cases hround
      · rw [hnext] at hround
        cases hround
        refine ⟨hw.1.collects hc, fun id hid => hc.isLive.mpr (hw.2 id ?_)⟩
        have hlists := (hc.pending.map Prod.snd).flatten
        rw [map_map, map_map] at hlists
        exact hlists.subset hid
    · push Not at hsell hcollect
      obtain ⟨w', hw', hlisted, hpending, hends⟩ := (@step_endsOnly env) h op hsell hcollect
      have hids : w'.pendingIds = w.pendingIds := by
        rw [World.pendingIds, hpending, World.pendingIds]
      have hiff : PendingLive w' ↔ KeepsPending env w op := by
        rw [pendingLive_iff_isLive hlisted, hids]
        refine forall₂_congr fun id hid => ?_
        rw [hends id]
        exact and_iff_right (hall id hid)
      rw [← hiff]
      constructor
      · rintro ⟨next, hnext, hgood⟩
        rw [hw'] at hnext
        cases hnext
        exact hgood
      · exact fun hgood => ⟨w', hw', hgood⟩

/-- A world without auctions. -/
def World.start (money : ℕ → ℕ) (inventory : ℕ → List Item) (auctionId itemGuid : ℕ) : World where
  auctionsMap := fun _ => []
  pendingAuctionMap := []
  aItems := []
  auctionId := auctionId
  itemGuid := itemGuid
  money := money
  inventory := inventory
  connected := fun _ => false
  mails := []
  history := []

theorem listed_start {money : ℕ → ℕ} {inventory : ℕ → List Item} {auctionId itemGuid : ℕ}
    (h : ∀ player, ∀ item ∈ inventory player, item.guid < itemGuid) :
    Listed (World.start money inventory auctionId itemGuid) :=
  ⟨nodup_nil, fun _ hmem => (by cases hmem), nodup_nil, nodup_nil,
    fun _ hmem => (by cases hmem), fun _ hmem => (by cases hmem), h, fun _ hmem => (by cases hmem)⟩

theorem pendingLive_start (money : ℕ → ℕ) (inventory : ℕ → List Item) (auctionId itemGuid : ℕ) :
    PendingLive (World.start money inventory auctionId itemGuid) := fun _ hmem => by cases hmem

/-- **Pending deposits refer to live auctions** in every state of a run if and only if no step of it
ends an auction whose deposit is pending. -/
theorem pendingLive_iff (env : Env) (w : World) (h : Listed w) (hlive : PendingLive w)
    (ops : List Op) :
    Run.Along (step env) (fun s op => ∃ w', step env s op = some w' ∧ PendingLive w') (some w) ops ↔
      Run.Along (step env) (fun s op => ∀ w ∈ s, KeepsPending env w op) (some w) ops := by
  refine Run.along_congr (fun s => ∃ w, s = some w ∧ Listed w ∧ PendingLive w) ?_ ?_ ops
    ⟨w, rfl, h, hlive⟩
  · rintro _ op ⟨w, rfl, h, hlive⟩
    rw [step, Option.bind_some, step_pendingLive_iff h hlive op]
    simp
  · rintro _ op ⟨w, rfl, h, hlive⟩ hkeeps
    obtain ⟨w', hw', hgood⟩ := (step_pendingLive_iff h hlive op).mpr (hkeeps w rfl)
    exact ⟨w', hw', h.step hw', hgood⟩

section Example

/-- Every character has an account of its own, deposits are 100 and there are no cuts. -/
def flatEnv : Env where
  getCharacterAccountIdByGuid := id
  isBotChar := fun _ => false
  getMaxStackCount := fun _ => 20
  conjured := fun _ => false
  allowTwoSideInteractionAuction := false
  auctionHouseStore := fun _ => true
  auctionTime := id
  getAuctionDeposit := fun _ _ _ _ => 100
  getAuctionCut := fun _ => 0
  getAuctionOutBid := fun _ => 1

/-- Player 7 has 5000 copper and a stack of twenty, player 8 has 5000 copper. -/
def twoPlayers : World :=
  World.start (fun player => if player = 7 ∨ player = 8 then 5000 else 0)
    (fun player => if player = 7 then [⟨3, 2589, 20, true, false, 0⟩] else []) 1 4

theorem twoPlayers_inventory (player : ℕ) : ∀ item ∈ twoPlayers.inventory player, item.guid < 4 := by
  intro item hmem
  by_cases hplayer : player = 7
  · subst hplayer
    rw [mem_singleton.mp hmem]
    decide
  · have hnil : twoPlayers.inventory player = [] := if_neg hplayer
    rw [hnil] at hmem
    cases hmem

/-- An auctioneer of the Alliance. -/
def auctioneer : Creature := ⟨some 2, some (some 2)⟩

/-- All twenty for a bid of 100 or a buyout of 500, for twelve hours. -/
def sellStack : Op := .sellItem 7 ⟨[(3, 20)], 100, 500, 720⟩ (some auctioneer) 0

/-- The deposit is collected in the second tick, and the auction then ends by its owner. -/
theorem pendingLive_iff_collected :
    Run.Along (step flatEnv) (fun s op => ∃ w', step flatEnv s op = some w' ∧ PendingLive w')
      (some twoPlayers) [.login 7, sellStack, .updatePendingAuctions 1, .updatePendingAuctions 2,
        .removeItem 7 (some auctioneer) 1] := by
  refine (pendingLive_iff flatEnv twoPlayers (listed_start twoPlayers_inventory)
    (pendingLive_start _ _ _ _) _).mpr ?_
  decide

/-- **A pending deposit of a deleted auction**: player 7 cancels the auction before the tick in which its
deposit would be collected. -/
theorem not_pendingLive_of_cancel :
    ¬Run.Along (step flatEnv) (fun s op => ∃ w', step flatEnv s op = some w' ∧ PendingLive w')
      (some twoPlayers) [.login 7, sellStack, .removeItem 7 (some auctioneer) 1] := by
  rintro ⟨-, -, ⟨w, hw, hlive⟩, -⟩
  have hlists : (step flatEnv (step flatEnv (step flatEnv (some twoPlayers) (.login 7)) sellStack)
      (.removeItem 7 (some auctioneer) 1)).map
        (fun w => (w.pendingAuctionMap, w.live.map AuctionEntry.id)) = some ([⟨7, [1], 0⟩], []) := by
    decide
  rw [hw, Option.map_some, Option.some.injEq, Prod.mk.injEq] at hlists
  obtain ⟨hpending, hids⟩ := hlists
  have hin : ⟨7, [1], 0⟩ ∈ w.pendingAuctionMap := hpending ▸ mem_singleton_self _
  obtain ⟨⟨house, auction, hmem, -⟩, -⟩ := hlive _ hin 1 (mem_singleton_self _)
  have hauction := mem_map_of_mem (f := AuctionEntry.id) (mem_live.mpr ⟨house, hmem⟩)
  rw [hids] at hauction
  cases hauction

end Example

end IscServer.Auctions
