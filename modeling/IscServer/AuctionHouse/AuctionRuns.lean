import IscServer.AuctionHouse.AuctionConserves

/-!
# Runs of the Auction House

The successful mail refunds the deposit of an auction, whether it has been collected or not. When an
auction is sold before the tick that collects its deposit, or is sold although its owner could not be
charged, the refund is new money.

## Main results

* `step_conserves_iff` — a step conserves money and items exactly when it refunds no deposit that has
  not been collected, and follows no pointer of a deleted auction.
* `auctionHouse_conserves_iff` — the same for every step of a run.
* `not_conserves_of_buyout` — an auction that is bought out at once.
-/

namespace IscServer.Auctions

open List Option

open IscServer.Player

variable {env : Env} {w w' : World} {house : AuctionHouse} {auction : AuctionEntry}
variable {characters : Finset ℕ}

/-! ### Steps that settle -/

/-- The step refunds no deposit that has not been collected, and follows no pointer of a deleted
auction. -/
def Settles (env : Env) (w : World) (op : Op) : Prop :=
  match op with
  | .sellItem player packet creature _ => w.connected player = true →
      (w.sellItemOrder env player packet creature).isSome → w.Intact player
  | .placeBid player creature auctionId price ownerFound => w.connected player = true →
      ∀ found ∈ w.placeBidAuction env player creature auctionId price ownerFound,
        isBid price found.2 = false → Refundable w found.2
  | .update house now => ∀ auction ∈ w.auctionsMap house,
      ¬now + 60 < auction.expireTime → auction.bidder ≠ 0 → Refundable w auction
  | .updatePendingAuctions _ => ∀ pending ∈ w.pendingAuctionMap, w.Due pending →
      ∀ id ∈ pending.auctions, w.IsLive id
  | _ => True

instance (env : Env) (w : World) : (op : Op) → Decidable (Settles env w op)
  | .sellItem .. | .placeBid .. | .removeItem .. | .update .. | .updatePendingAuctions _ | .login _
  | .logout _ => by
    unfold Settles
    infer_instance

/-! ### Notes -/

theorem history_updateAuction (w : World) (now : ℕ) (auction : AuctionEntry) :
    (w.updateAuction env house now auction).history = if now + 60 < auction.expireTime then w.history
      else if auction.bidder = 0 && auction.bid = 0 then .expired auction :: w.history
      else .sold auction :: w.history := by
  have hexpired : (w.sendAuctionExpiredMail env auction).history = w.history := by
    rw [World.sendAuctionExpiredMail]
    cases w.getAItem auction.itemGUIDLow with
    | none => rfl
    | some item =>
      split_ifs <;> rfl
  have hsold : ((w.sendAuctionSuccessfulMail env auction).sendAuctionWonMail env auction).history =
      w.history := by
    have hfirst : (w.sendAuctionSuccessfulMail env auction).history = w.history := by
      rw [World.sendAuctionSuccessfulMail]
      split_ifs <;> rfl
    rw [World.sendAuctionWonMail]
    cases (w.sendAuctionSuccessfulMail env auction).getAItem auction.itemGUIDLow with
    | none => exact hfirst
    | some item =>
      split_ifs
      · exact hfirst
      · exact hfirst
  rw [World.updateAuction]
  split_ifs
  · rfl
  · exact congrArg (List.cons _) hexpired
  · exact congrArg (List.cons _) hsold

/-- A sale that was noted has been refunded what was collected. -/
theorem RefundsCollected.of_mem {history : List Event} (h : RefundsCollected history)
    (hmem : .sold auction ∈ history) : auction.deposit = 0 ∨ .charged auction.id ∈ history := by
  induction history with
  | nil => cases hmem
  | cons event past ih =>
    rcases mem_cons.mp hmem with rfl | hpast
    · exact h.1.imp id (mem_cons_of_mem _)
    · have hrest : RefundsCollected past := by
        cases event with
        | sold other => exact h.2
        | _ => exact h
      exact (ih hrest hpast).imp id (mem_cons_of_mem _)

variable {auctions : List AuctionEntry} {now : ℕ}

/-- What the clock notes: sales, and nothing about deposits. -/
theorem foldl_updateAuction_history :
    (∀ id, .charged id ∈ (auctions.foldl (World.updateAuction env house now) w).history ↔
      .charged id ∈ w.history) ∧
    (∀ event ∈ w.history, event ∈ (auctions.foldl (World.updateAuction env house now) w).history) ∧
    ∀ auction ∈ auctions, ¬now + 60 < auction.expireTime → auction.bidder ≠ 0 →
      .sold auction ∈ (auctions.foldl (World.updateAuction env house now) w).history := by
  induction auctions generalizing w with
  | nil => exact ⟨fun _ => Iff.rfl, fun _ h => h, fun _ hmem => by cases hmem⟩
  | cons auction auctions ih =>
    obtain ⟨hcharged, hkept, hsold⟩ := ih (w := w.updateAuction env house now auction)
    have hhistory := (@history_updateAuction env house) w now auction
    rw [foldl_cons]
    refine ⟨fun id => ?_, fun event hmem => hkept event ?_,
      forall_mem_cons.mpr ⟨fun hexpired hbidder => hkept _ ?_, hsold⟩⟩
    · rw [hcharged, hhistory]
      split_ifs <;> simp
    · rw [hhistory]
      split_ifs
      · exact hmem
      · exact mem_cons_of_mem _ hmem
      · exact mem_cons_of_mem _ hmem
    · rw [hhistory, if_neg hexpired, if_neg (by simp [hbidder])]
      exact mem_cons_self

/-- **The clock** conserves money and items when the deposits that it refunds have been collected. -/
theorem foldl_updateAuction_conserves (hcut : ∀ auction, env.getAuctionCut auction ≤ auction.bid)
    (h : Sound env characters w) (hrefunds : RefundsCollected w.history)
    (hauctions : ∀ auction ∈ auctions, auction ∈ w.auctionsMap house)
    (hnodup : (auctions.map AuctionEntry.id).Nodup)
    (hrefund : ∀ auction ∈ auctions, ¬now + 60 < auction.expireTime → auction.bidder ≠ 0 →
      Refundable w auction) :
    Sound env characters (auctions.foldl (World.updateAuction env house now) w) ∧
      Conserves env characters w (auctions.foldl (World.updateAuction env house now) w) := by
  induction auctions generalizing w with
  | nil => exact ⟨h, Conserves.refl hrefunds⟩
  | cons auction auctions ih =>
    obtain ⟨hmem, hauctions⟩ := forall_mem_cons.mp hauctions
    obtain ⟨hnew, hnodup⟩ := nodup_cons.mp hnodup
    obtain ⟨hfirst, hrefund⟩ := forall_mem_cons.mp hrefund
    obtain ⟨hsound, hconserves⟩ := updateAuction_conserves hcut h hrefunds hmem hfirst
    have hkept := ((@foldl_updateAuction_history env w house [auction] now)).2.1
    obtain ⟨hsound', hconserves'⟩ := ih hsound hconserves.refunds
      (fun other hother => mem_updateAuction (hauctions other hother) fun hid =>
        hnew (hid ▸ mem_map_of_mem hother)) hnodup
      (fun other hother hexpired hbidder =>
        (hrefund other hother hexpired hbidder).imp id (hkept _))
    exact ⟨hsound', hconserves.trans hconserves'⟩

theorem history_buyOut (w : World) (player : ℕ) (house : AuctionHouse) (auction : AuctionEntry)
    (hfair : Fair env characters auction) (hplayer : Existing env characters player) {item : Item}
    (hitem : w.getAItem auction.itemGUIDLow = some item)
    (hcut : env.getAuctionCut (boughtOut auction player) ≤ auction.buyout)
    (hbuyout : auction.buyout ≤ maxMoneyAmount) :
    (w.buyOut env player house auction).history = .sold (boughtOut auction player) :: w.history := by
  rw [buyOut_ended hfair hplayer hitem hcut hbuyout]
  rfl

/-! ### One step -/

variable {op : Op}

section

variable (hcut : ∀ auction, env.getAuctionCut auction ≤ auction.bid)
include hcut

/-- **A step that settles** has a result, which conserves money and items. -/
theorem step_of_settles (h : Sound env characters w) (hrefunds : RefundsCollected w.history)
    (hop : ∀ player ∈ op.player?, Existing env characters player) (hsettles : Settles env w op) :
    ∃ w', w.step env op = some w' ∧ Sound env characters w' ∧ Conserves env characters w w' := by
  have hsame : Sound env characters w ∧ Conserves env characters w w := ⟨h, Conserves.refl hrefunds⟩
  cases op with
  | sellItem player packet creature now =>
    have hplayer := hop player rfl
    by_cases hconnected : w.connected player = true
    · rw [World.step, if_pos hconnected, World.handleAuctionSellItem]
      cases horder : w.sellItemOrder env player packet creature with
      | none => exact ⟨w, rfl, hsame⟩
      | some order =>
        have hintact := hsettles hconnected (isSome_of_eq_some horder)
        have haccepted := sellItemOrder_spec horder
        rcases (@createAuction_cases _ _ _ now) h.toListed haccepted with ⟨hdead, -⟩ |
          ⟨-, itemGuid, item, hle, hlt, hnew, hitem, hused | ⟨after, hafter, hlisted⟩⟩
        · exact absurd hintact hdead
        · refine ⟨_, hused, ⟨⟨h.ids, fun auction hmem => Nat.lt_succ_of_lt (h.fresh auction hmem),
            h.players, h.pending, fun id hid => Nat.lt_succ_of_lt (h.pendingFresh id hid), h.owner,
            fun player item hmem => Nat.lt_of_lt_of_le (h.inventory player item hmem) hle,
            fun item hmem => Nat.lt_of_lt_of_le (h.aItems item hmem) hle⟩, h.money, h.fair,
            h.items, h.stored, fun id hid => ⟨Nat.lt_succ_of_lt (h.charged id hid).1,
              (h.charged id hid).2⟩, h.guids, h.entries, h.owners⟩, Nat.le_refl _, rfl, hrefunds,
            fun _ => rfl⟩
        · exact ⟨_, hlisted, withAuction_conserves h hrefunds hplayer haccepted hafter hle hlt hnew
            hitem⟩
    · exact ⟨w, if_neg hconnected, hsame⟩
  | placeBid player creature auctionId price ownerFound =>
    have hplayer := hop player rfl
    by_cases hconnected : w.connected player = true
    · refine ⟨_, if_pos hconnected, ?_⟩
      rw [World.handleAuctionPlaceBid]
      cases hfound : w.placeBidAuction env player creature auctionId price ownerFound with
      | none => exact hsame
      | some found =>
        obtain ⟨house, auction⟩ := found
        obtain ⟨hmem, -, -, -, hhigher, hprice⟩ := placeBidAuction_spec hfound
        dsimp only
        by_cases hbid : isBid price auction = true
        · rw [if_pos hbid]
          exact bidOn_conserves h hrefunds hmem hplayer hprice hhigher hbid
        · have hbuyout : isBid price auction = false := by simpa using hbid
          rw [if_neg hbid]
          exact buyOut_conserves hcut h hrefunds hmem hplayer hprice hbuyout
            (hsettles hconnected (house, auction) hfound hbuyout)
    · exact ⟨w, if_neg hconnected, hsame⟩
  | removeItem player creature auctionId =>
    by_cases hconnected : w.connected player = true
    · exact ⟨_, if_pos hconnected, handleAuctionRemoveItem_conserves h hrefunds (hop player rfl)⟩
    · exact ⟨w, if_neg hconnected, hsame⟩
  | update house now =>
    exact ⟨_, rfl, foldl_updateAuction_conserves hcut h hrefunds (fun _ hmem => hmem)
      (nodup_auctionsMap h.ids house) hsettles⟩
  | updatePendingAuctions now =>
    have hsome : (w.updatePendingAuctions now).isSome := by
      refine (foldlM_updatePendingAuction h.players h.toListed).mpr ?_
      exact fun player _ pending hpending hdue =>
        hsettles pending (Keyed.mem_of_find hpending) hdue
    obtain ⟨w', hw'⟩ := isSome_iff_exists.mp hsome
    refine ⟨w', hw', foldlM_updatePendingAuction_induction
      (fun next => Sound env characters next ∧ Conserves env characters w next)
      (fun next next' player hnext hround => ?_) hsame hw'⟩
    obtain ⟨hsound, hconserves⟩ := updatePendingAuction_conserves hnext.1 hnext.2.refunds hround
    exact ⟨hsound, hnext.2.trans hconserves⟩
  | login player =>
    exact ⟨_, rfl, ⟨⟨h.ids, h.fresh, h.players, h.pending, h.pendingFresh, h.owner, h.inventory,
      h.aItems⟩, h.money, h.fair, h.items, h.stored, h.charged, h.guids, h.entries, h.owners⟩,
      Nat.le_refl _, rfl, hrefunds, fun _ => rfl⟩
  | logout player =>
    exact ⟨_, rfl, ⟨⟨h.ids, h.fresh, h.players, h.pending, h.pendingFresh, h.owner, h.inventory,
      h.aItems⟩, h.money, h.fair, h.items, h.stored, h.charged, h.guids, h.entries, h.owners⟩,
      Nat.le_refl _, rfl, hrefunds, fun _ => rfl⟩

/-- **A step that conserves** money and items settles. -/
theorem settles_of_step (h : Sound env characters w)
    (hop : ∀ player ∈ op.player?, Existing env characters player)
    (hstep : w.step env op = some w') (hconserves : Conserves env characters w w') :
    Settles env w op := by
  cases op with
  | sellItem player packet creature now =>
    intro hconnected hsome
    rw [World.step, if_pos hconnected, World.handleAuctionSellItem] at hstep
    obtain ⟨order, horder⟩ := isSome_iff_exists.mp hsome
    rw [horder] at hstep
    dsimp only at hstep
    rcases (@createAuction_cases _ _ _ now) h.toListed (sellItemOrder_spec horder) with ⟨-, hnone⟩ |
      ⟨hintact, -⟩
    · rw [hnone] at hstep
      cases hstep
    · exact hintact
  | placeBid player creature auctionId price ownerFound =>
    rintro hconnected ⟨house, auction⟩ hfound hbuyout
    have hplayer := hop player rfl
    obtain ⟨hmem, -, -, -, -, hprice⟩ := placeBidAuction_spec hfound
    have hlive := mem_live.mpr ⟨house, hmem⟩
    obtain ⟨item, hitem⟩ := isSome_iff_exists.mp (h.stored auction hlive)
    have hmax := h.money player
    rw [World.step, if_pos hconnected, World.handleAuctionPlaceBid, mem_def.mp hfound] at hstep
    dsimp only at hstep hbuyout ⊢
    rw [hbuyout, if_neg Bool.false_ne_true] at hstep
    cases hstep
    rw [isBid, Bool.or_eq_false_iff, decide_eq_false_iff_not] at hbuyout
    have hrefunds := hconserves.refunds
    rw [(@history_buyOut _ characters) w player house auction (h.fair auction hlive)
      hplayer hitem (hcut (boughtOut auction player)) (by omega)] at hrefunds
    exact hrefunds.1
  | update house now =>
    intro auction hmem hexpired hbidder
    cases hstep
    obtain ⟨hcharged, -, hsold⟩ := (@foldl_updateAuction_history env w house (w.auctionsMap house) now)
    exact (hconserves.refunds.of_mem (hsold auction hmem hexpired hbidder)).imp id
      (hcharged auction.id).mp
  | updatePendingAuctions now =>
    intro pending hpending
    have hall := (foldlM_updatePendingAuction h.players h.toListed).mp (isSome_of_eq_some hstep)
    exact hall pending.player (mem_map_of_mem hpending) pending
      (Keyed.find_of_mem h.players hpending)
  | removeItem player creature auctionId => trivial
  | login player => trivial
  | logout player => trivial

end

/-! ### Runs -/

/-- **The auction house conserves money and items** in every step of a run if and only if no step of it
refunds a deposit that has not been collected, or follows the pointer of a deleted auction. -/
theorem auctionHouse_conserves_iff (env : Env) (characters : Finset ℕ)
    (hcut : ∀ auction, env.getAuctionCut auction ≤ auction.bid) (w : World)
    (h : Sound env characters w) (hrefunds : RefundsCollected w.history) (ops : List Op)
    (hops : ∀ op ∈ ops, ∀ player ∈ op.player?, Existing env characters player) :
    Run.Along (step env) (fun s op => ∃ w', step env s op = some w' ∧
        ∀ w ∈ s, Conserves env characters w w') (some w) ops ↔
      Run.Along (step env) (fun s op => ∀ w ∈ s, Settles env w op) (some w) ops := by
  refine Run.along_iff_of_along
    (A := fun _ op => ∀ player ∈ op.player?, Existing env characters player)
    (fun s => ∃ w, s = some w ∧ Sound env characters w ∧ RefundsCollected w.history) ?_ ?_
    ⟨w, rfl, h, hrefunds⟩ (Run.along_of_forall_mem (fun _ _ hop => hop) hops)
  · rintro _ op ⟨w, rfl, h, hrefunds⟩ hop
    constructor
    · rintro ⟨w', hstep, hconserves⟩ w hw
      cases hw
      exact settles_of_step hcut h hop hstep (hconserves w rfl)
    · intro hsettles
      obtain ⟨w', hstep, -, hconserves⟩ := step_of_settles hcut h hrefunds hop (hsettles w rfl)
      refine ⟨w', hstep, fun w hw => ?_⟩
      cases hw
      exact hconserves
  · rintro _ op ⟨w, rfl, h, hrefunds⟩ hop hsettles
    obtain ⟨w', hstep, hsound, hconserves⟩ := step_of_settles hcut h hrefunds hop (hsettles w rfl)
    exact ⟨w', hstep, hsound, hconserves.refunds⟩

/-- A world without auctions is sound. -/
theorem sound_start {money : ℕ → ℕ} {inventory : ℕ → List Item} {auctionId itemGuid : ℕ}
    (hmoney : ∀ player, money player ≤ maxMoneyAmount)
    (hfresh : ∀ player, ∀ item ∈ inventory player, item.guid < itemGuid)
    (hguids : ∀ player, ((inventory player).map Item.guid).Nodup)
    (hentries : ∀ player, ∀ item ∈ inventory player, item.entry ≠ 0) :
    Sound env characters (World.start money inventory auctionId itemGuid) :=
  ⟨listed_start hfresh, hmoney, fun _ hmem => (by cases hmem), nodup_nil,
    fun _ hmem => (by cases hmem), fun _ hmem => (by cases hmem), hguids, hentries,
    fun _ hmem => (by cases hmem)⟩

section Example

/-- Two characters without auctions. -/
theorem sound_twoPlayers : Sound flatEnv {7, 8} twoPlayers := by
  refine sound_start (fun player => ?_) twoPlayers_inventory (fun player => ?_)
    fun player item hmem => ?_
  · split_ifs <;> decide
  · split_ifs <;> decide
  · split_ifs at hmem
    · rw [mem_singleton.mp hmem]
      decide
    · cases hmem

theorem existing_twoPlayers {player : ℕ} (h : player = 7 ∨ player = 8) :
    Existing flatEnv {7, 8} player := by
  rcases h with rfl | rfl
  · exact ⟨by decide, by decide, by decide, rfl⟩
  · exact ⟨by decide, by decide, by decide, rfl⟩

/-- Player 8 buys the stack of player 7 out. -/
def buyStack : Op := .placeBid 8 (some auctioneer) 1 500 true

/-- The deposit is collected in the second tick, and the auction is then sold. -/
theorem auctionHouse_conserves_iff_collected :
    Run.Along (step flatEnv) (fun s op => ∃ w', step flatEnv s op = some w' ∧
        ∀ w ∈ s, Conserves flatEnv {7, 8} w w') (some twoPlayers)
      [.login 7, sellStack, .updatePendingAuctions 1, .updatePendingAuctions 2, .login 8, buyStack] := by
  refine (auctionHouse_conserves_iff flatEnv {7, 8} (fun _ => Nat.zero_le _) twoPlayers
    sound_twoPlayers trivial _ ?_).mpr (by decide)
  intro op hop player hplayer
  refine existing_twoPlayers ?_
  simp only [mem_cons, not_mem_nil, or_false] at hop
  rcases hop with rfl | rfl | rfl | rfl | rfl | rfl
  · cases hplayer
  · exact Or.inl (Option.some.inj hplayer).symm
  · cases hplayer
  · cases hplayer
  · cases hplayer
  · exact Or.inr (Option.some.inj hplayer).symm

/-- **New money**: the auction is bought out before its deposit has been collected, and the deposit of 100
is refunded all the same. -/
theorem not_conserves_of_buyout :
    ¬Run.Along (step flatEnv) (fun s op => ∃ w', step flatEnv s op = some w' ∧
        ∀ w ∈ s, Conserves flatEnv {7, 8} w w') (some twoPlayers)
      [.login 7, sellStack, .login 8, buyStack] := by
  rintro ⟨-, -, ⟨w, hw, -⟩, ⟨w', hw', hconserves⟩, -⟩
  have hbefore : (step flatEnv (step flatEnv (step flatEnv (some twoPlayers) (.login 7)) sellStack)
      (.login 8)).map (World.wealth {7, 8}) = some 10000 := by decide
  have hafter : (step flatEnv (step flatEnv (step flatEnv (step flatEnv (some twoPlayers) (.login 7))
      sellStack) (.login 8)) buyStack).map (World.wealth {7, 8}) = some 10100 := by decide
  have hle := (hconserves w hw).le
  rw [hw, map_some, Option.some.injEq] at hbefore
  rw [hw', map_some, Option.some.injEq] at hafter
  omega

end Example

end IscServer.Auctions
