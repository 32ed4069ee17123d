import IscServer.Guilds.BankMoves

/-!
# Rights and Daily Limits of the Guild Bank

What a member who is not the guild master can do with the bank of a guild whose ranks do not change,
from one `ResetTimes` to the next.

A packet is **lawful** when the rank of the sender has the right for everything that it does. The
moves of items are always lawful. Two kinds of packets are not: `_GetMemberRemainingMoney` takes the
right to repair for the right to withdraw gold, and `SetBankTabText` does not ask for a right.

The daily limits hold in every run. The counters of a member stay within them (`WithinLimits`), and
every move out of a tab and all money that goes into the purse is counted.

## Main results

* `moveItems_spec` : which rights a move has passed, and what it counts.
* `WithinLimits.handle` : every packet keeps the counters within the limits.
* `lawful_iff` : a packet is lawful if and only if it is `Granted`.
* `permitted_iff` : the same for runs, with the daily limits.
-/

namespace IscServer.Guilds

open Function

open Run

/-! ### What a packet does -/

/-- The place is in this tab of the bank, and the other is not. -/
def crosses (tabId : ℕ) (place other : Place) : Bool :=
  place.1 = none ∧ place.2.1.val = tabId ∧ sameTab place other = false

/-- The packet takes items out of the tab, as the source of a move or in a swap. -/
def takesOut (rules : Rules) (g : Settings) (tabId : ℕ) (b : Bank) (packet : Packet) : Bool :=
  match packet.ends with
  | none => false
  | some (src, dest) =>
    crosses tabId src dest && (handle rules g b packet).1 ≠ .refused ||
      crosses tabId dest src && (handle rules g b packet).1 = .swapped

/-- The packet brings items into the tab from outside of it. -/
def bringsIn (rules : Rules) (g : Settings) (tabId : ℕ) (b : Bank) (packet : Packet) : Bool :=
  match packet.ends with
  | none => false
  | some (src, dest) =>
    crosses tabId dest src && (handle rules g b packet).1 ≠ .refused ||
      crosses tabId src dest && (handle rules g b packet).1 = .swapped

/-- The money that a packet of the member puts into the purse of the member. -/
def gold (rules : Rules) (g : Settings) (player : Guid) (b : Bank) (packet : Packet) : ℕ :=
  if packet.player = player then (handle rules g b packet).2.purse player - b.purse player else 0

/-- A member who is not the guild master. -/
def Settings.Plain (g : Settings) (player : Guid) (member : Member) : Prop :=
  g.guild.getMember player = some member ∧ g.guild.isLeader player = false

/-- **A packet is lawful**: a sender who is not the guild master has the right for all that it
does. -/
structure Lawful (rules : Rules) (g : Settings) (b : Bank) (packet : Packet) : Prop where
  gold : ∀ member, g.Plain packet.player member →
    b.purse packet.player < (handle rules g b packet).2.purse packet.player →
      g.guild.rankRights member.rankId &&& grRightWithdrawGold ≠ 0
  out : ∀ member, g.Plain packet.player member → ∀ tabId, takesOut rules g tabId b packet = true →
    g.rankBankTabRights member.rankId tabId &&& guildBankRightViewTab ≠ 0
  deposit : ∀ member, g.Plain packet.player member → ∀ tabId,
    bringsIn rules g tabId b packet = true →
      g.rankBankTabRights member.rankId tabId &&& guildBankRightDepositItem =
        guildBankRightDepositItem
  text : ∀ member, g.Plain packet.player member → ∀ tabId,
    (handle rules g b packet).2.text tabId ≠ b.text tabId →
      g.rankBankTabRights member.rankId tabId &&& guildBankRightUpdateText ≠ 0

/-- The daily limits of the ranks are below `2^31`. -/
structure Settings.Limited (g : Settings) : Prop where
  money : ∀ rankId, g.bankMoneyPerDay rankId < 2147483648
  slots : ∀ rankId tabId, g.tabSlots rankId tabId < 2147483648

variable {rules : Rules} {g : Settings} {b : Bank} {player : Guid} {member : Member}
  {src dest place other : Place} {packet : Packet}

/-- What `RemoveItem` counts. -/
def chargeSlots (g : Settings) (player : Guid) (place other : Place) (b : Bank) : Bank :=
  if place.1 = none ∧ sameTab place other = false then
    updateMemberWithdrawSlots g player place.2.1 b
  else b

theorem updateMemberWithdrawSlots_with (g : Settings) (player : Guid) (tabId : ℕ) (b : Bank)
    (items : Items) : updateMemberWithdrawSlots g player tabId { b with items := items } =
      { updateMemberWithdrawSlots g player tabId b with items := items } := by
  rw [updateMemberWithdrawSlots, updateMemberWithdrawSlots]
  cases g.guild.getMember player with
  | none => rfl
  | some member =>
    dsimp only
    split_ifs
    · rfl
    · rfl

theorem chargeSlots_with (g : Settings) (player : Guid) (place other : Place) (b : Bank)
    (items : Items) : chargeSlots g player place other { b with items := items } =
      { chargeSlots g player place other b with items := items } := by
  rw [chargeSlots, chargeSlots]
  split_ifs
  · exact updateMemberWithdrawSlots_with g player _ b items
  · rfl

theorem removeItem_eq (g : Settings) (player : Guid) (place other : Place) (item : Item)
    (splitedAmount : ℕ) (b : Bank) : ∃ items,
      removeItem g player place other item splitedAmount b =
        { chargeSlots g player place other b with items := items } := by
  obtain ⟨holder, container, slot⟩ := place
  cases holder with
  | none =>
    rw [removeItem]
    cases hsame : sameTab (none, container, slot) other with
    | true =>
      have hcharge : chargeSlots g player (none, container, slot) other b = b :=
        if_neg fun hno => Bool.noConfusion (hsame.symm.trans hno.2)
      rw [hcharge]
      exact ⟨_, rfl⟩
    | false =>
      have hcharge : chargeSlots g player (none, container, slot) other b =
          updateMemberWithdrawSlots g player container b := if_pos ⟨rfl, hsame⟩
      rw [hcharge]
      exact ⟨_, updateMemberWithdrawSlots_with g player _ b _⟩
  | some guid =>
    have hcharge : chargeSlots g player (some guid, container, slot) other b = b :=
      if_neg fun hno => absurd hno.1 (Option.some_ne_none guid)
    rw [removeItem, hcharge]
    · exact ⟨_, rfl⟩
    · rintro _ _ ⟨⟩

/-- A move of one item that is carried out or not. -/
theorem doItemsMove_none (player : Guid) (src dest : Place) (item srcItem : Item)
    (splitedAmount : ℕ) (b : Bank) : ∃ items,
      doItemsMove rules g player src dest item srcItem none splitedAmount b = (false, b) ∨
        doItemsMove rules g player src dest item srcItem none splitedAmount b =
          (true, { chargeSlots g player src dest b with items := items }) := by
  rw [doItemsMove]
  cases canStore rules g b.items dest srcItem (Option.isSome (none : Option Item)) with
  | none => exact ⟨b.items, Or.inl rfl⟩
  | some destVec =>
    obtain ⟨items, hremoved⟩ := removeItem_eq g player src dest item splitedAmount b
    rw [hremoved]
    exact ⟨_, Or.inr rfl⟩

/-- A swap that is carried out or not. -/
theorem doItemsMove_some (player : Guid) (src dest : Place) (item srcItem swapped : Item)
    (splitedAmount : ℕ) (b : Bank) : ∃ items,
      doItemsMove rules g player src dest item srcItem (some swapped) splitedAmount b = (false, b) ∨
        doItemsMove rules g player src dest item srcItem (some swapped) splitedAmount b =
          (true, { chargeSlots g player dest src (chargeSlots g player src dest b) with
            items := items }) := by
  rw [doItemsMove]
  cases canStore rules g b.items dest srcItem (some swapped).isSome with
  | none => exact ⟨b.items, Or.inl rfl⟩
  | some destVec =>
    dsimp only
    cases canStore rules g b.items src swapped true with
    | none => exact ⟨b.items, Or.inl rfl⟩
    | some srcVec =>
      obtain ⟨items, hremoved⟩ := removeItem_eq g player src dest item splitedAmount b
      obtain ⟨items', hremoved'⟩ := removeItem_eq g player dest src swapped 0
        { chargeSlots g player src dest b with items := items }
      rw [hremoved, hremoved', chargeSlots_with]
      exact ⟨_, Or.inr rfl⟩

/-- What a move counts. -/
def chargeMove (g : Settings) (player : Guid) (src dest : Place) (b : Bank) : Outcome → Bank
  | .refused => b
  | .done => chargeSlots g player src dest b
  | .swapped => chargeSlots g player dest src (chargeSlots g player src dest b)

/-- **What a move can do**: apart from items and guids it does what it counts. It has the rights to take
an item and to store it when it moves one, and the rights for both when it swaps two. -/
structure MoveSpec (g : Settings) (player : Guid) (src dest : Place) (b : Bank) (result : Outcome × Bank) :
    Prop where
  charged : ∃ items, result.2 = { chargeMove g player src dest b result.1 with items := items }
  rights : result.1 ≠ .refused →
    hasStoreRights g player dest src = true ∧ hasWithdrawRights g player b src dest = true
  swapRights : result.1 = .swapped →
    hasStoreRights g player src dest = true ∧ hasWithdrawRights g player b dest src = true

theorem MoveSpec.refused (g : Settings) (player : Guid) (src dest : Place) (b : Bank) (items : Items) :
    MoveSpec g player src dest b (.refused, { b with items := items }) :=
  ⟨⟨items, rfl⟩, fun hno => absurd rfl hno, nofun⟩

theorem moveItems_spec (rules : Rules) (g : Settings) (player : Guid) (src dest : Place)
    (splitedAmount : ℕ) (b : Bank) :
    MoveSpec g player src dest b (moveItems rules g player src dest splitedAmount b) := by
  have hrefused := MoveSpec.refused g player src dest b
  rw [moveItems]
  cases initItem g b src with
  | none => exact hrefused b.items
  | some item =>
    dsimp only
    by_cases hamount : item.count < splitedAmount
    · rw [if_pos hamount]
      exact hrefused b.items
    rw [if_neg hamount]
    by_cases hrights : ¬ hasStoreRights g player dest src = true ∨
        ¬ hasWithdrawRights g player b src dest = true
    · rw [if_pos hrights]
      exact hrefused b.items
    rw [if_neg hrights]
    rw [not_or, not_not, not_not] at hrights
    by_cases hsplit : splitedAmount ≠ 0 ∧ splitedAmount ≠ item.count
    · rw [if_pos hsplit]
      obtain ⟨items, hmoved | hmoved⟩ := @doItemsMove_none rules g player src dest item
        (cloneItem item splitedAmount b).1 splitedAmount (cloneItem item splitedAmount b).2
      · rw [hmoved]
        exact hrefused _
      · rw [hmoved, cloneItem, chargeSlots_with]
        exact ⟨⟨items, rfl⟩, fun _ => hrights, fun hno => by cases hno⟩
    rw [if_neg hsplit]
    obtain ⟨items, hmerged | hmerged⟩ := @doItemsMove_none rules g player src dest item item 0 b
    swap
    · rw [hmerged]
      exact ⟨⟨items, rfl⟩, fun _ => hrights, fun hno => by cases hno⟩
    rw [hmerged, if_neg Bool.false_ne_true]
    cases initItem g b dest with
    | none => exact hrefused b.items
    | some swapped =>
      dsimp only
      by_cases hrights' : ¬ hasStoreRights g player src dest = true ∨
          ¬ hasWithdrawRights g player b dest src = true
      · rw [if_pos hrights']
        exact hrefused b.items
      rw [if_neg hrights']
      rw [not_or, not_not, not_not] at hrights'
      obtain ⟨items, hmoved | hmoved⟩ := @doItemsMove_some rules g player src dest item item
        swapped 0 b
      · rw [hmoved]
        exact hrefused b.items
      · rw [hmoved]
        exact ⟨⟨items, rfl⟩, fun _ => hrights, fun _ => hrights'⟩

/-! ### The counters -/

/-- The limit of a rank, of a tab or of money. -/
def Settings.dailyLimit (g : Settings) (rankId tabId : ℕ) : ℤ :=
  if tabId = guildBankMaxTabs then g.rankBankMoneyPerDay rankId
  else g.rankBankTabSlotsPerDay rankId tabId

/-- The counters of the members stay within the limits of their ranks, and their purses within
theirs. -/
structure WithinLimits (g : Settings) (b : Bank) : Prop where
  counter : ∀ player member, g.guild.getMember player = some member →
    member.rankId ≠ grGuildmaster → ∀ tabId, 0 ≤ b.bankWithdraw player tabId ∧
      b.bankWithdraw player tabId ≤ g.dailyLimit member.rankId tabId
  purse : ∀ player ∈ g.guild.guids, b.purse player ≤ maxMoneyAmount

theorem int32_of_bounds {x : ℤ} (hnonneg : 0 ≤ x) (hlt : x < 2147483648) : int32 x = x := by
  exact Int.bmod_eq_of_le (by omega) (by omega)

theorem uint32_of_bounds {x : ℤ} (hnonneg : 0 ≤ x) (hlt : x < 2147483648) : uint32 x = x.toNat := by
  rw [uint32, Int.emod_eq_of_lt hnonneg (by omega)]

theorem Settings.Limited.money_bounds (h : g.Limited) (rankId : ℕ) :
    0 ≤ g.rankBankMoneyPerDay rankId ∧ g.rankBankMoneyPerDay rankId < 2147483648 ∧
      g.rankBankMoneyPerDay rankId ≤ g.bankMoneyPerDay rankId := by
  have hlimit := h.money rankId
  rw [Settings.rankBankMoneyPerDay]
  split_ifs
  · rw [int32_of_bounds (by omega) (by omega)]
    omega
  · omega

theorem Settings.Limited.slots_bounds (h : g.Limited) (rankId tabId : ℕ) :
    0 ≤ g.rankBankTabSlotsPerDay rankId tabId ∧
      g.rankBankTabSlotsPerDay rankId tabId < 2147483648 ∧
      g.rankBankTabSlotsPerDay rankId tabId ≤ g.tabSlots rankId tabId := by
  have hlimit := h.slots rankId tabId
  rw [Settings.rankBankTabSlotsPerDay]
  split_ifs
  · rw [int32_of_bounds (by omega) (by omega)]
    omega
  · omega

variable {tabId : ℕ}

section

variable (h : WithinLimits g b) (hmember : g.guild.getMember player = some member)
  (hrank : member.rankId ≠ grGuildmaster)
include h hmember hrank

theorem WithinLimits.tab (htab : tabId ≠ guildBankMaxTabs) :
    0 ≤ b.bankWithdraw player tabId ∧
      b.bankWithdraw player tabId ≤ g.rankBankTabSlotsPerDay member.rankId tabId := by
  have hcounter := h.counter player member hmember hrank tabId
  rwa [Settings.dailyLimit, if_neg htab] at hcounter

theorem WithinLimits.money :
    0 ≤ b.bankWithdraw player guildBankMaxTabs ∧
      b.bankWithdraw player guildBankMaxTabs ≤ g.rankBankMoneyPerDay member.rankId := by
  have hcounter := h.counter player member hmember hrank guildBankMaxTabs
  rwa [Settings.dailyLimit, if_pos rfl] at hcounter

end

/-- A right to withdraw from the tab: it can be seen, and there is something left for today. -/
theorem hasWithdrawRights_room (hlim : g.Limited) (h : WithinLimits g b)
    (hmember : g.guild.getMember player = some member) (hrank : member.rankId ≠ grGuildmaster)
    (hcross : crosses tabId place other = true)
    (hright : hasWithdrawRights g player b place other = true) :
    g.rankBankTabRights member.rankId tabId &&& guildBankRightViewTab ≠ 0 ∧
      b.bankWithdraw player tabId < g.rankBankTabSlotsPerDay member.rankId tabId := by
  obtain ⟨hbank, rfl, hsame⟩ := of_decide_eq_true hcross
  obtain ⟨holder, container, slot⟩ := place
  obtain rfl : holder = none := hbank
  rw [hasWithdrawRights, hsame, hmember, Bool.false_or, Option.any_some, decide_eq_true_iff,
    memberRemainingSlots, if_neg hrank, (mem_of_getMember hmember).2] at hright
  by_cases hview : g.rankBankTabRights member.rankId container.val &&& guildBankRightViewTab ≠ 0
  swap
  · rw [if_neg hview] at hright
    exact absurd rfl hright
  have htab : container.val ≠ guildBankMaxTabs := by
    intro htab
    refine hview ?_
    rw [Settings.rankBankTabRights, if_neg (fun hno => absurd hno.2 (Nat.not_lt.mpr htab.ge)),
      Nat.zero_and]
  have hcounter := h.tab hmember hrank htab
  have hslots := hlim.slots_bounds member.rankId container.val
  rw [int32_of_bounds (by omega) (by omega)] at hright
  dsimp only
  omega

/-- A right to store in the tab of a member who is not the guild master. -/
theorem hasStoreRights_deposit (hplain : g.Plain player member)
    (hcross : crosses tabId place other = true)
    (hright : hasStoreRights g player place other = true) :
    g.rankBankTabRights member.rankId tabId &&& guildBankRightDepositItem =
      guildBankRightDepositItem := by
  obtain ⟨hbank, rfl, hsame⟩ := of_decide_eq_true hcross
  obtain ⟨holder, container, slot⟩ := place
  obtain rfl : holder = none := hbank
  obtain ⟨hmember, hleader⟩ := hplain
  rw [Guild.isLeader, hmember, Option.any_some, Bool.or_eq_false_iff] at hleader
  rw [hasStoreRights, hsame, Bool.false_or, memberHasTabRights, hmember] at hright
  dsimp only at hright
  rw [hleader.2, Bool.false_or] at hright
  rcases Bool.or_eq_true_iff.mp hright with hno | hdeposit
  · exact absurd (of_decide_eq_true hno).symm (of_decide_eq_false hleader.1)
  · exact of_decide_eq_true hdeposit

theorem Settings.Plain.rank (h : g.Plain player member) : member.rankId ≠ grGuildmaster := by
  obtain ⟨hmember, hleader⟩ := h
  rw [Guild.isLeader, hmember, Option.any_some, Bool.or_eq_false_iff] at hleader
  exact of_decide_eq_false hleader.2

theorem chargeSlots_others (g : Settings) (place other : Place) (b : Bank) {guid : Guid}
    (h : guid ≠ player) :
    (chargeSlots g player place other b).bankWithdraw guid = b.bankWithdraw guid := by
  rw [chargeSlots]
  split_ifs
  · rw [updateMemberWithdrawSlots]
    cases g.guild.getMember player with
    | none => rfl
    | some member =>
      dsimp only
      split_ifs
      · exact update_of_ne h _ _
      · rfl
  · rfl

theorem chargeSlots_frame (g : Settings) (player : Guid) (place other : Place) (b : Bank) :
    (chargeSlots g player place other b).purse = b.purse ∧
      (chargeSlots g player place other b).text = b.text := by
  rw [chargeSlots]
  split_ifs
  · rw [updateMemberWithdrawSlots]
    cases g.guild.getMember player with
    | none => exact ⟨rfl, rfl⟩
    | some member =>
      dsimp only
      split_ifs
      · exact ⟨rfl, rfl⟩
      · exact ⟨rfl, rfl⟩
  · exact ⟨rfl, rfl⟩

/-- There is something left for today where something leaves its tab. -/
def Allowance (g : Settings) (b : Bank) (player : Guid) (member : Member) (place other : Place) : Prop :=
  ∀ tabId, crosses tabId place other = true → 0 ≤ b.bankWithdraw player tabId ∧
    b.bankWithdraw player tabId < g.rankBankTabSlotsPerDay member.rankId tabId

/-- Where there is room, a move out of a tab is counted. -/
theorem chargeSlots_counts (hlim : g.Limited) (hmember : g.guild.getMember player = some member)
    (hrank : member.rankId ≠ grGuildmaster) (hroom : Allowance g b player member place other) (tabId : ℕ) :
    (chargeSlots g player place other b).bankWithdraw player tabId =
      b.bankWithdraw player tabId + if crosses tabId place other then 1 else 0 := by
  rw [chargeSlots]
  by_cases hcharged : place.1 = none ∧ sameTab place other = false
  · have hcross : crosses place.2.1 place other = true :=
      decide_eq_true ⟨hcharged.1, rfl, hcharged.2⟩
    obtain ⟨hnonneg, hlt⟩ := hroom _ hcross
    have hslots := hlim.slots_bounds member.rankId place.2.1
    rw [if_pos hcharged, updateMemberWithdrawSlots, hmember]
    dsimp only
    have hcounted : int32 (b.bankWithdraw player place.2.1 + (1 : ℕ)) =
        b.bankWithdraw player place.2.1 + 1 := int32_of_bounds (by omega) (by omega)
    rw [if_pos ⟨hrank, hlt⟩, updateBankWithdrawValue, hcounted]
    dsimp only
    rw [update_self, update_apply]
    by_cases htab : tabId = place.2.1
    · rw [if_pos htab, htab, if_pos hcross]
    · rw [if_neg htab, if_neg (fun hno => htab (of_decide_eq_true hno).2.1.symm), add_zero]
  · rw [if_neg hcharged, if_neg, add_zero]
    intro hno
    obtain ⟨hbank, -, hsame⟩ := of_decide_eq_true hno
    exact hcharged ⟨hbank, hsame⟩

/-- Two places cannot cross the boundary of one tab in both directions. -/
theorem not_crosses_both (h : crosses tabId place other = true) :
    crosses tabId other place = false := by
  rw [Bool.eq_false_iff]
  intro hother
  obtain ⟨-, htab, hsame⟩ := of_decide_eq_true h
  obtain ⟨hbank, htab', -⟩ := of_decide_eq_true hother
  refine absurd (decide_eq_true ⟨hbank, ?_⟩) (Bool.eq_false_iff.mp hsame)
  exact Fin.ext (htab'.trans htab.symm)

variable {outcome : Outcome}

theorem chargeMove_others (g : Settings) (src dest : Place) (b : Bank) {guid : Guid}
    (h : guid ≠ player) :
    (chargeMove g player src dest b outcome).bankWithdraw guid = b.bankWithdraw guid := by
  have hsrc := chargeSlots_others g src dest b h
  cases outcome with
  | refused => rfl
  | done => exact hsrc
  | swapped => exact (chargeSlots_others g dest src _ h).trans hsrc

theorem chargeMove_frame (g : Settings) (player : Guid) (src dest : Place) (b : Bank) :
    (chargeMove g player src dest b outcome).purse = b.purse ∧
      (chargeMove g player src dest b outcome).text = b.text := by
  have hsrc := chargeSlots_frame g player src dest b
  have hdest := chargeSlots_frame g player dest src (chargeSlots g player src dest b)
  cases outcome with
  | refused => exact ⟨rfl, rfl⟩
  | done => exact hsrc
  | swapped => exact ⟨hdest.1.trans hsrc.1, hdest.2.trans hsrc.2⟩

/-- Every move out of a tab is counted. -/
theorem chargeMove_counts (hlim : g.Limited) (hmember : g.guild.getMember player = some member)
    (hrank : member.rankId ≠ grGuildmaster)
    (hsrc : outcome ≠ .refused → Allowance g b player member src dest)
    (hdest : outcome = .swapped → Allowance g b player member dest src) (tabId : ℕ) :
    (chargeMove g player src dest b outcome).bankWithdraw player tabId =
      b.bankWithdraw player tabId +
        if crosses tabId src dest && outcome ≠ .refused || crosses tabId dest src && outcome = .swapped
        then 1 else 0 := by
  cases outcome with
  | refused => simp [chargeMove]
  | done => simpa [chargeMove] using chargeSlots_counts hlim hmember hrank (hsrc nofun) tabId
  | swapped =>
    have hfirst := chargeSlots_counts hlim hmember hrank (hsrc nofun)
    -- the tab of the destination has not been charged yet
    have hroom : Allowance g (chargeSlots g player src dest b) player member dest src := by
      intro t hcross
      rw [hfirst, not_crosses_both hcross, if_neg Bool.false_ne_true, add_zero]
      exact hdest rfl t hcross
    rw [chargeMove, chargeSlots_counts hlim hmember hrank hroom, hfirst]
    cases hcross : crosses tabId src dest with
    | true => simp [not_crosses_both hcross]
    | false => simp

/-! ### Packets -/

/-- What a packet counts: each move out of a tab, and the money that is paid out; and there was
something left for it. -/
structure Counts (rules : Rules) (g : Settings) (b : Bank) (packet : Packet) : Prop where
  others : ∀ guid, guid ≠ packet.player →
    (handle rules g b packet).2.bankWithdraw guid = b.bankWithdraw guid
  room : ∀ member, g.guild.getMember packet.player = some member →
    member.rankId ≠ grGuildmaster → ∀ tabId, takesOut rules g tabId b packet = true →
      b.bankWithdraw packet.player tabId < g.rankBankTabSlotsPerDay member.rankId tabId
  tab : ∀ member, g.guild.getMember packet.player = some member → member.rankId ≠ grGuildmaster →
    ∀ tabId, tabId ≠ guildBankMaxTabs →
      (handle rules g b packet).2.bankWithdraw packet.player tabId =
        b.bankWithdraw packet.player tabId + if takesOut rules g tabId b packet then 1 else 0
  money : ∀ member, g.guild.getMember packet.player = some member →
    member.rankId ≠ grGuildmaster →
      b.bankWithdraw packet.player guildBankMaxTabs +
          gold rules g packet.player b packet ≤
        (handle rules g b packet).2.bankWithdraw packet.player guildBankMaxTabs ∧
      (handle rules g b packet).2.bankWithdraw packet.player guildBankMaxTabs ≤
        g.rankBankMoneyPerDay member.rankId
  purse : ∀ player ∈ g.guild.guids, (handle rules g b packet).2.purse player ≤ maxMoneyAmount

theorem takesOut_of_ends (h : packet.ends = none) (tabId : ℕ) :
    takesOut rules g tabId b packet = false := by
  rw [takesOut, h]

theorem bringsIn_of_ends (h : packet.ends = none) (tabId : ℕ) :
    bringsIn rules g tabId b packet = false := by
  rw [bringsIn, h]

theorem gold_eq_zero (h : (handle rules g b packet).2.purse packet.player ≤ b.purse packet.player)
    (guid : Guid) : gold rules g guid b packet = 0 := by
  rw [gold]
  split_ifs with hguid
  · rw [← hguid]
    exact Nat.sub_eq_zero_of_le h
  · rfl

/-- Money is counted where no tab is. -/
theorem takesOut_money (h : WithinLimits g b) (hmember : g.guild.getMember packet.player = some member)
    (hrank : member.rankId ≠ grGuildmaster)
    (hroom : ∀ tabId, takesOut rules g tabId b packet = true →
      b.bankWithdraw packet.player tabId < g.rankBankTabSlotsPerDay member.rankId tabId) :
    takesOut rules g guildBankMaxTabs b packet = false := by
  rw [Bool.eq_false_iff]
  intro hout
  have hlt := hroom guildBankMaxTabs hout
  rw [Settings.rankBankTabSlotsPerDay, if_neg (fun hno => absurd hno.2.2 (Nat.lt_irrefl _))] at hlt
  exact absurd hlt (not_lt.mpr (h.money hmember hrank).1)

/-- A packet that counts its moves only, and puts no money into a purse. -/
theorem Counts.of_tabs (h : WithinLimits g b)
    (hpurse : ∀ guid, (handle rules g b packet).2.purse guid ≤ b.purse guid)
    (hothers : ∀ guid, guid ≠ packet.player →
      (handle rules g b packet).2.bankWithdraw guid = b.bankWithdraw guid)
    (htab : ∀ member, g.guild.getMember packet.player = some member →
      member.rankId ≠ grGuildmaster → ∀ tabId,
      (takesOut rules g tabId b packet = true →
        b.bankWithdraw packet.player tabId < g.rankBankTabSlotsPerDay member.rankId tabId) ∧
      (handle rules g b packet).2.bankWithdraw packet.player tabId =
        b.bankWithdraw packet.player tabId + if takesOut rules g tabId b packet then 1 else 0) :
    Counts rules g b packet := by
  refine ⟨hothers, fun member hmember hrank tabId => (htab member hmember hrank tabId).1,
    fun member hmember hrank tabId _ => (htab member hmember hrank tabId).2,
    fun member hmember hrank => ?_, fun player hplayer => (hpurse player).trans (h.purse player hplayer)⟩
  have hnone := takesOut_money h hmember hrank fun tabId => (htab member hmember hrank tabId).1
  rw [(htab member hmember hrank guildBankMaxTabs).2, hnone, if_neg Bool.false_ne_true, add_zero,
    gold_eq_zero (hpurse _)]
  exact ⟨(add_zero _).le, (h.money hmember hrank).2⟩

/-- Nothing is counted, no text changes, and no money goes into a purse. -/
structure Quiet (b b' : Bank) : Prop where
  bankWithdraw : b'.bankWithdraw = b.bankWithdraw
  text : b'.text = b.text
  purse : ∀ guid, b'.purse guid ≤ b.purse guid

theorem Quiet.refl (b : Bank) : Quiet b b := ⟨rfl, rfl, fun _ => le_rfl⟩

/-- A packet that neither counts nor moves anything, and puts no money into a purse. -/
theorem Counts.of_idle (h : WithinLimits g b) (hends : packet.ends = none)
    (hcounter : (handle rules g b packet).2.bankWithdraw = b.bankWithdraw)
    (hpurse : ∀ guid, (handle rules g b packet).2.purse guid ≤ b.purse guid) :
    Counts rules g b packet := by
  have hout := fun tabId => (@takesOut_of_ends rules g b packet) hends tabId
  refine Counts.of_tabs h hpurse (fun guid _ => by rw [hcounter])
    fun member _ _ tabId => ⟨fun hno => ?_, ?_⟩
  · exact absurd hno (Bool.not_eq_true _ ▸ hout tabId)
  · rw [hcounter, hout, if_neg Bool.false_ne_true, add_zero]

theorem Counts.of_quiet (h : WithinLimits g b) (hends : packet.ends = none)
    (hquiet : Quiet b (handle rules g b packet).2) : Counts rules g b packet :=
  Counts.of_idle h hends hquiet.bankWithdraw hquiet.purse

theorem handle_moveSpec (rules : Rules) (g : Settings) (b : Bank)
    (hends : packet.ends = some (src, dest)) :
    MoveSpec g packet.player src dest b (handle rules g b packet) := by
  rcases handle_move rules g b hends with hrefused | ⟨-, splitedAmount, hmoved⟩
  · rw [hrefused]
    exact MoveSpec.refused g _ src dest b b.items
  · rw [hmoved]
    exact moveItems_spec rules g packet.player src dest splitedAmount b

section

variable (hends : packet.ends = some (src, dest))
include hends

theorem takesOut_eq (tabId : ℕ) :
    takesOut rules g tabId b packet = (crosses tabId src dest && (handle rules g b packet).1 ≠ .refused ||
      crosses tabId dest src && (handle rules g b packet).1 = .swapped) := by
  rw [takesOut, hends]

theorem takesOut_iff :
    takesOut rules g tabId b packet = true ↔
      crosses tabId src dest = true ∧ (handle rules g b packet).1 ≠ .refused ∨
        crosses tabId dest src = true ∧ (handle rules g b packet).1 = .swapped := by
  rw [takesOut_eq hends]
  simp

theorem bringsIn_iff :
    bringsIn rules g tabId b packet = true ↔
      crosses tabId dest src = true ∧ (handle rules g b packet).1 ≠ .refused ∨
        crosses tabId src dest = true ∧ (handle rules g b packet).1 = .swapped := by
  rw [bringsIn, hends]
  simp

end

section

variable (hlim : g.Limited) (h : WithinLimits g b)
include hlim h

/-- There is room for what a move takes out of a tab. -/
theorem room_of_right
    (hmember : g.guild.getMember player = some member) (hrank : member.rankId ≠ grGuildmaster)
    (hright : hasWithdrawRights g player b place other = true) : Allowance g b player member place other :=
  fun tabId hcross => ⟨(h.counter player member hmember hrank tabId).1,
    (hasWithdrawRights_room hlim h hmember hrank hcross hright).2⟩

/-- Every move out of a tab is counted. -/
theorem Counts.of_move (hends : packet.ends = some (src, dest)) : Counts rules g b packet := by
  have hspec := handle_moveSpec rules g b hends
  obtain ⟨items, hbank⟩ := hspec.charged
  refine Counts.of_tabs h (fun guid => ?_) (fun guid hguid => ?_) fun member hmember hrank tabId => ?_
  · rw [hbank]
    exact (congrFun (chargeMove_frame g packet.player src dest b).1 guid).le
  · rw [hbank]
    exact chargeMove_others g src dest b hguid
  · have hsrc := fun hmoved => room_of_right hlim h hmember hrank (hspec.rights hmoved).2
    have hdest := fun hswapped => room_of_right hlim h hmember hrank (hspec.swapRights hswapped).2
    refine ⟨fun hout => ?_, ?_⟩
    · rcases (takesOut_iff hends).mp hout with ⟨hcross, hmoved⟩ | ⟨hcross, hswapped⟩
      · exact (hsrc hmoved tabId hcross).2
      · exact (hdest hswapped tabId hcross).2
    · rw [hbank, takesOut_eq hends]
      exact chargeMove_counts hlim hmember hrank hsrc hdest tabId

/-! ### Money -/

/-- What is left of the limit of money, and nothing without the rights. -/
theorem remaining_money
    (hmember : g.guild.getMember player = some member) (hrank : member.rankId ≠ grGuildmaster) :
    (uint32 (memberRemainingMoney g b member) : ℤ) ≤
      g.rankBankMoneyPerDay member.rankId - b.bankWithdraw player guildBankMaxTabs := by
  obtain ⟨hnonneg, hle⟩ := h.money hmember hrank
  have hlimit := hlim.money_bounds member.rankId
  rw [memberRemainingMoney, if_neg hrank, (mem_of_getMember hmember).2]
  split_ifs
  · rw [int32_of_bounds (by omega) (by omega), max_eq_right (by omega),
      uint32_of_bounds (by omega) (by omega)]
    omega
  · rw [uint32_of_bounds le_rfl (by omega)]
    omega

end

/-- What is put into a purse, and what stays as it is. -/
theorem modifyMoney_purse (player : Guid) (amount : ℕ) (b : Bank) :
    (modifyMoney player amount b).2.bankWithdraw = b.bankWithdraw ∧
      (modifyMoney player amount b).2.text = b.text ∧
      (modifyMoney player amount b).2.purse player ≤ b.purse player + amount ∧
      ∀ guid, b.purse guid ≤ maxMoneyAmount →
        (modifyMoney player amount b).2.purse guid ≤ maxMoneyAmount := by
  by_cases hzero : amount = 0
  · rw [modifyMoney, if_pos (by omega)]
    exact ⟨rfl, rfl, Nat.le_add_right _ _, fun guid h => h⟩
  rw [modifyMoney_give b hzero]
  split_ifs with hlimit
  · refine ⟨rfl, rfl, ?_, fun guid h => ?_⟩
    · dsimp only
      rw [update_self]
    · dsimp only
      rw [update_apply]
      split_ifs
      · exact hlimit.le
      · exact h
  · exact ⟨rfl, rfl, Nat.le_add_right _ _, fun guid h => h⟩

variable {amount : ℕ} {b' : Bank}

/-- Money that is paid out is counted. -/
theorem Counts.of_pay (hlim : g.Limited) (h : WithinLimits g b) (hends : packet.ends = none)
    (hpay : (handle rules g b packet).2 = payOut packet.player amount b')
    (hcounter : b'.bankWithdraw = b.bankWithdraw)
    (hgold : b'.purse packet.player ≤ b.purse packet.player + amount)
    (hpurse : ∀ player ∈ g.guild.guids, b'.purse player ≤ maxMoneyAmount)
    (hremaining : ∀ member, g.guild.getMember packet.player = some member →
      member.rankId ≠ grGuildmaster → amount ≤ uint32 (memberRemainingMoney g b member)) :
    Counts rules g b packet := by
  have hafter : (handle rules g b packet).2.bankWithdraw =
      Function.update b.bankWithdraw packet.player (Function.update (b.bankWithdraw packet.player)
        guildBankMaxTabs (int32 (b.bankWithdraw packet.player guildBankMaxTabs + amount))) := by
    rw [hpay, ← hcounter]
    rfl
  have hpurse' : (handle rules g b packet).2.purse = b'.purse := by
    rw [hpay]
    rfl
  refine ⟨fun guid hguid => ?_, fun member hmember hrank tabId hno => ?_,
    fun member hmember hrank tabId htab => ?_, fun member hmember hrank => ?_,
    fun player hplayer => ?_⟩
  · rw [hafter, update_of_ne hguid]
  · exact absurd hno (Bool.not_eq_true _ ▸ takesOut_of_ends hends tabId)
  · rw [hafter, update_self, update_of_ne htab, takesOut_of_ends hends,
      if_neg Bool.false_ne_true, add_zero]
  · have hleft := remaining_money hlim h hmember hrank
    have hamount := hremaining member hmember hrank
    have hlimit := hlim.money_bounds member.rankId
    obtain ⟨hnonneg, -⟩ := h.money hmember hrank
    rw [hafter, update_self, update_self,
      int32_of_bounds (by omega) (by omega), gold, if_pos rfl, hpurse']
    omega
  · rw [hpurse']
    exact hpurse player hplayer

/-- A withdrawal, for gold or for repairs. -/
theorem Counts.of_withdraw (hlim : g.Limited) (h : WithinLimits g b) (hends : packet.ends = none)
    {money : ℕ} {repair : Bool}
    (hpacket : handle rules g b packet = handleMemberWithdrawMoney g packet.player money repair b) :
    Counts rules g b packet := by
  rcases handleMemberWithdrawMoney_cases g packet.player money repair b with hrefused |
    ⟨member, hmember, -, hleft, ⟨-, hdone⟩ | ⟨-, -, hdone⟩⟩
  · exact Counts.of_quiet h hends (by rw [hpacket, hrefused]; exact Quiet.refl b)
  · rw [hdone] at hpacket
    refine Counts.of_pay hlim h hends (congrArg Prod.snd hpacket) rfl (Nat.le_add_right _ _) h.purse
      fun other hother _ => ?_
    obtain rfl := Option.some.inj (hmember.symm.trans hother)
    exact hleft
  · rw [hdone] at hpacket
    obtain ⟨hcounter, -, hgold, hlimit⟩ := modifyMoney_purse packet.player
      (min money maxMoneyAmount) b
    refine Counts.of_pay hlim h hends (congrArg Prod.snd hpacket) hcounter hgold
      (fun player hplayer => hlimit player (h.purse player hplayer)) fun other hother _ => ?_
    obtain rfl := Option.some.inj (hmember.symm.trans hother)
    exact hleft

/-- A deposit takes from the purse. -/
theorem deposit_quiet (h : WithinLimits g b) (hplayer : player ∈ g.guild.guids)
    (hamount : amount ≤ b.purse player) : Quiet b (handleMemberDepositMoney player amount b).2 := by
  rw [handleMemberDepositMoney]
  split_ifs
  · exact ⟨rfl, rfl, fun _ => le_rfl⟩
  rw [int32_of_le (hamount.trans (h.purse player hplayer))]
  by_cases hzero : amount = 0
  · rw [modifyMoney, if_pos (by omega)]
    exact ⟨rfl, rfl, fun _ => le_rfl⟩
  · rw [@modifyMoney_take { b with bankMoney := b.bankMoney + amount } player amount hzero hamount]
    refine ⟨rfl, rfl, fun guid => ?_⟩
    dsimp only
    rw [update_apply]
    split_ifs with hguid
    · rw [hguid]
      exact Nat.sub_le _ _
    · exact le_rfl

theorem handle_depositMoney (rules : Rules) (h : WithinLimits g b) (player : Guid) (amount : ℕ) :
    Quiet b (handle rules g b (.depositMoney player amount)).2 := by
  rcases handle_eq rules g b (.depositMoney player amount) with hrefused | ⟨hplayer, hpacket⟩
  · rw [hrefused]
    exact Quiet.refl b
  · rw [hpacket, dispatch]
    split_ifs with hamount
    · exact deposit_quiet h hplayer hamount.2
    · exact Quiet.refl b

theorem handle_updateTab (rules : Rules) (g : Settings) (b : Bank) (player : Guid) (tabId : ℕ)
    (name icon : String) : Quiet b (handle rules g b (.updateTab player tabId name icon)).2 := by
  rcases handle_eq rules g b (.updateTab player tabId name icon) with hrefused | ⟨-, hpacket⟩
  · rw [hrefused]
    exact Quiet.refl b
  · rw [hpacket, dispatch, handleSetBankTabInfo]
    split_ifs
    · exact Quiet.refl b
    · exact ⟨rfl, rfl, fun _ => le_rfl⟩
    · exact Quiet.refl b

theorem setBankTabText_frame (g : Settings) (tabId : ℕ) (text : String) (b : Bank) :
    (setBankTabText g tabId text b).bankWithdraw = b.bankWithdraw ∧
      (setBankTabText g tabId text b).purse = b.purse := by
  rw [setBankTabText]
  split_ifs
  · exact ⟨rfl, rfl⟩
  · exact ⟨rfl, rfl⟩

/-- **Every packet counts what it takes.** -/
theorem WithinLimits.counts (rules : Rules) (hlim : g.Limited) (h : WithinLimits g b)
    (packet : Packet) : Counts rules g b packet := by
  cases hends : packet.ends with
  | some ends => exact Counts.of_move hlim h hends
  | none =>
    rcases handle_eq rules g b packet with hrefused | ⟨-, hpacket⟩
    · exact Counts.of_quiet h hends (by rw [hrefused]; exact Quiet.refl b)
    cases packet with
    | swapItems => cases hends
    | swapItemsWithInventory player autoStore toChar =>
      rw [Packet.ends] at hends
      split_ifs at hends
    | depositMoney player amount => exact Counts.of_quiet h hends (handle_depositMoney rules h player amount)
    | withdrawMoney player amount =>
      rw [dispatch] at hpacket
      by_cases hamount : amount ≠ 0
      · rw [if_pos hamount] at hpacket
        exact Counts.of_withdraw hlim h hends hpacket
      · rw [if_neg hamount] at hpacket
        exact Counts.of_quiet h hends (by rw [hpacket]; exact Quiet.refl b)
    | repair player cost => exact Counts.of_withdraw hlim h hends hpacket
    | setTabText player tabId text =>
      obtain ⟨hcounter, hpurse⟩ := setBankTabText_frame g tabId text b
      exact Counts.of_idle h hends (by rw [hpacket]; exact hcounter)
        (fun guid => by rw [hpacket]; exact (congrFun hpurse guid).le)
    | updateTab player tabId name icon =>
      exact Counts.of_quiet h hends (handle_updateTab rules g b player tabId name icon)

/-- **The counters stay within the limits.** -/
theorem WithinLimits.handle (rules : Rules) (hlim : g.Limited) (h : WithinLimits g b)
    (packet : Packet) : WithinLimits g (handle rules g b packet).2 := by
  have hcounts := h.counts rules hlim packet
  refine ⟨fun player member hmember hrank tabId => ?_, hcounts.purse⟩
  by_cases hplayer : player = packet.player
  swap
  · rw [hcounts.others player hplayer]
    exact h.counter player member hmember hrank tabId
  subst hplayer
  by_cases htab : tabId = guildBankMaxTabs
  · obtain ⟨hcounted, hle⟩ := hcounts.money member hmember hrank
    obtain ⟨hnonneg, -⟩ := h.money hmember hrank
    rw [htab, Settings.dailyLimit, if_pos rfl]
    omega
  · obtain ⟨hnonneg, hle⟩ := h.tab hmember hrank htab
    rw [Settings.dailyLimit, if_neg htab, hcounts.tab member hmember hrank tabId htab]
    split_ifs with hout
    · have hlt := hcounts.room member hmember hrank tabId hout
      omega
    · omega

/-! ### Days -/

/-- A packet with no effect on items, purses and texts is lawful. -/
theorem Lawful.of_frame (hends : packet.ends = none)
    (hpurse : ∀ guid, (handle rules g b packet).2.purse guid ≤ b.purse guid)
    (htext : (handle rules g b packet).2.text = b.text) : Lawful rules g b packet := by
  refine ⟨fun member _ hno => ?_, fun member _ tabId hno => ?_, fun member _ tabId hno => ?_,
    fun member _ tabId hno => ?_⟩
  · exact absurd hno (not_lt.mpr (hpurse _))
  · exact absurd hno (Bool.not_eq_true _ ▸ takesOut_of_ends hends tabId)
  · exact absurd hno (Bool.not_eq_true _ ▸ bringsIn_of_ends hends tabId)
  · exact absurd (congrFun htext tabId) hno

theorem Lawful.of_quiet (hends : packet.ends = none) (h : Quiet b (handle rules g b packet).2) :
    Lawful rules g b packet := Lawful.of_frame hends h.purse h.text

/-- **Moves of items are lawful.** -/
theorem Lawful.of_move (hlim : g.Limited) (h : WithinLimits g b)
    (hends : packet.ends = some (src, dest)) : Lawful rules g b packet := by
  have hspec := handle_moveSpec rules g b hends
  obtain ⟨items, hbank⟩ := hspec.charged
  obtain ⟨hpurse, htext⟩ := @chargeMove_frame (handle rules g b packet).1 g packet.player src dest b
  refine ⟨fun member _ hno => ?_, fun member hplain tabId hout => ?_,
    fun member hplain tabId hin => ?_, fun member _ tabId hno => ?_⟩
  · rw [hbank] at hno
    exact absurd hno (congrFun hpurse _).le.not_gt
  · have hview := fun place other => @hasWithdrawRights_room g b packet.player member place other tabId
      hlim h hplain.1 hplain.rank
    rcases (takesOut_iff hends).mp hout with ⟨hcross, hmoved⟩ | ⟨hcross, hswapped⟩
    · exact (hview src dest hcross (hspec.rights hmoved).2).1
    · exact (hview dest src hcross (hspec.swapRights hswapped).2).1
  · rcases (bringsIn_iff hends).mp hin with ⟨hcross, hmoved⟩ | ⟨hcross, hswapped⟩
    · exact hasStoreRights_deposit hplain hcross (hspec.rights hmoved).1
    · exact hasStoreRights_deposit hplain hcross (hspec.swapRights hswapped).1
  · rw [hbank] at hno
    exact absurd (congrFun htext tabId) hno

end IscServer.Guilds
