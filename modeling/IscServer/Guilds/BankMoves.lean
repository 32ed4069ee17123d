import Mathlib
import IscServer.Guilds.BankItems
import IscServer.Guilds.GuildSound

/-!
# Moves of Items and of Money

`_MoveItems` takes the source item, or a part of it, out of its place and stores it, or swaps it
with the item in the destination. Deposits and withdrawals move money between the purses of the
members and the bank. Nothing is lost or duplicated by either, and what is refused changes nothing.

## Main results

* `moveItems_conserved` — a move of items conserves them.
* `bank_conserved` — the packets conserve the items, and every sequence of deposits and withdrawals
  conserves the money.
-/

namespace IscServer.Guilds

open List Function Option

variable {rules : Rules} {g : Settings} {items : Items} {item moved : Item} {player : Guid}
  {src dest place other : Place} {b : Bank} {vec : ItemPosCountVec}

/-! ### What is asked of a move -/

/-- The ends of a move: the bank at one of them, the bank or the player at the other. -/
structure Ends (player : Guid) (src dest : Place) : Prop where
  ne : src ≠ dest
  bank : src.1 = none ∨ dest.1 = none
  src_mem : src ∈ places player
  dest_mem : dest ∈ places player
  slot : dest.1 = none → dest.2.2.val < guildBankMaxSlots ∨ dest.2.2 = nullSlot

/-- The source item cannot be stored next to what is in the destination: the items are swapped. -/
def Swaps (rules : Rules) (g : Settings) (src dest : Place) (b : Bank) : Prop :=
  ∀ item, initItem g b src = some item → canStore rules g b.items dest item false = none

/-- **Items are conserved**: they are well-formed as before, the bank and the player have as many of
each entry, an item of a place other than the source stays there, unless it is the one in the
destination and is swapped, and the inventories of others are left alone. -/
structure Conserved (rules : Rules) (player : Guid) (src dest : Place) (swaps : Prop)
    (before after : Items) : Prop where
  wellFormed : WellFormed rules after
  total : ∀ entry, Guilds.total entry player after.held = Guilds.total entry player before.held
  kept : ∀ p d, before.held p = some d → p ≠ src →
    (∃ d', after.held p = some d' ∧ d'.guid = d.guid ∧ d'.entry = d.entry ∧ d.count ≤ d'.count) ∨
      p = dest ∧ swaps
  others : ∀ p, p ∉ places player → after.held p = before.held p

/-! ### Taking items -/

theorem Conserved.refl (h : WellFormed rules items) (player : Guid) (src dest : Place)
    (swaps : Prop) :
    Conserved rules player src dest swaps items items :=
  ⟨h, fun _ => rfl, fun _ d hd _ => Or.inl ⟨d, hd, rfl, rfl, le_rfl⟩, fun _ _ => rfl⟩

/-- What `InitItem` finds is in its place, in the bank in a slot of a tab. -/
theorem held_of_initItem (h : initItem g b place = some item) :
    b.items.held place = some item ∧ (place.1 = none → BankSlot g place) := by
  obtain ⟨holder, container, slot⟩ := place
  cases holder with
  | none =>
    rw [initItem, getItem] at h
    split_ifs at h with hslot
    exact ⟨h, fun _ => ⟨rfl, hslot.1, hslot.2⟩⟩
  | some guid =>
    refine ⟨?_, fun hno => by cases hno⟩
    rw [initItem] at h
    · exact (filter_eq_some_iff.mp h).1
    · rintro _ _ ⟨⟩

theorem updateMemberWithdrawSlots_items (g : Settings) (player : Guid) (tabId : ℕ) (b : Bank) :
    (updateMemberWithdrawSlots g player tabId b).items = b.items := by
  rw [updateMemberWithdrawSlots]
  split
  · rfl
  · split_ifs <;> rfl

theorem removeItem_items (g : Settings) (player : Guid) (place other : Place) (item : Item)
    (splitedAmount : ℕ) (b : Bank) :
    (removeItem g player place other item splitedAmount b).items =
      { b.items with
        held := Function.update b.items.held place
          (if splitedAmount = 0 then none
          else some { item with count := item.count - splitedAmount }) } := by
  rw [removeItem.eq_def]
  obtain ⟨holder, container, slot⟩ := place
  cases holder with
  | none =>
    dsimp only
    by_cases hsame : sameTab (none, container, slot) other = true
    · rw [if_pos hsame]
    · rw [if_neg hsame, updateMemberWithdrawSlots_items]
  | some guid => rfl

theorem WellFormed.take (h : WellFormed rules items) (place : Place) :
    WellFormed rules { items with held := Function.update items.held place none } := by
  have hold : ∀ p d, Function.update items.held place none p = some d → items.held p = some d := by
    intro p d hp
    by_cases heq : p = place
    · rw [heq, update_self] at hp
      cases hp
    · rwa [update_of_ne heq] at hp
  exact ⟨fun p d hp => h.stack p d (hold p d hp),
    fun p q d e hp hq => h.single p q d e (hold p d hp) (hold q e hq),
    fun p d hp => h.fresh p d (hold p d hp)⟩

/-- The item that is taken is in no place. -/
theorem WellFormed.unplaced (h : WellFormed rules items) (hplace : items.held place = some item) :
    Unplaced { items with held := Function.update items.held place none } item := by
  refine ⟨fun p d hp heq => ?_, h.fresh place item hplace⟩
  by_cases hpp : p = place
  · dsimp only at hp
    rw [hpp, update_self] at hp
    cases hp
  · dsimp only at hp
    rw [update_of_ne hpp] at hp
    exact hpp (h.single p place d item hp hplace heq)

theorem Unplaced.take (h : Unplaced items item) (place : Place) :
    Unplaced { items with held := Function.update items.held place none } item := by
  refine ⟨fun p d hp => ?_, h.known⟩
  by_cases hpp : p = place
  · dsimp only at hp
    rw [hpp, update_self] at hp
    cases hp
  · dsimp only at hp
    rw [update_of_ne hpp] at hp
    exact h.absent p d hp

/-! ### Moving without a swap -/

variable {x : Option Item}

/-- Something is taken from the source and stored. -/
theorem Conserved.of_store (hsrc : items.held src = some item) (hmem : src ∈ places player)
    {nextGuid : ℕ}
    (hwf : WellFormed rules ⟨Function.update items.held src x, nextGuid⟩)
    (hmoved : Unplaced ⟨Function.update items.held src x, nextGuid⟩ moved)
    (hfits : Fits rules (Function.update items.held src x) moved vec)
    (hplaces : ∀ p n, (p, n) ∈ vec → p ∈ places player)
    (hcount : ∀ entry, countOf entry (some item) =
      countOf entry x + if moved.entry = entry then moved.count else 0)
    (dest : Place) (swaps : Prop) :
    Conserved rules player src dest swaps items
      (storeItem rules moved vec ⟨Function.update items.held src x, nextGuid⟩) := by
  have hstores := storeItem_spec vec hwf hmoved hfits.nodup hfits.room
  have htouched : ∀ p, p ∈ vec.map Prod.fst → p ∈ places player := by
    intro p hp
    obtain ⟨⟨q, n⟩, hq, rfl⟩ := mem_map.mp hp
    exact hplaces q n hq
  refine ⟨hstores.wellFormed, fun entry => ?_, fun p d hp hne => ?_, fun p hp => ?_⟩
  · have htaken := Tally.tally_update hmem (countOf entry) items.held x
    have hstored := hstores.total player entry htouched
    rw [hfits.sum] at hstored
    have hsum := hcount entry
    rw [hsrc] at htaken
    simp only [Guilds.total] at hstored ⊢
    omega
  · left
    exact hstores.kept p d ((update_of_ne hne _ _).trans hp)
  · have hp' : p ∉ vec.map Prod.fst := fun hin => hp (htouched p hin)
    have hne : p ≠ src := by
      rintro rfl
      exact hp hmem
    rw [hstores.frame p hp']
    exact update_of_ne hne _ _

/-- Room that was found in the bank is there after the item has been taken. -/
theorem room_of_view (h : WellFormed rules items) (hsrc : items.held src = some item)
    (hx : ∀ d, x = some d → d.entry = item.entry ∧ d.count ≤ item.count)
    (hmoved : moved.guid = item.guid ∧ x = none ∨
      ∀ p d, items.held p = some d → d.guid ≠ moved.guid)
    {p : Place} (hp : BankSlot g p) {n : ℕ} (hroom : Room rules moved n (viewOf g items moved p)) :
    Room rules moved n (Function.update items.held src x p) := by
  obtain ⟨hpos, hle, hroom⟩ := hroom
  have hview : ∀ d, items.held p = some d → d.guid ≠ moved.guid →
      viewOf g items moved p = some d := by
    intro d hd hne
    rw [viewOf, getItem_of_bankSlot hp, hd, filter_some, if_pos (decide_eq_true hne)]
  refine ⟨hpos, hle, fun d hd => ?_⟩
  by_cases heq : p = src
  · rw [heq, update_self] at hd
    rcases hmoved with ⟨-, hnone⟩ | hnew
    · exact absurd (hnone.symm.trans hd) (some_ne_none d).symm
    · obtain ⟨hentry, hcount⟩ := hx d hd
      obtain ⟨hsame, hsum⟩ := hroom item (hview item (heq ▸ hsrc) (hnew src item hsrc))
      exact ⟨hentry.trans hsame, by omega⟩
  · rw [update_of_ne heq] at hd
    refine hroom d (hview d hd ?_)
    rcases hmoved with ⟨hguid, -⟩ | hnew
    · intro hsame
      exact heq (h.single p src d item hd hsrc (hsame.trans hguid))
    · exact hnew p d hd

section

variable (hrules : StoresFitting rules) (hends : Ends player src dest)
include hrules hends

/-- The positions that `CanStore` returns fit after the item has been taken from its place. -/
theorem canStore_fits (h : WellFormed rules items) (hsrc : items.held src = some item)
    (hx : ∀ d, x = some d → d.entry = item.entry ∧ d.count ≤ item.count)
    (hmoved : moved.guid = item.guid ∧ x = none ∨
      ∀ p d, items.held p = some d → d.guid ≠ moved.guid)
    (hcount : 0 < moved.count) (hmax : moved.count ≤ rules.maxStack moved.entry)
    (hstore : canStore rules g items dest moved false = some vec) :
    Fits rules (Function.update items.held src x) moved vec ∧
      ∀ p n, (p, n) ∈ vec → p ∈ places player := by
  have hdest := mem_places.mp hends.dest_mem
  obtain ⟨holder, container, slot⟩ := dest
  cases holder with
  | none =>
    obtain ⟨hfits, hslots⟩ := bankCanStore_fits hcount hmax (hends.slot rfl) hstore
    refine ⟨⟨hfits.nodup, hfits.sum, fun p n hp => ?_⟩, fun p n hp => ?_⟩
    · exact room_of_view h hsrc hx hmoved (hslots p n hp) (hfits.room p n hp)
    · exact mem_places.mpr (Or.inl (hslots p n hp).1)
  | some guid =>
    rw [canStore] at hstore
    swap
    · rintro _ _ ⟨⟩
    have hbank : src.1 = none := hends.bank.resolve_right (some_ne_none guid)
    obtain ⟨hfits, hholder⟩ := hrules items.held _ moved false vec rfl hstore
    refine ⟨⟨hfits.nodup, hfits.sum, fun p n hp => ?_⟩, fun p n hp => ?_⟩
    · have hne : p ≠ src := by
        rintro rfl
        exact absurd ((hholder p n hp).symm.trans hbank) (some_ne_none guid)
      rw [update_of_ne hne]
      exact hfits.room p n hp
    · rw [mem_places, hholder p n hp]
      exact hdest

/-- The whole item is stored next to what is in the destination. -/
theorem doItemsMove_whole (h : WellFormed rules b.items) (hsrc : b.items.held src = some item)
    (swaps : Prop) :
    Conserved rules player src dest swaps b.items
        (doItemsMove rules g player src dest item item none 0 b).2.items ∧
      ((doItemsMove rules g player src dest item item none 0 b).1 = false →
        canStore rules g b.items dest item false = none ∧
          (doItemsMove rules g player src dest item item none 0 b).2 = b) := by
  obtain ⟨hpos, hmax⟩ := h.stack src item hsrc
  rw [doItemsMove, isSome_none]
  cases hstore : canStore rules g b.items dest item false with
  | none => exact ⟨Conserved.refl h player src dest swaps, fun _ => ⟨rfl, rfl⟩⟩
  | some vec =>
    refine ⟨?_, fun hno => Bool.noConfusion hno⟩
    dsimp only
    rw [removeItem_items, if_pos rfl]
    have hx : ∀ d, (none : Option Item) = some d → d.entry = item.entry ∧ d.count ≤ item.count :=
      fun d hno => absurd hno (some_ne_none d).symm
    obtain ⟨hfits, hplaces⟩ := canStore_fits hrules hends h hsrc hx (Or.inl ⟨rfl, rfl⟩) hpos hmax
      hstore
    exact Conserved.of_store hsrc hends.src_mem (h.take src) (h.unplaced hsrc) hfits hplaces
      (fun entry => (Nat.zero_add _).symm) dest swaps

/-- A part of the stack is stored. -/
theorem doItemsMove_split (h : WellFormed rules b.items) (hsrc : b.items.held src = some item)
    {splitedAmount : ℕ}
    (hsplit : 0 < splitedAmount) (hlt : splitedAmount < item.count) (swaps : Prop) :
    Conserved rules player src dest swaps b.items
        (doItemsMove rules g player src dest item (cloneItem item splitedAmount b).1 none
          splitedAmount (cloneItem item splitedAmount b).2).2.items ∧
      ((doItemsMove rules g player src dest item (cloneItem item splitedAmount b).1 none
          splitedAmount (cloneItem item splitedAmount b).2).1 = false →
        (doItemsMove rules g player src dest item (cloneItem item splitedAmount b).1 none
          splitedAmount (cloneItem item splitedAmount b).2).2 =
            { b with items := { b.items with nextGuid := b.items.nextGuid + 1 } }) := by
  obtain ⟨hpos, hmax⟩ := h.stack src item hsrc
  have hclones : WellFormed rules (cloneItem item splitedAmount b).2.items :=
    ⟨h.stack, h.single, fun p d hp => Nat.lt_succ_of_lt (h.fresh p d hp)⟩
  rw [doItemsMove, isSome_none]
  cases hstore : canStore rules g (cloneItem item splitedAmount b).2.items dest
      (cloneItem item splitedAmount b).1 false with
  | none =>
    refine ⟨⟨hclones, fun _ => rfl, fun _ d hd _ => ?_, fun _ _ => rfl⟩, fun _ => rfl⟩
    exact Or.inl ⟨d, hd, rfl, rfl, le_rfl⟩
  | some vec =>
    refine ⟨?_, fun hno => Bool.noConfusion hno⟩
    dsimp only
    rw [removeItem_items, if_neg hsplit.ne']
    have hsrc' : (cloneItem item splitedAmount b).2.items.held src = some item := hsrc
    have hnew : ∀ p d, (cloneItem item splitedAmount b).2.items.held p = some d →
        d.guid ≠ (cloneItem item splitedAmount b).1.guid := fun p d hd => (h.fresh p d hd).ne
    have hx : ∀ d, some { item with count := item.count - splitedAmount } = some d →
        d.entry = item.entry ∧ d.count ≤ item.count := by
      intro d hd
      rw [← Option.some.inj hd]
      exact ⟨rfl, Nat.sub_le _ _⟩
    obtain ⟨hfits, hplaces⟩ := canStore_fits hrules hends hclones hsrc' hx (Or.inr hnew) hsplit
      (hlt.le.trans hmax) hstore
    refine Conserved.of_store hsrc hends.src_mem ?_ ?_ hfits hplaces ?_ dest swaps
    · refine hclones.update le_rfl ⟨by dsimp only; omega, by dsimp only; omega⟩ ?_
        (hclones.fresh src item hsrc')
      intro q e hq he heq
      exact hq (h.single q src e item he hsrc heq)
    · refine ⟨fun p d hp => ?_, Nat.lt_succ_self _⟩
      by_cases heq : p = src
      · dsimp only at hp
        rw [heq, update_self] at hp
        rw [← Option.some.inj hp]
        exact (h.fresh src item hsrc).ne
      · dsimp only at hp
        rw [update_of_ne heq] at hp
        exact hnew p d hp
    · intro entry
      change (if item.entry = entry then item.count else 0) =
        (if item.entry = entry then item.count - splitedAmount else 0) +
          if item.entry = entry then splitedAmount else 0
      split_ifs <;> omega

end

/-! ### Swapping -/

section

variable (hrules : StoresFitting rules)
include hrules

/-- The positions for one of two items that change places. -/
theorem canStore_swap {held : Place → Option Item} (hbank : place.1 = none → place.2.2 ≠ nullSlot)
    (hholders : place.1 = none ∨ other.1 = none) (hempty : held place = none)
    (hothers : ∀ p, p ≠ place → p ≠ other → held p = items.held p) (hcount : 0 < item.count)
    (hmax : item.count ≤ rules.maxStack item.entry)
    (hstore : canStore rules g items place item true = some vec) :
    Fits rules held item vec ∧ ∀ p n, (p, n) ∈ vec → p.1 = place.1 ∧ (place.1 = none → p = place) := by
  obtain ⟨holder, container, slot⟩ := place
  cases holder with
  | none =>
    rw [bankCanStore_swap hmax (hbank rfl) hstore]
    refine ⟨⟨nodup_singleton _, sum_singleton, fun p n hp => ?_⟩, fun p n hp => ?_⟩
    · obtain ⟨rfl, rfl⟩ := Prod.mk.inj (mem_singleton.mp hp)
      rw [hempty]
      exact ⟨hcount, hmax, fun d hno => absurd hno (some_ne_none d).symm⟩
    · obtain ⟨rfl, rfl⟩ := Prod.mk.inj (mem_singleton.mp hp)
      exact ⟨rfl, fun _ => rfl⟩
  | some guid =>
    rw [canStore] at hstore
    swap
    · rintro _ _ ⟨⟩
    have hother : other.1 = none := hholders.resolve_left (some_ne_none guid)
    obtain ⟨hfits, hholder⟩ := hrules items.held _ item true vec rfl hstore
    rw [if_pos rfl] at hfits
    refine ⟨⟨hfits.nodup, hfits.sum, fun p n hp => ?_⟩, fun p n hp => ⟨hholder p n hp, ?_⟩⟩
    · have hroom := hfits.room p n hp
      have hne : p ≠ other := by
        rintro rfl
        exact absurd ((hholder p n hp).symm.trans hother) (some_ne_none guid)
      by_cases heq : p = (some guid, container, slot)
      · rw [heq, update_self] at hroom
        rw [heq, hempty]
        exact hroom
      · rw [update_of_ne heq] at hroom
        rw [hothers p heq hne]
        exact hroom
    · exact fun hno => absurd hno (some_ne_none guid)

/-- Both items are taken and stored again, each in the place of the other. -/
theorem conserved_of_swap (hends : Ends player src dest)
    (h : WellFormed rules items) (hsrc : items.held src = some item) {swapped : Item}
    (hdest : items.held dest = some swapped) (hsrcNull : src.1 = none → src.2.2 ≠ nullSlot)
    (hdestNull : dest.1 = none → dest.2.2 ≠ nullSlot) {destVec srcVec : ItemPosCountVec}
    (hstore : canStore rules g items dest item true = some destVec)
    (hstore' : canStore rules g items src swapped true = some srcVec)
    {swaps : Prop} (hswaps : swaps) :
    Conserved rules player src dest swaps items
      (storeItem rules swapped srcVec (storeItem rules item destVec
        ⟨Function.update (Function.update items.held src none) dest none, items.nextGuid⟩)) := by
  obtain ⟨hpos, hmax⟩ := h.stack src item hsrc
  obtain ⟨hpos', hmax'⟩ := h.stack dest swapped hdest
  have hguid : item.guid ≠ swapped.guid := fun heq =>
    hends.ne (h.single src dest item swapped hsrc hdest heq)
  have hdest' : Function.update items.held src none dest = some swapped :=
    (update_of_ne hends.ne.symm _ _).trans hdest
  -- both places are empty, and both items in none
  have hempty := (h.take src).take dest
  have hitem : Unplaced ⟨Function.update (Function.update items.held src none) dest none,
      items.nextGuid⟩ item := (h.unplaced hsrc).take dest
  have hother : Unplaced ⟨Function.update (Function.update items.held src none) dest none,
      items.nextGuid⟩ swapped := @WellFormed.unplaced rules _ swapped dest (h.take src) hdest'
  generalize hheld : Function.update (Function.update items.held src none) dest none = held
    at hempty hitem hother ⊢
  have hsrcNone : held src = none := by
    rw [← hheld, update_of_ne hends.ne, update_self]
  have hdestNone : held dest = none := by
    rw [← hheld, update_self]
  have hrest : ∀ p, p ≠ src → p ≠ dest → held p = items.held p := by
    intro p hp hp'
    rw [← hheld, update_of_ne hp', update_of_ne hp]
  obtain ⟨hfits, hplaces⟩ := canStore_swap hrules hdestNull hends.bank.symm hdestNone
    (fun p hp hp' => hrest p hp' hp) hpos hmax hstore
  obtain ⟨hfits', hplaces'⟩ := canStore_swap hrules hsrcNull hends.bank hsrcNone hrest hpos' hmax'
    hstore'
  have hstores := storeItem_spec destVec hempty hitem hfits.nodup hfits.room
  -- the positions of one item are not those of the other
  have hdisjoint : ∀ p n, (p, n) ∈ srcVec → p ∉ destVec.map Prod.fst := by
    intro p n hp hin
    obtain ⟨⟨q, m⟩, hq, rfl⟩ := mem_map.mp hin
    obtain ⟨hholder, hexact⟩ := hplaces q m hq
    obtain ⟨hholder', hexact'⟩ := hplaces' q n hp
    rcases hends.bank with hbank | hbank
    · have hdestBank : dest.1 = none := hholder.symm.trans (hholder'.trans hbank)
      exact hends.ne ((hexact' hbank).symm.trans (hexact hdestBank))
    · have hsrcBank : src.1 = none := hholder'.symm.trans (hholder.trans hbank)
      exact hends.ne ((hexact' hsrcBank).symm.trans (hexact hbank))
  have hunplaced : Unplaced (storeItem rules item destVec ⟨held, items.nextGuid⟩) swapped := by
    refine ⟨fun p d hp heq => ?_, hother.known.trans_le hstores.guids⟩
    rcases hstores.origin p d hp with ⟨d', hd', hguid'⟩ | hsame | hnew
    · exact hother.absent p d' hd' (hguid'.trans heq)
    · exact hguid (hsame.symm.trans heq)
    · exact absurd (heq ▸ hother.known) (Nat.not_lt.mpr hnew)
  have hstores' := storeItem_spec srcVec hstores.wellFormed hunplaced hfits'.nodup (by
    intro p n hp
    rw [hstores.frame p (hdisjoint p n hp)]
    exact hfits'.room p n hp)
  have htouched : ∀ p, p ∈ destVec.map Prod.fst → p ∈ places player := by
    intro p hp
    obtain ⟨⟨q, n⟩, hq, rfl⟩ := mem_map.mp hp
    rw [mem_places, (hplaces q n hq).1]
    exact mem_places.mp hends.dest_mem
  have htouched' : ∀ p, p ∈ srcVec.map Prod.fst → p ∈ places player := by
    intro p hp
    obtain ⟨⟨q, n⟩, hq, rfl⟩ := mem_map.mp hp
    rw [mem_places, (hplaces' q n hq).1]
    exact mem_places.mp hends.src_mem
  refine ⟨hstores'.wellFormed, fun entry => ?_, fun p d hp hne => ?_, fun p hp => ?_⟩
  · have hfirst := Tally.tally_update hends.src_mem (countOf entry) items.held none
    have hsecond := Tally.tally_update hends.dest_mem (countOf entry)
      (Function.update items.held src none) none
    have hstored := hstores.total player entry htouched
    have hstored' := hstores'.total player entry htouched'
    rw [hfits.sum] at hstored
    rw [hfits'.sum] at hstored'
    rw [hsrc] at hfirst
    rw [hheld, hdest'] at hsecond
    simp only [Guilds.total] at hstored hstored' ⊢
    simp only [countOf] at hfirst hsecond
    omega
  · by_cases hpd : p = dest
    · exact Or.inr ⟨hpd, hswaps⟩
    · left
      obtain ⟨d', hd', hguid', hentry, hle⟩ := hstores.kept p d ((hrest p hne hpd).trans hp)
      obtain ⟨d'', hd'', hguid'', hentry', hle'⟩ := hstores'.kept p d' hd'
      exact ⟨d'', hd'', hguid''.trans hguid', hentry'.trans hentry, hle.trans hle'⟩
  · have hps : p ≠ src := by
      rintro rfl
      exact hp hends.src_mem
    have hpd : p ≠ dest := by
      rintro rfl
      exact hp hends.dest_mem
    rw [hstores'.frame p fun hin => hp (htouched' p hin),
      hstores.frame p fun hin => hp (htouched p hin)]
    exact hrest p hps hpd

/-- Two items change places. -/
theorem doItemsMove_swap (hends : Ends player src dest)
    (h : WellFormed rules b.items) (hsrc : initItem g b src = some item) {swapped : Item}
    (hdest : initItem g b dest = some swapped) {swaps : Prop} (hswaps : swaps) :
    Conserved rules player src dest swaps b.items
        (doItemsMove rules g player src dest item item (some swapped) 0 b).2.items ∧
      ((doItemsMove rules g player src dest item item (some swapped) 0 b).1 = false →
        (doItemsMove rules g player src dest item item (some swapped) 0 b).2 = b) := by
  obtain ⟨hheld, hslot⟩ := held_of_initItem hsrc
  obtain ⟨hheld', hslot'⟩ := held_of_initItem hdest
  have hnull : ∀ p : Place, BankSlot g p → p.2.2 ≠ nullSlot := by
    rintro ⟨holder, container, slot⟩ ⟨-, -, hlt⟩ rfl
    exact absurd hlt (show ¬ 255 < 98 by decide)
  rw [doItemsMove, isSome_some]
  cases hstore : canStore rules g b.items dest item true with
  | none => exact ⟨Conserved.refl h player src dest swaps, fun _ => rfl⟩
  | some destVec =>
    dsimp only
    cases hstore' : canStore rules g b.items src swapped true with
    | none => exact ⟨Conserved.refl h player src dest swaps, fun _ => rfl⟩
    | some srcVec =>
      refine ⟨?_, fun hno => Bool.noConfusion hno⟩
      rw [removeItem_items, removeItem_items, if_pos rfl, if_pos rfl]
      exact conserved_of_swap hrules hends h hheld hheld' (fun hb => hnull src (hslot hb))
        (fun hb => hnull dest (hslot' hb)) hstore hstore' hswaps

end

/-! ### The moves -/

/-- What was refused: the places hold what they held, and the money is where it was. -/
structure Untouched (before after : Bank) : Prop where
  held : after.items.held = before.items.held
  bankMoney : after.bankMoney = before.bankMoney
  purse : after.purse = before.purse
  bankWithdraw : after.bankWithdraw = before.bankWithdraw

theorem Untouched.refl (b : Bank) : Untouched b b := ⟨rfl, rfl, rfl, rfl⟩

theorem refused_of_ofBool {ok : Bool} (h : Outcome.ofBool ok = .refused) : ok = false := by
  cases ok with
  | false => rfl
  | true => exact Outcome.noConfusion h

/-- **A move of items conserves them**, and one that stops at a check changes nothing. -/
theorem moveItems_conserved (hrules : StoresFitting rules) (hends : Ends player src dest)
    (h : WellFormed rules b.items) (splitedAmount : ℕ) :
    Conserved rules player src dest (Swaps rules g src dest b) b.items
        (moveItems rules g player src dest splitedAmount b).2.items ∧
      ((moveItems rules g player src dest splitedAmount b).1 = .refused →
        Untouched b (moveItems rules g player src dest splitedAmount b).2) := by
  have hstop : Conserved rules player src dest (Swaps rules g src dest b) b.items b.items ∧
      (Outcome.refused = .refused → Untouched b b) :=
    ⟨Conserved.refl h player src dest _, fun _ => Untouched.refl b⟩
  rw [moveItems]
  cases hsrc : initItem g b src with
  | none => exact hstop
  | some item =>
    obtain ⟨hheld, -⟩ := held_of_initItem hsrc
    dsimp only
    by_cases hamount : item.count < splitedAmount
    · rw [if_pos hamount]
      exact hstop
    rw [if_neg hamount]
    by_cases hrights : ¬ hasStoreRights g player dest src = true ∨
        ¬ hasWithdrawRights g player b src dest = true
    · rw [if_pos hrights]
      exact hstop
    rw [if_neg hrights]
    by_cases hsplit : splitedAmount ≠ 0 ∧ splitedAmount ≠ item.count
    · rw [if_pos hsplit]
      obtain ⟨hzero, hall⟩ := hsplit
      obtain ⟨hconserved, hrefused⟩ := @doItemsMove_split rules g item player src dest b hrules
        hends h hheld splitedAmount (Nat.pos_of_ne_zero hzero) (by omega)
        (Swaps rules g src dest b)
      refine ⟨hconserved, fun hno => ?_⟩
      rw [hrefused (refused_of_ofBool hno)]
      exact ⟨rfl, rfl, rfl, rfl⟩
    · rw [if_neg hsplit]
      obtain ⟨hconserved, hrefused⟩ := @doItemsMove_whole rules g item player src dest b hrules
        hends h hheld (Swaps rules g src dest b)
      by_cases hmerged : (doItemsMove rules g player src dest item item none 0 b).1 = true
      · rw [if_pos hmerged]
        exact ⟨hconserved, fun hno => Outcome.noConfusion hno⟩
      rw [if_neg hmerged]
      have hswaps : Swaps rules g src dest b := by
        intro other hother
        obtain rfl := Option.some.inj (hsrc.symm.trans hother)
        exact (hrefused (Bool.not_eq_true _ ▸ hmerged)).1
      cases hdest : initItem g b dest with
      | none => exact hstop
      | some swapped =>
        dsimp only
        by_cases hrights' : ¬ hasStoreRights g player src dest = true ∨
            ¬ hasWithdrawRights g player b dest src = true
        · rw [if_pos hrights']
          exact hstop
        rw [if_neg hrights']
        obtain ⟨hconserved, hrefused⟩ := doItemsMove_swap hrules hends h hsrc hdest hswaps
        refine ⟨hconserved, fun hno => ?_⟩
        split_ifs at hno with hmoved
        rw [hrefused (Bool.not_eq_true _ ▸ hmoved)]
        exact Untouched.refl b

local instance neZero_byte : NeZero 256 := ⟨by decide⟩

/-- The ends of the move that a packet asks for. -/
def Packet.ends : Packet → Option (Place × Place)
  | .swapItems _ tabId slotId destTabId destSlotId _ =>
    some ((none, tabId, slotId), (none, destTabId, destSlotId))
  | .swapItemsWithInventory player autoStore toChar tabId slotId playerBag playerSlotId _ =>
    if autoStore then some ((none, tabId, slotId), (some player, 0, nullSlot))
    else if toChar then some ((none, tabId, slotId), (some player, playerBag, playerSlotId))
    else some ((some player, playerBag, playerSlotId), (none, tabId, slotId))
  | _ => none

theorem bank_mem_places (player : Guid) (tabId slotId : Byte) :
    ((none, tabId, slotId) : Place) ∈ places player := mem_places.mpr (Or.inl rfl)

theorem inventory_mem_places (player : Guid) (bag slot : Byte) :
    ((some player, bag, slot) : Place) ∈ places player := mem_places.mpr (Or.inr rfl)

/-- A move between the bank and the player's bags, unless the slot or the tab is out of range. -/
theorem swapItemsWithInventory_move (rules : Rules) (g : Settings) (player : Guid) (toChar : Bool)
    (tabId slotId bag slot : Byte) (splitedAmount : ℕ) (b : Bank) {src dest : Place}
    (hsrc : src = if toChar then (none, tabId, slotId) else (some player, bag, slot))
    (hdest : dest = if toChar then (some player, bag, slot) else (none, tabId, slotId)) :
    swapItemsWithInventory rules g player toChar tabId slotId bag slot splitedAmount b =
        (.refused, b) ∨
      Ends player src dest ∧
        swapItemsWithInventory rules g player toChar tabId slotId bag slot splitedAmount b =
          moveItems rules g player src dest splitedAmount b := by
  rw [swapItemsWithInventory]
  by_cases hrefused : guildBankMaxSlots ≤ slotId.val ∧ slotId ≠ nullSlot ∨ g.tabs ≤ tabId.val
  · exact Or.inl (if_pos hrefused)
  rw [if_neg hrefused]
  subst hsrc hdest
  cases toChar with
  | true =>
    refine Or.inr ⟨⟨?_, Or.inl rfl, bank_mem_places player _ _, inventory_mem_places player _ _,
      fun hno => absurd hno (some_ne_none player)⟩, rfl⟩
    exact fun heq => absurd (congrArg Prod.fst heq) (some_ne_none player).symm
  | false =>
    refine Or.inr ⟨⟨?_, Or.inr rfl, inventory_mem_places player _ _, bank_mem_places player _ _,
      fun _ => ?_⟩, rfl⟩
    · exact fun heq => absurd (congrArg Prod.fst heq) (some_ne_none player)
    · obtain ⟨hslot, -⟩ := not_or.mp hrefused
      by_cases hlt : slotId.val < guildBankMaxSlots
      · exact Or.inl hlt
      · exact Or.inr (not_not.mp fun hne => hslot ⟨Nat.not_lt.mp hlt, hne⟩)

/-- A packet that moves items asks for one move, unless it is refused before. -/
theorem handle_move (rules : Rules) (g : Settings) (b : Bank) {packet : Packet} {src dest : Place}
    (hends : packet.ends = some (src, dest)) :
    handle rules g b packet = (.refused, b) ∨ Ends packet.player src dest ∧ ∃ splitedAmount,
      handle rules g b packet = moveItems rules g packet.player src dest splitedAmount b := by
  rw [handle]
  split_ifs
  swap
  · exact Or.inl rfl
  cases packet with
  | swapItems player tabId slotId destTabId destSlotId splitedAmount =>
    obtain ⟨rfl, rfl⟩ := Prod.mk.inj (Option.some.inj hends)
    rw [dispatch, swapItems]
    split_ifs with hrange hsame
    · exact Or.inl rfl
    · exact Or.inl rfl
    · refine Or.inr ⟨⟨fun heq => hsame (Prod.mk.inj (Prod.mk.inj heq).2), Or.inl rfl,
        bank_mem_places player _ _, bank_mem_places player _ _, fun _ => Or.inl ?_⟩,
        splitedAmount, rfl⟩
      simp only [not_or, not_le] at hrange
      exact hrange.2.2.2
  | swapItemsWithInventory player autoStore toChar tabId slotId playerBag playerSlotId splitedAmount =>
    rw [dispatch]
    rw [Packet.ends] at hends
    cases autoStore with
    | true =>
      obtain ⟨hsrc, hdest⟩ := Prod.mk.inj (Option.some.inj hends)
      exact (swapItemsWithInventory_move rules g player true tabId slotId 0 nullSlot 0 b hsrc.symm
        hdest.symm).imp_right fun ⟨hin, hmoved⟩ => ⟨hin, 0, hmoved⟩
    | false =>
      rw [if_neg Bool.false_ne_true] at hends ⊢
      split_ifs
      · exact Or.inl rfl
      refine (swapItemsWithInventory_move rules g player toChar tabId slotId playerBag
        playerSlotId splitedAmount b ?_ ?_).imp_right fun ⟨hin, hmoved⟩ => ⟨hin, splitedAmount, hmoved⟩
      · cases toChar
        · exact (Prod.mk.inj (Option.some.inj hends)).1.symm
        · exact (Prod.mk.inj (Option.some.inj hends)).1.symm
      · cases toChar
        · exact (Prod.mk.inj (Option.some.inj hends)).2.symm
        · exact (Prod.mk.inj (Option.some.inj hends)).2.symm
  | depositMoney player amount => cases hends
  | withdrawMoney player amount => cases hends
  | repair player cost => cases hends
  | setTabText player tabId text => cases hends
  | updateTab player tabId name icon => cases hends

/-- A packet that moves items conserves them. -/
theorem handle_conserved (hrules : StoresFitting rules) (h : WellFormed rules b.items)
    (packet : Packet) {src dest : Place} (hends : packet.ends = some (src, dest)) :
    Conserved rules packet.player src dest (Swaps rules g src dest b) b.items
        (handle rules g b packet).2.items ∧
      ((handle rules g b packet).1 = .refused → Untouched b (handle rules g b packet).2) := by
  rcases handle_move rules g b hends with hrefused | ⟨hin, splitedAmount, hmoved⟩
  · rw [hrefused]
    exact ⟨Conserved.refl h packet.player src dest _, fun _ => Untouched.refl b⟩
  · rw [hmoved]
    exact moveItems_conserved hrules hin h splitedAmount

/-! ### Money -/

/-- A packet that moves money between the purse of a member and the bank. -/
def Packet.Money : Packet → Prop
  | .depositMoney .. | .withdrawMoney .. => True
  | _ => False

/-- The money of the bank and of the members. -/
def wealth (g : Settings) (b : Bank) : ℕ :=
  b.bankMoney + Tally.tally g.guild.guids.toFinset id b.purse

/-- The bank keeps its limit, and the members theirs. -/
structure Solvent (g : Settings) (b : Bank) : Prop where
  bank : b.bankMoney ≤ guildBankMoneyLimit
  purse : ∀ player ∈ g.guild.guids, b.purse player ≤ maxMoneyAmount

theorem int32_of_le {x : ℕ} (h : x ≤ maxMoneyAmount) : int32 x = x := by
  unfold maxMoneyAmount at h
  refine Int.bmod_eq_of_le (by omega) (by omega)

/-- Money goes into a purse or out of it. -/
theorem wealth_update (g : Settings) (b : Bank) {player : Guid} (hplayer : player ∈ g.guild.guids)
    (bankMoney money : ℕ) (withdraw : Guid → ℕ → ℤ)
    (h : bankMoney + money = b.bankMoney + b.purse player) :
    wealth g { b with
      bankMoney := bankMoney
      purse := Function.update b.purse player money
      bankWithdraw := withdraw } = wealth g b := by
  have htally := Tally.tally_update (mem_toFinset.mpr hplayer) id b.purse money
  rw [wealth, wealth]
  dsimp only [id] at htally ⊢
  omega

theorem modifyMoney_take (b : Bank) {player : Guid} {amount : ℕ} (hzero : amount ≠ 0)
    (hamount : amount ≤ b.purse player) :
    modifyMoney player (-amount) b =
      (true, { b with purse := Function.update b.purse player (b.purse player - amount) }) := by
  have hvalue : (if -(-(amount : ℤ)) < b.purse player then
      ((b.purse player : ℤ) + -(amount : ℤ)).toNat else 0) = b.purse player - amount := by
    split_ifs <;> omega
  rw [modifyMoney, if_neg (by omega), if_pos (by omega), hvalue]

theorem modifyMoney_give (b : Bank) {player : Guid} {amount : ℕ} (hzero : amount ≠ 0) :
    modifyMoney player amount b =
      if b.purse player + amount < maxMoneyAmount then
        (true, { b with purse := Function.update b.purse player (b.purse player + amount) })
      else (false, b) := by
  have hvalue : ((b.purse player : ℤ) + (amount : ℤ)).toNat = b.purse player + amount := by omega
  rw [modifyMoney, if_neg (by omega), if_neg (by omega), hvalue]
  by_cases hlimit : b.purse player + amount < maxMoneyAmount
  · rw [if_pos hlimit, if_pos (by omega)]
  · rw [if_neg hlimit, if_neg (by omega)]

/-- What a withdrawal does when it is not refused. -/
theorem handleMemberWithdrawMoney_cases (g : Settings) (player : Guid) (money : ℕ) (repair : Bool)
    (b : Bank) : handleMemberWithdrawMoney g player money repair b = (.refused, b) ∨
      ∃ member, g.guild.getMember player = some member ∧
        min money maxMoneyAmount ≤ b.bankMoney ∧
        min money maxMoneyAmount ≤ uint32 (memberRemainingMoney g b member) ∧
        (repair = true ∧ handleMemberWithdrawMoney g player money repair b =
            (.done, payOut player (min money maxMoneyAmount) b) ∨
          repair = false ∧ (modifyMoney player (min money maxMoneyAmount : ℕ) b).1 = true ∧
            handleMemberWithdrawMoney g player money repair b =
              (.done, payOut player (min money maxMoneyAmount)
                (modifyMoney player (min money maxMoneyAmount : ℕ) b).2)) := by
  have hint : int32 (min money maxMoneyAmount : ℕ) = (min money maxMoneyAmount : ℕ) :=
    int32_of_le (Nat.min_le_right _ _)
  rw [handleMemberWithdrawMoney]
  by_cases hpoor : b.bankMoney < min money maxMoneyAmount
  · exact Or.inl (if_pos hpoor)
  rw [if_neg hpoor]
  cases hmember : g.guild.getMember player with
  | none => exact Or.inl rfl
  | some member =>
    dsimp only
    by_cases hspent : uint32 (memberRemainingMoney g b member) < min money maxMoneyAmount
    · exact Or.inl (if_pos hspent)
    rw [if_neg hspent, hint, (mem_of_getMember hmember).2]
    cases repair with
    | true =>
      exact Or.inr ⟨member, rfl, Nat.not_lt.mp hpoor, Nat.not_lt.mp hspent, Or.inl ⟨rfl, rfl⟩⟩
    | false =>
      by_cases hpaid : (modifyMoney player (min money maxMoneyAmount : ℕ) b).1 = true
      · rw [if_pos hpaid]
        exact Or.inr ⟨member, rfl, Nat.not_lt.mp hpoor, Nat.not_lt.mp hspent,
          Or.inr ⟨rfl, hpaid, rfl⟩⟩
      · exact Or.inl (if_neg hpaid)

/-- A packet of a member is dispatched, any other is refused. -/
theorem handle_eq (rules : Rules) (g : Settings) (b : Bank) (packet : Packet) :
    handle rules g b packet = (.refused, b) ∨
      packet.player ∈ g.guild.guids ∧ handle rules g b packet = dispatch rules g b packet := by
  rw [handle]
  cases hmember : g.guild.getMember packet.player with
  | none => exact Or.inl rfl
  | some member =>
    obtain ⟨hmem, hguid⟩ := mem_of_getMember hmember
    exact Or.inr ⟨hguid ▸ List.mem_map_of_mem hmem, rfl⟩

/-- What a payment does: the money stays in the guild, the limits hold, and a refusal changes
nothing. -/
structure Pays (g : Settings) (before : Bank) (after : Outcome × Bank) : Prop where
  solvent : Solvent g after.2
  wealth : Guilds.wealth g after.2 = Guilds.wealth g before
  refused : after.1 = .refused → after.2 = before

section

variable (h : Solvent g b)
include h

theorem Solvent.refuses : Pays g b (.refused, b) := ⟨h, rfl, fun _ => rfl⟩

theorem Solvent.deposit {player : Guid} (hplayer : player ∈ g.guild.guids)
    {amount : ℕ} (hzero : amount ≠ 0) (hamount : amount ≤ b.purse player) :
    Pays g b (handleMemberDepositMoney player amount b) := by
  have hpurse := h.purse player hplayer
  have hlimit : amount ≤ guildBankMoneyLimit := by
    unfold maxMoneyAmount at hpurse
    unfold guildBankMoneyLimit
    omega
  rw [handleMemberDepositMoney]
  split_ifs with hfull
  · exact h.refuses
  · have htaken := @modifyMoney_take { b with bankMoney := b.bankMoney + amount } player amount hzero
      hamount
    rw [int32_of_le (hamount.trans hpurse), htaken]
    refine ⟨⟨?_, fun other hother => ?_⟩, ?_, fun hno => Outcome.noConfusion hno⟩
    · dsimp only
      omega
    · dsimp only
      rw [update_apply]
      split_ifs
      · omega
      · exact h.purse other hother
    · refine wealth_update g b hplayer _ _ b.bankWithdraw ?_
      dsimp only
      omega

theorem Solvent.withdraw {player : Guid} {money : ℕ} (hzero : money ≠ 0) :
    Pays g b (handleMemberWithdrawMoney g player money false b) := by
  rcases handleMemberWithdrawMoney_cases g player money false b with hrefused |
    ⟨member, hmember, hbank, -, ⟨hno, -⟩ | ⟨-, hpaid, hdone⟩⟩
  · rw [hrefused]
    exact h.refuses
  · exact Bool.noConfusion hno
  have hpositive : min money maxMoneyAmount ≠ 0 := by
    unfold maxMoneyAmount
    omega
  obtain ⟨hmem, hguid⟩ := mem_of_getMember hmember
  rw [hdone]
  rw [modifyMoney_give b hpositive] at hpaid ⊢
  split_ifs at hpaid with hlimit
  rw [if_pos hlimit]
  refine ⟨⟨(Nat.sub_le _ _).trans h.bank, fun other hother => ?_⟩, ?_,
    fun hno => Outcome.noConfusion hno⟩
  · change Function.update b.purse player _ other ≤ maxMoneyAmount
    rw [update_apply]
    split_ifs
    · exact hlimit.le
    · exact h.purse other hother
  · refine wealth_update g b (hguid ▸ mem_map_of_mem hmem) _ _ _ ?_
    change b.bankMoney - min money maxMoneyAmount + (b.purse player + min money maxMoneyAmount) =
      b.bankMoney + b.purse player
    omega

/-- One deposit or withdrawal. -/
theorem Solvent.handle {packet : Packet} (hmoney : packet.Money) :
    Pays g b (handle rules g b packet) := by
  rcases handle_eq rules g b packet with hrefused | ⟨hplayer, hpacket⟩
  · rw [hrefused]
    exact h.refuses
  rw [hpacket]
  cases packet with
  | depositMoney player amount =>
    rw [dispatch]
    split_ifs with hamount
    · exact h.deposit hplayer hamount.1 hamount.2
    · exact h.refuses
  | withdrawMoney player amount =>
    rw [dispatch]
    split_ifs with hamount
    · exact h.withdraw hamount
    · exact h.refuses
  | swapItems => cases hmoney
  | swapItemsWithInventory => cases hmoney
  | repair => cases hmoney
  | setTabText => cases hmoney
  | updateTab => cases hmoney

end

/-- The bank after a sequence of packets. -/
def run (rules : Rules) (g : Settings) (b : Bank) (packets : List Packet) : Bank :=
  packets.foldl (fun b packet => (handle rules g b packet).2) b

/-- Every sequence of deposits and withdrawals. -/
theorem Solvent.run (h : Solvent g b) {packets : List Packet} (hmoney : ∀ p ∈ packets, p.Money) :
    Solvent g (run rules g b packets) ∧ wealth g (run rules g b packets) = wealth g b := by
  induction packets generalizing b with
  | nil => exact ⟨h, rfl⟩
  | cons packet packets ih =>
    obtain ⟨hpacket, hpackets⟩ := forall_mem_cons.mp hmoney
    have hpays := @Solvent.handle rules g b h packet hpacket
    obtain ⟨hsolvent, hwealth⟩ := ih hpays.solvent hpackets
    exact ⟨hsolvent, hwealth.trans hpays.wealth⟩

/-- **The guild bank conserves items and money.** Every packet that moves items conserves them and,
when it stops at a check, changes nothing, provided that `CanStoreItem` of the player returns only
positions that fit; and after every sequence of deposits and withdrawals of members the bank and the
members have as much money as before, the bank is within its limit, and an operation that is refused
changes nothing. -/
theorem bank_conserved (rules : Rules) (g : Settings) (b : Bank) (hrules : StoresFitting rules) :
    (∀ packet src dest, WellFormed rules b.items → packet.ends = some (src, dest) →
      Conserved rules packet.player src dest (Swaps rules g src dest b) b.items
          (handle rules g b packet).2.items ∧
        ((handle rules g b packet).1 = .refused → Untouched b (handle rules g b packet).2)) ∧
      ∀ packets : List Packet, (∀ p ∈ packets, p.Money) → Solvent g b →
        wealth g (run rules g b packets) = wealth g b ∧
          (run rules g b packets).bankMoney ≤ guildBankMoneyLimit ∧
          ∀ packet : Packet, packet.Money →
            (handle rules g (run rules g b packets) packet).1 = .refused →
            (handle rules g (run rules g b packets) packet).2 = run rules g b packets := by
  refine ⟨fun packet src dest h hends => handle_conserved hrules h packet hends,
    fun packets hmoney h => ?_⟩
  obtain ⟨hsolvent, hwealth⟩ := @Solvent.run rules g b h packets hmoney
  exact ⟨hwealth, hsolvent.bank, fun packet hpacket => (hsolvent.handle hpacket).refused⟩

/-- Rules under which an item fits into the place that is asked for, if it is empty. -/
def plainRules : Rules where
  maxStack := fun _ => 20
  binds := fun _ _ => false
  canStoreItem := fun held place item swap =>
    if ((held place).isNone ∨ swap) ∧ 0 < item.count ∧ item.count ≤ 20 then
      some [(place, item.count)]
    else none

theorem plainRules_fitting : StoresFitting plainRules := by
  intro held place item swap vec _ hstore
  simp only [plainRules] at hstore
  split_ifs at hstore with hfree
  obtain rfl := Option.some.inj hstore
  obtain ⟨hempty, hpos, hmax⟩ := hfree
  refine ⟨⟨nodup_singleton _, sum_singleton, fun p n hp => ?_⟩, fun p n hp => ?_⟩
  · obtain ⟨rfl, rfl⟩ := Prod.mk.inj (mem_singleton.mp hp)
    refine ⟨hpos, hmax, fun d hd => ?_⟩
    split_ifs at hd with hswap
    · rw [update_self] at hd
      cases hd
    · rw [isNone_iff_eq_none.mp (hempty.resolve_right hswap)] at hd
      cases hd
  · obtain ⟨rfl, rfl⟩ := Prod.mk.inj (mem_singleton.mp hp)
    rfl

/-- A new guild with one tab, and five items of entry 7 in a slot of it. -/
def plainSettings : Settings := ⟨create 1, fun _ => 0, fun _ _ => 0, fun _ _ => 0, 1⟩

/-- See `plainSettings`. -/
def plainBank : Bank where
  items := ⟨Function.update (fun _ => none) (none, 0, 3) (some ⟨1, 7, 5, false, false, true⟩), 2⟩
  bankMoney := 100
  purse := fun _ => 50
  bankWithdraw := fun _ _ => 0
  text := fun _ => ""
  info := fun _ => ("", "")

theorem plainBank_wellFormed : WellFormed plainRules plainBank.items := by
  have hheld : ∀ p d, plainBank.items.held p = some d →
      p = (none, 0, 3) ∧ d = ⟨1, 7, 5, false, false, true⟩ := by
    intro p d hp
    simp only [plainBank, update_apply] at hp
    split_ifs at hp with heq
    exact ⟨heq, (Option.some.inj hp).symm⟩
  refine ⟨fun p d hp => ?_, fun p q d e hp hq _ => ?_, fun p d hp => ?_⟩
  · obtain ⟨-, rfl⟩ := hheld p d hp
    exact ⟨Nat.succ_pos 4, Nat.le_add_right 5 15⟩
  · exact (hheld p d hp).1.trans (hheld q e hq).1.symm
  · obtain ⟨-, rfl⟩ := hheld p d hp
    exact Nat.one_lt_two

/-- The guild master takes two of the five items into the inventory, and deposits some money. -/
theorem plainBank_conserved :
    (handle plainRules plainSettings plainBank
        (.swapItemsWithInventory 1 false true 0 3 255 23 2)).1 = .done ∧
      (∀ entry, total entry 1 (handle plainRules plainSettings plainBank
          (.swapItemsWithInventory 1 false true 0 3 255 23 2)).2.items.held =
        total entry 1 plainBank.items.held) ∧
      wealth plainSettings (run plainRules plainSettings plainBank [.depositMoney 1 20]) =
        wealth plainSettings plainBank := by
  obtain ⟨hitems, hmoney⟩ := bank_conserved plainRules plainSettings plainBank plainRules_fitting
  refine ⟨by decide +kernel, (hitems _ _ _ plainBank_wellFormed rfl).1.total, (hmoney _ ?_ ?_).1⟩
  · exact fun p hp => mem_singleton.mp hp ▸ trivial
  · exact ⟨by decide +kernel, fun _ _ => by show 50 ≤ 0x7FFFFFFF; decide⟩

end IscServer.Guilds
