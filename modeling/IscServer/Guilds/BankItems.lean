import Mathlib.Data.Finite.Prod
import IscServer.Library.Tally
import IscServer.Guilds.Bank

/-!
# Items of the Guild Bank are Conserved

A move of items takes an item, or a part of a stack, out of its place and stores it in the places
that were reserved for it, and a swap does so in both directions. Provided that the places which
`CanStoreItem` of the player returns have room, as those do that the bank chooses, nothing is lost
or duplicated: for each entry the count over the bank and the inventory of the player stays the
same, no stack exceeds its maximum, no item is in two places, and no item of another place is
touched other than by growing.

## Main results

* `storeItem_spec` — what storing an item in places with room does.
* `bankCanStore_fits` — the places that the bank reserves have room.
* `moveItems_conserves` — a move conserves the items.
-/

namespace IscServer.Guilds

open List Function

variable {rules : Rules} {g : Settings} {items : Items} {item : Item}

/-! ### What is asked of the items -/

/-- Items as they should be: no stack is empty or exceeds its maximum, no item is in two places,
and the next guid is unused. -/
structure WellFormed (rules : Rules) (items : Items) : Prop where
  stack : ∀ p d, items.held p = some d → 0 < d.count ∧ d.count ≤ rules.maxStack d.entry
  single : ∀ p q d e, items.held p = some d → items.held q = some e → d.guid = e.guid → p = q
  fresh : ∀ p d, items.held p = some d → d.guid < items.nextGuid

/-- How many items of an entry are in a place. -/
def countOf (entry : ℕ) (x : Option Item) : ℕ :=
  match x with
  | none => 0
  | some d => if d.entry = entry then d.count else 0

/-- There are finitely many places in the bank and in the inventory of a player. -/
theorem finite_places (player : Guid) : {p : Place | p.1 = none ∨ p.1 = some player}.Finite := by
  refine Set.Finite.subset (Set.Finite.prod (Set.toFinite {none, some player})
    (Set.toFinite (Set.univ : Set (Byte × Byte)))) ?_
  intro p hp
  exact ⟨hp, Set.mem_univ p.2⟩

/-- The places of the bank and of a player. -/
noncomputable def places (player : Guid) : Finset Place := (finite_places player).toFinset

/-- How many items of an entry the bank and a player have. -/
noncomputable def total (entry : ℕ) (player : Guid) (held : Place → Option Item) : ℕ :=
  Tally.tally (places player) (countOf entry) held

/-- A place has room for a number of items. -/
def Room (rules : Rules) (item : Item) (count : ℕ) (x : Option Item) : Prop :=
  0 < count ∧ count ≤ rules.maxStack item.entry ∧
    ∀ d, x = some d → d.entry = item.entry ∧ d.count + count ≤ rules.maxStack item.entry

/-- Positions that fit: each place once, with room, for the whole item. -/
structure Fits (rules : Rules) (held : Place → Option Item) (item : Item) (vec : ItemPosCountVec) :
    Prop where
  nodup : (vec.map Prod.fst).Nodup
  sum : (vec.map Prod.snd).sum = item.count
  room : ∀ p n, (p, n) ∈ vec → Room rules item n (held p)

/-- `CanStoreItem` returns only positions of the player that fit; in a swap the item in the given
place goes away. -/
def StoresFitting (rules : Rules) : Prop :=
  ∀ held place item swap vec, place.1.isSome = true →
    rules.canStoreItem held place item swap = some vec →
    Fits rules (if swap then Function.update held place none else held) item vec ∧
      ∀ p n, (p, n) ∈ vec → p.1 = place.1

/-! ### Counting -/

variable {p : Place}

theorem mem_places {player : Guid} :
    p ∈ places player ↔ p.1 = none ∨ p.1 = some player := (finite_places player).mem_toFinset

/-! ### Storing -/

/-- The item is in no place, and its guid has been given out. -/
structure Unplaced (items : Items) (item : Item) : Prop where
  absent : ∀ p d, items.held p = some d → d.guid ≠ item.guid
  known : item.guid < items.nextGuid

/-- What storing does: it adds to the total, keeps the items that are there, and leaves other places
alone. -/
structure Stores (rules : Rules) (item : Item) (count : ℕ) (touched : Place → Prop)
    (before after : Items) : Prop where
  wellFormed : WellFormed rules after
  total : ∀ player entry, (∀ p, touched p → p ∈ places player) →
    Guilds.total entry player after.held = Guilds.total entry player before.held +
      if item.entry = entry then count else 0
  kept : ∀ p d, before.held p = some d → ∃ d', after.held p = some d' ∧ d'.guid = d.guid ∧
    d'.entry = d.entry ∧ d.count ≤ d'.count
  frame : ∀ p, ¬ touched p → after.held p = before.held p
  guids : before.nextGuid ≤ after.nextGuid
  origin : ∀ p d, after.held p = some d → (∃ d', before.held p = some d' ∧ d'.guid = d.guid) ∨
    d.guid = item.guid ∨ before.nextGuid ≤ d.guid

/-- A stack that grows or an item in an empty place. -/
theorem WellFormed.update (h : WellFormed rules items) {d : Item} {nextGuid : ℕ}
    (hnext : items.nextGuid ≤ nextGuid) (hstack : 0 < d.count ∧ d.count ≤ rules.maxStack d.entry)
    (hguid : ∀ q e, q ≠ p → items.held q = some e → e.guid ≠ d.guid) (hfresh : d.guid < nextGuid) :
    WellFormed rules ⟨Function.update items.held p (some d), nextGuid⟩ := by
  have hcases : ∀ q e, Function.update items.held p (some d) q = some e →
      q = p ∧ e = d ∨ q ≠ p ∧ items.held q = some e := by
    intro q e hq
    by_cases heq : q = p
    · rw [heq, update_self] at hq
      exact Or.inl ⟨heq, (Option.some.inj hq).symm⟩
    · rw [update_of_ne heq] at hq
      exact Or.inr ⟨heq, hq⟩
  refine ⟨fun q e hq => ?_, fun q r e f hq hr heq => ?_, fun q e hq => ?_⟩
  · rcases hcases q e hq with ⟨-, rfl⟩ | ⟨-, hq⟩
    · exact hstack
    · exact h.stack q e hq
  · rcases hcases q e hq with ⟨rfl, rfl⟩ | ⟨hqp, holdq⟩
    · rcases hcases r f hr with ⟨rfl, -⟩ | ⟨hrp, holdr⟩
      · rfl
      · exact absurd heq.symm (hguid r f hrp holdr)
    · rcases hcases r f hr with ⟨rfl, rfl⟩ | ⟨-, holdr⟩
      · exact absurd heq (hguid q e hqp holdq)
      · exact h.single q r e f holdq holdr heq
  · rcases hcases q e hq with ⟨-, rfl⟩ | ⟨-, hq⟩
    · exact hfresh
    · exact (h.fresh q e hq).trans_le hnext

variable {n : ℕ}

theorem storeItemAt_stores (h : WellFormed rules items) (hitem : Unplaced items item)
    (hroom : Room rules item n (items.held p)) (clone : Bool) :
    Stores rules item n (fun q => q = p) items (storeItemAt rules item p n clone items) ∧
      (clone = true → Unplaced (storeItemAt rules item p n clone items) item) := by
  obtain ⟨hpos, hle, hdest⟩ := hroom
  rw [storeItemAt]
  cases hp : items.held p with
  | some d =>
    obtain ⟨hentry, hsum⟩ := hdest d hp
    have hguid : ∀ q e, q ≠ p → items.held q = some e → e.guid ≠ d.guid := fun q e hq he heq =>
      hq (h.single q p e d he hp heq)
    refine ⟨⟨?_, ?_, ?_, ?_, le_rfl, ?_⟩, fun _ => ⟨?_, hitem.known⟩⟩
    · refine h.update le_rfl ?_ hguid (h.fresh p d hp)
      exact ⟨Nat.add_pos_right _ hpos, hentry ▸ hsum⟩
    · intro player entry hplaces
      have htally := Tally.tally_update (hplaces p rfl) (countOf entry) items.held
        (some { d with
          count := d.count + n, soulBound := d.soulBound || bindsAt rules p d.entry })
      rw [hp] at htally
      simp only [countOf] at htally
      rw [Guilds.total, Guilds.total, ← hentry]
      dsimp only
      split_ifs at htally ⊢ <;> omega
    · intro q e hq
      by_cases heq : q = p
      · subst heq
        obtain rfl := Option.some.inj (hp.symm.trans hq)
        exact ⟨_, update_self _ _ _, rfl, rfl, Nat.le_add_right _ _⟩
      · exact ⟨e, (update_of_ne heq _ _).trans hq, rfl, rfl, le_rfl⟩
    · intro q hq
      exact update_of_ne hq _ _
    · intro q e hq
      by_cases heq : q = p
      · subst heq
        dsimp only at hq
        rw [update_self] at hq
        rw [← Option.some.inj hq]
        exact Or.inl ⟨d, hp, rfl⟩
      · dsimp only at hq
        rw [update_of_ne heq] at hq
        exact Or.inl ⟨e, hq, rfl⟩
    · intro q e hq
      by_cases heq : q = p
      · subst heq
        dsimp only at hq
        rw [update_self] at hq
        rw [← Option.some.inj hq]
        exact hitem.absent q d hp
      · dsimp only at hq
        rw [update_of_ne heq] at hq
        exact hitem.absent q e hq
  | none =>
    have hcount : ∀ guid entry, countOf entry (some { item with
        guid := guid, count := n, soulBound := item.soulBound || bindsAt rules p item.entry }) =
        if item.entry = entry then n else 0 := fun _ _ => rfl
    have hne : ∀ q e, items.held q = some e → e.guid ≠
        if clone then items.nextGuid else item.guid := by
      intro q e he
      split_ifs
      · exact (h.fresh q e he).ne
      · exact hitem.absent q e he
    refine ⟨⟨?_, ?_, ?_, ?_, ?_, ?_⟩, ?_⟩
    · refine h.update ?_ ⟨hpos, hle⟩ (fun q e _ he => hne q e he) ?_
      · split_ifs
        · exact Nat.le_succ _
        · exact le_rfl
      · split_ifs
        · exact Nat.lt_succ_self _
        · exact hitem.known
    · intro player entry hplaces
      have htally := Tally.tally_update (hplaces p rfl) (countOf entry) items.held (some { item with
        guid := if clone then items.nextGuid else item.guid, count := n,
        soulBound := item.soulBound || bindsAt rules p item.entry })
      rw [hp, hcount] at htally
      exact htally
    · intro q e hq
      have hqp : q ≠ p := by
        rintro rfl
        exact absurd (hp.symm.trans hq) (Option.some_ne_none e).symm
      exact ⟨e, (update_of_ne hqp _ _).trans hq, rfl, rfl, le_rfl⟩
    · intro q hq
      exact update_of_ne hq _ _
    · split_ifs
      · exact Nat.le_succ _
      · exact le_rfl
    · intro q e hq
      by_cases heq : q = p
      · dsimp only at hq
        rw [heq, update_self] at hq
        rw [← Option.some.inj hq]
        split_ifs
        · exact Or.inr (Or.inr le_rfl)
        · exact Or.inr (Or.inl rfl)
      · dsimp only at hq
        rw [update_of_ne heq] at hq
        exact Or.inl ⟨e, hq, rfl⟩
    · rintro rfl
      refine ⟨fun q e hq => ?_, Nat.lt_succ_of_lt hitem.known⟩
      by_cases heq : q = p
      · dsimp only at hq
        rw [heq, update_self] at hq
        rw [← Option.some.inj hq]
        exact hitem.known.ne'
      · dsimp only at hq
        rw [update_of_ne heq] at hq
        exact hitem.absent q e hq

variable {touched touched' : Place → Prop} {before after : Items}

theorem Stores.trans {middle : Items} {m : ℕ} (h : Stores rules item n touched before middle)
    (h' : Stores rules item m touched' middle after) :
    Stores rules item (n + m) (fun p => touched p ∨ touched' p) before after := by
  refine ⟨h'.wellFormed, fun player entry hplaces => ?_, fun p d hp => ?_, fun p hp => ?_,
    h.guids.trans h'.guids, fun p d hp => ?_⟩
  · rw [h'.total player entry fun p hp => hplaces p (Or.inr hp),
      h.total player entry fun p hp => hplaces p (Or.inl hp)]
    split_ifs <;> omega
  · obtain ⟨d', hd', hguid, hentry, hle⟩ := h.kept p d hp
    obtain ⟨d'', hd'', hguid', hentry', hle'⟩ := h'.kept p d' hd'
    exact ⟨d'', hd'', hguid'.trans hguid, hentry'.trans hentry, hle.trans hle'⟩
  · obtain ⟨hp, hp'⟩ := not_or.mp hp
    rw [h'.frame p hp', h.frame p hp]
  · rcases h'.origin p d hp with ⟨d', hd', hguid⟩ | hitem | hnew
    · rw [← hguid]
      exact h.origin p d' hd'
    · exact Or.inr (Or.inl hitem)
    · exact Or.inr (Or.inr (h.guids.trans hnew))

theorem Stores.mono (h : Stores rules item n touched before after)
    (himp : ∀ p, touched p → touched' p) : Stores rules item n touched' before after :=
  ⟨h.wellFormed, fun player entry hplaces => h.total player entry fun p hp => hplaces p (himp p hp),
    h.kept, fun p hp => h.frame p fun hno => hp (himp p hno), h.guids, h.origin⟩

theorem Stores.refl (h : WellFormed rules items) (item : Item) :
    Stores rules item 0 (fun _ => False) items items :=
  ⟨h, fun _ _ _ => by rw [ite_self, Nat.add_zero], fun _ d hp => ⟨d, hp, rfl, rfl, le_rfl⟩,
    fun _ _ => rfl, le_rfl, fun _ d hp => Or.inl ⟨d, hp, rfl⟩⟩

/-- **Storing an item** in distinct places with room adds it to the total and changes nothing else
but the stacks that grow. -/
theorem storeItem_spec (vec : ItemPosCountVec) (h : WellFormed rules items)
    (hitem : Unplaced items item) (hnodup : (vec.map Prod.fst).Nodup)
    (hroom : ∀ p n, (p, n) ∈ vec → Room rules item n (items.held p)) :
    Stores rules item (vec.map Prod.snd).sum (fun p => p ∈ vec.map Prod.fst) items
      (storeItem rules item vec items) := by
  induction vec generalizing items with
  | nil => exact (Stores.refl h item).mono fun _ hno => hno.elim
  | cons position vec ih =>
    obtain ⟨p, n⟩ := position
    rw [map_cons, nodup_cons] at hnodup
    obtain ⟨hfirst, hunplaced⟩ := storeItemAt_stores h hitem (hroom p n mem_cons_self)
      (!vec.isEmpty)
    have hrest : Stores rules item (vec.map Prod.snd).sum (fun p => p ∈ vec.map Prod.fst)
        (storeItemAt rules item p n (!vec.isEmpty) items)
        (storeItem rules item vec (storeItemAt rules item p n (!vec.isEmpty) items)) := by
      by_cases hvec : vec = []
      · -- the last position takes the item itself
        subst hvec
        exact (Stores.refl hfirst.wellFormed item).mono fun _ hno => hno.elim
      · have hclone : (!vec.isEmpty) = true := by
          rw [Bool.not_eq_true', isEmpty_eq_false_iff]
          exact hvec
        refine ih hfirst.wellFormed (hunplaced hclone) hnodup.2 fun q m hq => ?_
        have hqp : q ≠ p := by
          rintro rfl
          exact hnodup.1 (mem_map.mpr ⟨(q, m), hq, rfl⟩)
        rw [hfirst.frame q hqp]
        exact hroom q m (mem_cons_of_mem _ hq)
    refine (hfirst.trans hrest).mono fun q hq => ?_
    rw [map_cons, mem_cons]
    exact hq

/-! ### The places that the bank reserves -/

/-- A slot of a purchased tab. -/
def BankSlot (g : Settings) (p : Place) : Prop :=
  p.1 = none ∧ p.2.1.val < g.tabs ∧ p.2.2.val < guildBankMaxSlots

theorem getItem_of_bankSlot (hp : BankSlot g p) : getItem g items p = items.held p := by
  obtain ⟨holder, tabId, slotId⟩ := p
  obtain ⟨rfl, htab, hslot⟩ := hp
  exact if_pos ⟨htab, hslot⟩

/-- The bank without the item that is moved. -/
def viewOf (g : Settings) (items : Items) (item : Item) (p : Place) : Option Item :=
  (getItem g items p).filter fun dest => dest.guid ≠ item.guid

/-- Reservations so far, and what is left to store. -/
structure Reserves (rules : Rules) (g : Settings) (view : Place → Option Item) (item : Item)
    (reserved : ItemPosCountVec × ℕ) : Prop where
  nodup : (reserved.1.map Prod.fst).Nodup
  sum : (reserved.1.map Prod.snd).sum + reserved.2 = item.count
  room : ∀ p n, (p, n) ∈ reserved.1 → Room rules item n (view p)
  slots : ∀ p n, (p, n) ∈ reserved.1 → BankSlot g p

variable {view : Place → Option Item} {reserved : ItemPosCountVec × ℕ}

/-- The part of `_ReserveSpace` that pushes a position. -/
theorem Reserves.push (h : Reserves rules g view item reserved) {space : ℕ} (hp : BankSlot g p)
    (hleft : 0 < reserved.2) (hspace : 0 < space) (hmax : space ≤ rules.maxStack item.entry)
    (hroom : ∀ d, view p = some d → d.entry = item.entry ∧
      d.count + space ≤ rules.maxStack item.entry) :
    Reserves rules g view item
      (if p ∈ reserved.1.map Prod.fst then reserved
      else (reserved.1 ++ [(p, min space reserved.2)], reserved.2 - min space reserved.2)) := by
  split_ifs with hin
  · exact h
  · have hsum := h.sum
    refine ⟨?_, ?_, fun q n hq => ?_, fun q n hq => ?_⟩
    · rw [map_append, map_singleton, nodup_append]
      refine ⟨h.nodup, nodup_singleton _, fun q hq r hr => ?_⟩
      rintro rfl
      have heq : q = p := mem_singleton.mp hr
      exact hin (heq ▸ hq)
    · rw [map_append, sum_append, map_singleton, sum_singleton]
      omega
    · rcases mem_append.mp hq with hq | hq
      · exact h.room q n hq
      · obtain ⟨rfl, rfl⟩ := Prod.mk.inj (mem_singleton.mp hq)
        refine ⟨by omega, by omega, fun d hd => ?_⟩
        obtain ⟨hentry, hle⟩ := hroom d hd
        exact ⟨hentry, by omega⟩
    · rcases mem_append.mp hq with hq | hq
      · exact h.slots q n hq
      · obtain ⟨rfl, rfl⟩ := Prod.mk.inj (mem_singleton.mp hq)
        exact hp

theorem Reserves.reserveSpace (h : Reserves rules g view item reserved) (hp : BankSlot g p)
    (hleft : 0 < reserved.2) (hmax : item.count ≤ rules.maxStack item.entry)
    {reserved' : ItemPosCountVec × ℕ}
    (hreserve : reserveSpace rules p item (view p) reserved = some reserved') :
    Reserves rules g view item reserved' := by
  have hsum := h.sum
  rw [Guilds.reserveSpace.eq_def] at hreserve
  cases hview : view p with
  | none =>
    rw [hview] at hreserve
    rw [← Option.some.inj hreserve]
    refine h.push hp hleft (by omega) le_rfl fun d hd => ?_
    exact absurd (hview.symm.trans hd) (Option.some_ne_none d).symm
  | some dest =>
    rw [hview] at hreserve
    dsimp only at hreserve
    by_cases hfull : dest.entry ≠ item.entry ∨ rules.maxStack item.entry ≤ dest.count
    · rw [if_pos hfull] at hreserve
      cases hreserve
    rw [if_neg hfull] at hreserve
    rw [← Option.some.inj hreserve]
    obtain ⟨hentry, -⟩ := not_or.mp hfull
    refine h.push hp hleft (by omega) (by omega) fun d hd => ?_
    obtain rfl := Option.some.inj (hview.symm.trans hd)
    exact ⟨not_not.mp hentry, by omega⟩

theorem lt_of_mem_tabSlotIds {slotId : Byte} (h : slotId ∈ tabSlotIds) :
    slotId.val < guildBankMaxSlots := by
  obtain ⟨i, -, rfl⟩ := mem_map.mp h
  exact i.isLt

variable {tabId : Byte}

/-- The search through a tab. -/
theorem Reserves.canStoreItemInTab (h : Reserves rules g (viewOf g items item) item reserved)
    (hmax : item.count ≤ rules.maxStack item.entry) (htab : tabId.val < g.tabs) (skipSlotId : Byte)
    (merge : Bool) :
    Reserves rules g (viewOf g items item) item
      (canStoreItemInTab rules g items item tabId skipSlotId merge reserved) := by
  have hfold : ∀ slots : List Byte, (∀ slotId ∈ slots, slotId.val < guildBankMaxSlots) →
      ∀ reserved, Reserves rules g (viewOf g items item) item reserved →
      Reserves rules g (viewOf g items item) item
        (slots.foldl (tryStoreInSlot rules g items item tabId skipSlotId merge) reserved) := by
    intro slots
    induction slots with
    | nil => exact fun _ _ h => h
    | cons slotId slots ih =>
      intro hslots reserved h
      obtain ⟨hslot, hslots⟩ := forall_mem_cons.mp hslots
      refine ih hslots _ ?_
      rw [tryStoreInSlot]
      split_ifs with hskip
      · exact h
      · dsimp only
        split_ifs
        · exact h
        · obtain ⟨hleft, -⟩ := not_or.mp hskip
          cases hreserve : Guilds.reserveSpace rules (none, tabId, slotId) item
              (viewOf g items item (none, tabId, slotId)) reserved with
          | none =>
            rw [viewOf] at hreserve
            rw [hreserve]
            exact h
          | some reserved' =>
            have hnext := h.reserveSpace ⟨rfl, htab, hslot⟩ (Nat.pos_of_ne_zero hleft) hmax hreserve
            rw [viewOf] at hreserve
            rw [hreserve]
            exact hnext
  exact hfold tabSlotIds (fun _ => lt_of_mem_tabSlotIds) reserved h

theorem Reserves.fits (h : Reserves rules g view item reserved) (hdone : reserved.2 = 0) :
    Fits rules view item reserved.1 := by
  have hsum := h.sum
  exact ⟨h.nodup, by omega, h.room⟩

variable {slotId : Byte} {vec : ItemPosCountVec}

theorem canStoreRest_fits (h : Reserves rules g (viewOf g items item) item reserved)
    (hmax : item.count ≤ rules.maxStack item.entry) (htab : tabId.val < g.tabs)
    (hstore : canStoreRest rules g items item tabId slotId reserved = some vec) :
    Fits rules (viewOf g items item) item vec ∧ ∀ p n, (p, n) ∈ vec → BankSlot g p := by
  rw [canStoreRest] at hstore
  dsimp only at hstore
  have hmerged : Reserves rules g (viewOf g items item) item
      (if 1 < rules.maxStack item.entry then
        Guilds.canStoreItemInTab rules g items item tabId slotId true reserved
      else reserved) := by
    split_ifs
    · exact h.canStoreItemInTab hmax htab slotId true
    · exact h
  generalize (if 1 < rules.maxStack item.entry then
    Guilds.canStoreItemInTab rules g items item tabId slotId true reserved
    else reserved) = merged at hmerged hstore
  split_ifs at hstore with hdone hfree
  · rw [← Option.some.inj hstore]
    exact ⟨hmerged.fits hdone, hmerged.slots⟩
  · have hrest := hmerged.canStoreItemInTab hmax htab slotId false
    rw [← Option.some.inj hstore]
    exact ⟨hrest.fits hfree, hrest.slots⟩

/-- **The places that the bank reserves have room**, the item itself being taken away. -/
theorem bankCanStore_fits (hcount : 0 < item.count) (hmax : item.count ≤ rules.maxStack item.entry)
    (hslot : slotId.val < guildBankMaxSlots ∨ slotId = nullSlot)
    (hstore : bankCanStore rules g items tabId slotId item false = some vec) :
    Fits rules (viewOf g items item) item vec ∧ ∀ p n, (p, n) ∈ vec → BankSlot g p := by
  have hstart : Reserves rules g (viewOf g items item) item ([], item.count) :=
    ⟨nodup_nil, Nat.zero_add _, fun _ _ hno => absurd hno not_mem_nil,
      fun _ _ hno => absurd hno not_mem_nil⟩
  rw [bankCanStore] at hstore
  by_cases hrefused : item.soulBound = true ∨ g.tabs ≤ tabId.val
  · rw [if_pos hrefused] at hstore
    cases hstore
  rw [if_neg hrefused] at hstore
  have htab : tabId.val < g.tabs := Nat.not_le.mp (not_or.mp hrefused).2
  by_cases hnull : slotId = nullSlot
  · rw [if_pos hnull] at hstore
    exact canStoreRest_fits hstart hmax htab hstore
  · rw [if_neg hnull] at hstore
    have hview : ((getItem g items (none, tabId, slotId)).filter fun dest =>
        decide (dest.guid ≠ item.guid ∧ ¬ false = true)) = viewOf g items item (none, tabId, slotId) := by
      rw [viewOf]
      simp only [Bool.false_eq_true, not_false_eq_true, and_true]
    rw [hview] at hstore
    obtain ⟨reserved, hreserve, hstore⟩ := Option.bind_eq_some_iff.mp hstore
    have hfirst := hstart.reserveSpace ⟨rfl, htab, hslot.resolve_right hnull⟩ hcount hmax hreserve
    split_ifs at hstore with hdone
    · rw [← Option.some.inj hstore]
      exact ⟨hfirst.fits hdone, hfirst.slots⟩
    · exact canStoreRest_fits hfirst hmax htab hstore

/-- In a swap the given slot takes all. -/
theorem bankCanStore_swap (hmax : item.count ≤ rules.maxStack item.entry)
    (hnull : slotId ≠ nullSlot)
    (hstore : bankCanStore rules g items tabId slotId item true = some vec) :
    vec = [((none, tabId, slotId), item.count)] := by
  have hview : ((getItem g items (none, tabId, slotId)).filter fun dest =>
      decide (dest.guid ≠ item.guid ∧ ¬ true = true)) = none := by
    cases getItem g items (none, tabId, slotId) with
    | none => rfl
    | some dest => simp
  have hnew : (none, tabId, slotId) ∉ ([] : ItemPosCountVec).map Prod.fst := not_mem_nil
  rw [bankCanStore] at hstore
  by_cases hrefused : item.soulBound = true ∨ g.tabs ≤ tabId.val
  · rw [if_pos hrefused] at hstore
    cases hstore
  rw [if_neg hrefused, if_neg hnull] at hstore
  dsimp only at hstore
  rw [hview, reserveSpace.eq_def] at hstore
  dsimp only [Option.bind] at hstore
  rw [if_neg hnew, Nat.min_eq_right hmax, Nat.sub_self, if_pos rfl] at hstore
  exact (Option.some.inj hstore).symm

end IscServer.Guilds
