import IscServer.Loot.LootCounter

/-!
# The Counter of a Filled Loot

`AddItem` and the three loops of `FillLoot` count an item by three devices: whether it is shown,
`is_counted` and `is_blocked`. They count what is left when an item that is shown can be taken by a
player who is near, when a quest item that is listed can be taken by someone who lists it, and when
it is blocked by the first who lists it or listed once.

## Main results

* `FairItem` : an item that is counted as often as it can be taken.
* `fills_tallying` : what has been counted while the players are entered.
* `counter_exact` : the counter is exact in runs that count and take items fairly.
* `quest_counted_twice` : in group loot a quest item is counted for each who lists it.
-/

namespace IscServer.Looting

open List

open Run Tally

variable {world : World} {drop : Drop} {owner : Guid} {players : List Guid} {room : Prop}
  {l l' : Loot} {player : Guid} {entry : Entry} {note : Note} {item : LootItem} {lootSlot : ℕ}
  {questListed ffaListed : List ℕ}

/-- The player gets to see a quest item. -/
def seesItem (world : World) (owner player : Guid) (item : LootItem) : Bool :=
  seesQuestItem world player { Loot.new 0 with lootOwnerGUID := owner } item

/-- **An item that is counted as often as it can be taken**: one that is shown can be taken by a player
who is entered, a quest item is blocked by those who see it or seen by one, and who sees it can take
it, or someone can and there is room in all lists. -/
structure FairItem (world : World) (drop : Drop) (owner : Guid) (players : List Guid) (room : Prop)
    (item : LootItem) : Prop where
  shown : item.needsQuest = false → item.freeforall = false → item.conditions.isEmpty = true →
    (announced world drop.ownerInWorld owner item = true ↔
      ∃ player ∈ players, allowedForPlayer world player false none item = true)
  once : item.needsQuest = true → item.freeforall = false →
    (∀ player ∈ players, seesItem world owner player item = true →
      blocksQuestItem world player = true) ∨
    ∀ player ∈ players, ∀ other ∈ players, seesItem world owner player item = true →
      seesItem world owner other item = true → player = other
  takers : item.needsQuest = true → item.freeforall = false →
    (∀ player ∈ players, seesItem world owner player item = true →
      allowedForPlayer world player false none item = true) ∨
    room ∧ ∃ player ∈ players, seesItem world owner player item = true ∧
      allowedForPlayer world player false none item = true
  ffaTakers : item.needsQuest = true → item.freeforall = true → ∀ player ∈ players,
    seesItem world owner player item = true →
      allowedForPlayer world player false none item = true

variable {other : LootItem}

theorem announced_of_kind (h : other.kind = item.kind) (ownerInWorld : Bool) :
    announced world ownerInWorld owner other = announced world ownerInWorld owner item :=
  (congrArg (announced world ownerInWorld owner) h :)

theorem sees_of_kind (h : other.kind = item.kind) (player : Guid) :
    seesItem world owner player other = seesItem world owner player item :=
  (congrArg (seesItem world owner player) h :)

theorem FairItem.of_kind (h : FairItem world drop owner players room item)
    (hkind : other.kind = item.kind) : FairItem world drop owner players room other := by
  have hneeds := needsQuest_of_kind hkind
  have hffa := freeforall_of_kind hkind
  have hallowed := fun player => @allowed_of_kind world item other hkind player false none
  have hsees := fun player => @sees_of_kind world owner item other hkind player
  refine ⟨?_, ?_, ?_, ?_⟩
  · simp only [hneeds, hffa, conditions_of_kind hkind, announced_of_kind hkind, hallowed]
    exact h.shown
  · simp only [hneeds, hffa, hsees]
    exact h.once
  · simp only [hneeds, hffa, hsees, hallowed]
    exact h.takers
  · simp only [hneeds, hffa, hsees, hallowed]
    exact h.ffaTakers

/-- All items that drop are counted as often as they can be taken. -/
def FairDrop (world : World) (drop : Drop) (owner : Guid) (players : List Guid) (room : Prop) :
    Prop :=
  ∀ drawn ∈ drop.items, ∀ proto, world.template drawn.1.itemid = some proto →
    FairItem world drop owner players room (LootItem.new drawn.1 proto 0 0)

theorem Filling.fair (h : Filling world drop owner l)
    (hfair : FairDrop world drop owner players room) (hitem : l.lootItem entry = some item) : FairItem world drop owner players room item := by
  obtain ⟨⟨drawn, hdrawn, proto, hproto, hkind⟩, -⟩ := h.drawn entry item hitem
  exact (hfair drawn hdrawn proto hproto).of_kind hkind

/-! ### What has been counted -/

/-- An entry for one player is counted, while the players are entered. -/
def due (world : World) (drop : Drop) (owner : Guid) (l : Loot) (entry : Entry) : Bool :=
  if entry.isQuest then l.allowedLooters.any fun player => listed l player entry
  else (l.lootItem entry).any fun item =>
    if item.conditions.isEmpty then announced world drop.ownerInWorld owner item
    else l.allowedLooters.any fun player => allowedForPlayer world player false none item

theorem due_quest (index : ℕ) : due world drop owner l (.quest index) =
    l.allowedLooters.any fun player => listed l player (.quest index) := if_pos rfl

theorem due_item (index : ℕ) : due world drop owner l (.item index) =
    (l.items[index]?).any fun item =>
      if item.conditions.isEmpty then announced world drop.ownerInWorld owner item
      else l.allowedLooters.any fun player => allowedForPlayer world player false none item :=
  if_neg fun hno => Bool.noConfusion hno

/-- A loot while the players are entered, and its counter. -/
structure Tallying (world : World) (drop : Drop) (owner : Guid) (players : List Guid) (l : Loot) :
    Prop where
  within : ∀ player ∈ l.allowedLooters, player ∈ players
  count : l.unlootedCount ≡ remaining (due world drop owner l) l [MOD 256]
  small : l.unlootedCount < 256
  counted : ∀ index item, l.lootItem (.item index) = some item → item.isLooted = false →
    item.freeforall = false → item.conditions.isEmpty = false →
      (item.isCounted = true ↔ ∃ player ∈ l.allowedLooters,
        allowedForPlayer world player false none item = true)
  blocked : ∀ index item, l.lootItem (.quest index) = some item →
    (item.isBlocked = true ↔ ∃ player ∈ l.allowedLooters,
      listed l player (.quest index) = true ∧ blocksQuestItem world player = true)
  sees : ∀ player ∈ l.allowedLooters, ∀ index item, l.lootItem (.quest index) = some item →
    listed l player (.quest index) = true → seesItem world owner player item = true
  ffaTakers : ∀ player ∈ l.allowedLooters, ∀ index item, l.lootItem (.item index) = some item →
    item.freeforall = true → listed l player (.item index) = true →
      allowedForPlayer world player false none item = true
  complete : HasRoom l → ∀ player ∈ l.allowedLooters, ∀ index item,
    l.lootItem (.quest index) = some item → item.isLooted = false →
      seesItem world owner player item = true → listed l player (.quest index) = true

theorem Same.due (h : Same l l') : due world drop owner l' = due world drop owner l := by
  funext entry
  rw [Looting.due, Looting.due, h.allowedLooters]
  simp only [h.listed]
  have heq := congrArg (Option.any fun item => if item.conditions.isEmpty then
    announced world drop.ownerInWorld owner item
    else l.allowedLooters.any fun player => allowedForPlayer world player false none item)
      (h.items entry)
  rw [Option.any_map, Option.any_map] at heq
  exact congrArg (fun claim => if entry.isQuest = true then
    l.allowedLooters.any fun player => Looting.listed l player entry else claim) heq

theorem Same.hasRoom (h : Same l l') : HasRoom l' ↔ HasRoom l := by
  rw [HasRoom, HasRoom, h.length, h.questLength]

theorem isLooted_of_take (h : item.take.isLooted = false) : item.isLooted = false := by
  rw [LootItem.take] at h
  split_ifs at h
  · exact h
  · cases h

/-- An item is stored while the players are entered. -/
theorem Tallying.take (h : Tallying world drop owner players l)
    (hfair : FairDrop world drop owner players room) (hfilling : Filling world drop owner l)
    (hlooter : player ∈ l.allowedLooters) (htaken : Taken world player lootSlot l entry note item) :
    Tallying world drop owner players (storeTaken player entry note item l) := by
  have hsame := Same.storeTaken player entry note item l
  have hbefore : ∀ {other new}, (storeTaken player entry note item l).lootItem other = some new →
      ∃ old, l.lootItem other = some old ∧ new.origin = old.origin ∧
        (new.isLooted = false → old.isLooted = false) ∧ new.isBlocked = old.isBlocked := by
    intro other new hnew
    rw [lootItem_storeTaken] at hnew
    split_ifs at hnew with hother
    · obtain ⟨old, hold, rfl⟩ := Option.map_eq_some_iff.mp hnew
      exact ⟨old, hother ▸ hold, take_origin old, isLooted_of_take, take_isBlocked old⟩
    · exact ⟨new, hnew, rfl, fun hlooted => hlooted, rfl⟩
  have hdue : item.freeforall = false → due world drop owner l entry = true := by
    intro hffa
    obtain ⟨-, hneeds⟩ := hfilling.drawn entry item htaken.lootItem
    rw [due]
    cases hquest : entry.isQuest with
    | true =>
      rw [if_pos rfl, any_eq_true]
      obtain ⟨hnote, -⟩ := (hasNote_storeTaken hfilling.filled htaken fun _ _ => hlooter).1
        (by rw [noting, hquest, Bool.or_true])
      exact ⟨player, hlooter, by rw [listed, hnote]; rfl⟩
    | false =>
      rw [if_neg Bool.false_ne_true, htaken.lootItem, Option.any_some]
      split_ifs with hempty
      · exact ((hfilling.fair hfair htaken.lootItem).shown (hneeds.trans hquest) hffa hempty).mpr
          ⟨player, h.within player hlooter, htaken.allowed⟩
      · exact any_eq_true.mpr ⟨player, hlooter, htaken.allowed⟩
  refine ⟨fun guid hguid => h.within guid (hsame.allowedLooters ▸ hguid), ?_, ?_,
    fun index new hnew hlooted hffa hempty => ?_, fun index new hnew => ?_,
    fun guid hguid index new hnew hlisted => ?_, fun guid hguid index new hnew hffa hlisted => ?_,
    fun hroom guid hguid index new hnew hlooted hsees => ?_⟩
  · have hless := remaining_storeTaken hfilling.filled htaken hlooter hdue
    have hcount := h.count
    rw [hsame.due, unlootedCount_storeTaken]
    rw [Nat.ModEq] at hcount ⊢
    omega
  · exact Nat.mod_lt _ (by decide)
  · obtain ⟨old, hold, horigin, hlootedOld, -⟩ := hbefore hnew
    have hcounted : new.isCounted = old.isCounted := (congrArg LootItem.isCounted horigin :)
    rw [hcounted, hsame.allowedLooters]
    simp only [allowed_of_origin horigin]
    exact h.counted index old hold (hlootedOld hlooted)
      ((freeforall_of_origin horigin).symm.trans hffa)
      (conditions_of_kind (kind_of_origin horigin) ▸ hempty)
  · obtain ⟨old, hold, -, -, hblocked⟩ := hbefore hnew
    rw [hblocked, hsame.allowedLooters]
    simp only [hsame.listed]
    exact h.blocked index old hold
  · obtain ⟨old, hold, horigin, -, -⟩ := hbefore hnew
    rw [hsame.listed] at hlisted
    rw [sees_of_kind (kind_of_origin horigin)]
    exact h.sees guid (hsame.allowedLooters ▸ hguid) index old hold hlisted
  · obtain ⟨old, hold, horigin, -, -⟩ := hbefore hnew
    rw [hsame.listed] at hlisted
    rw [allowed_of_origin horigin]
    exact h.ffaTakers guid (hsame.allowedLooters ▸ hguid) index old hold
      ((freeforall_of_origin horigin).symm.trans hffa) hlisted
  · obtain ⟨old, hold, horigin, hlootedOld, -⟩ := hbefore hnew
    rw [sees_of_kind (kind_of_origin horigin)] at hsees
    rw [hsame.listed]
    exact h.complete (hsame.hasRoom.mp hroom) guid (hsame.allowedLooters ▸ hguid) index old hold
      (hlootedOld hlooted) hsees

/-! ### The items that are generated -/

/-- To count the positions of a list is to count its items. -/
theorem countP_range_getElem? {α : Type} (items : List α) (p : α → Bool) :
    (List.range items.length).countP (fun index => (items[index]?).any p) = items.countP p := by
  have hmap : (List.range items.length).map (fun index => items[index]?) = items.map some := by
    refine ext_getElem (by rw [length_map, length_map, length_range]) fun k hk hk' => ?_
    rw [getElem_map, getElem_map, getElem_range]
    exact List.getElem?_eq_getElem _
  have heq := congrArg (List.countP (Option.any p)) hmap
  rwa [countP_map, countP_map] at heq

/-- To count entries is to count the items and the quest items. -/
theorem countP_entries (l : Loot) (p : Entry → Bool) :
    l.entries.countP p = (List.range l.items.length).countP (fun index => p (.item index)) +
      (List.range l.questItems.length).countP fun index => p (.quest index) := by
  rw [Loot.entries, countP_append, countP_map, countP_map]
  rfl

theorem Raw.tallying {gold : ℕ} (h : Raw world drop owner gold l) :
    Tallying world drop owner players l := by
  have hlooters : l.allowedLooters = [] := by rw [h.frame]; rfl
  have hnobody : ∀ {P : Guid → Prop}, ¬ ∃ player ∈ l.allowedLooters, P player := by
    rintro P ⟨player, hplayer, -⟩
    rw [hlooters] at hplayer
    cases hplayer
  have hnone : ∀ {player}, player ∉ l.allowedLooters := by
    intro player hplayer
    rw [hlooters] at hplayer
    cases hplayer
  refine ⟨fun player hplayer => (hnone hplayer).elim, ?_, h.count.lt (by decide),
    fun index item hitem _ _ _ => ?_,
    fun index item hitem => ?_, fun player hplayer => (hnone hplayer).elim,
    fun player hplayer => (hnone hplayer).elim, fun _ player hplayer => (hnone hplayer).elim⟩
  · have hitems : (List.range l.items.length).countP (fun index =>
        openShared l (.item index) && due world drop owner l (.item index)) =
          l.items.countP (announced world drop.ownerInWorld owner) := by
      rw [← countP_range_getElem? l.items]
      refine countP_congr fun index _ => ?_
      rw [openShared, due_item, Loot.lootItem]
      cases hitem : l.items[index]? with
      | none => simp
      | some item =>
        have hfresh := (h.fresh (.item index) item hitem).notLooted
        rw [Option.any_some, Option.any_some, Option.any_some, hfresh, hlooters, any_nil]
        cases hempty : item.conditions.isEmpty with
        | true =>
          rw [if_pos rfl, announced, hempty, Bool.and_true]
          cases item.freeforall with
          | true => simp
          | false => simp
        | false =>
          rw [if_neg Bool.false_ne_true, announced, hempty, Bool.and_false, Bool.and_false,
            Bool.false_and]
    have hquest : (List.range l.questItems.length).countP (fun index =>
        openShared l (.quest index) && due world drop owner l (.quest index)) = 0 := by
      refine countP_eq_zero.mpr fun index _ => ?_
      rw [due_quest, hlooters, any_nil, Bool.and_false]
      exact Bool.false_ne_true
    have hpairs : (l.allowedLooters.product l.entries).countP (openFor l) = 0 := by
      rw [hlooters]
      rfl
    rw [remaining, countP_entries, hitems, hquest, hpairs]
    have hcount := h.count.modEq
    rwa [Nat.zero_add] at hcount
  · rw [(h.fresh _ item hitem).notCounted]
    exact ⟨fun hno => Bool.noConfusion hno, fun hno => (hnobody hno).elim⟩
  · rw [(h.fresh _ item hitem).notBlocked]
    exact ⟨fun hno => Bool.noConfusion hno, fun hno => (hnobody hno).elim⟩

/-! ### Entering a player -/

section

variable (h : Entered world player l l' questListed ffaListed)
include h

theorem Entered.lengths :
    l'.items.length = l.items.length ∧ l'.questItems.length = l.questItems.length := by
  refine ⟨by rw [h.items, length_map], ?_⟩
  have hnone : ∀ index : ℕ, l'.questItems[index]? = none ↔ l.questItems[index]? = none := by
    intro index
    rw [h.questItems, Option.map_eq_none_iff]
  refine Nat.le_antisymm ?_ ?_
  · exact List.getElem?_eq_none_iff.mp ((hnone _).mpr (List.getElem?_eq_none_iff.mpr (Nat.le_refl _)))
  · exact List.getElem?_eq_none_iff.mp ((hnone _).mp (List.getElem?_eq_none_iff.mpr (Nat.le_refl _)))

theorem Entered.entries : l'.entries = l.entries := by
  rw [Loot.entries, Loot.entries, h.lengths.1, h.lengths.2]

theorem Entered.openShared (entry : Entry) : openShared l' entry = openShared l entry := by
  rw [Looting.openShared, Looting.openShared, h.lootItem, Option.any_map]
  refine congrArg (fun p => (l.lootItem entry).any p) (funext fun item => ?_)
  simp only [entered_isLooted, freeforall_of_kind (entered_kind entry item)]

theorem Entered.listed_self (hnew : Newcomer l player) (entry : Entry) :
    listed l' player entry = decide (entry.index ∈ listedIn questListed ffaListed entry) := by
  rw [Bool.eq_iff_iff, listed, Bool.or_eq_true, h.hasNote_self hnew, h.hasNote_self hnew,
    decide_eq_true_iff]
  exact ⟨fun hnote => hnote.elim And.left And.left, fun hmem => Or.inl ⟨hmem, rfl⟩⟩

theorem Entered.listed_of_ne {guid : Guid} (hguid : guid ≠ player) (entry : Entry) : listed l' guid entry = listed l guid entry := by
  rw [listed, listed, hasNote, hasNote, hasNote, hasNote, h.notes_of_ne hguid]

/-- Someone lists a quest item. -/
theorem Entered.any_listed (hnew : Newcomer l player) (entry : Entry) (p : Guid → Bool) :
    (l'.allowedLooters.any fun guid => listed l' guid entry && p guid) =
      ((l.allowedLooters.any fun guid => listed l guid entry && p guid) ||
        decide (entry.index ∈ listedIn questListed ffaListed entry) && p player) := by
  have hlooters : l'.allowedLooters = l.allowedLooters ++ [player] := by rw [h.frame]
  have hold : (l.allowedLooters.any fun guid => listed l' guid entry && p guid) =
      l.allowedLooters.any fun guid => listed l guid entry && p guid := by
    rw [Bool.eq_iff_iff, any_eq_true, any_eq_true]
    have hcongr : ∀ guid ∈ l.allowedLooters, listed l' guid entry = listed l guid entry :=
      fun guid hguid => h.listed_of_ne (fun heq => hnew.looter (heq ▸ hguid)) entry
    constructor
    · rintro ⟨guid, hguid, hp⟩
      exact ⟨guid, hguid, hcongr guid hguid ▸ hp⟩
    · rintro ⟨guid, hguid, hp⟩
      exact ⟨guid, hguid, (hcongr guid hguid).symm ▸ hp⟩
  rw [hlooters, any_append, hold, any_cons, any_nil, Bool.or_false, h.listed_self hnew]

theorem Entered.freeforall (entry : Entry) :
    (l'.lootItem entry).any (fun item => item.freeforall) =
      (l.lootItem entry).any fun item => item.freeforall := by
  rw [h.lootItem, Option.any_map]
  refine congrArg (fun p => (l.lootItem entry).any p) (funext fun item => ?_)
  exact freeforall_of_kind (entered_kind entry item)

/-- The pairs of the players and what they list. -/
theorem Entered.pairs (hnew : Newcomer l player) :
    (l'.allowedLooters.product l'.entries).countP (openFor l') =
      (l.allowedLooters.product l.entries).countP (openFor l) + (ffaListed.length +
        questListed.countP fun index => (l.questItems[index]?).any fun item => item.freeforall) := by
  have hlooters : l'.allowedLooters = l.allowedLooters ++ [player] := by rw [h.frame]
  have hold : (l.allowedLooters.product l.entries).countP (openFor l') =
      (l.allowedLooters.product l.entries).countP (openFor l) := by
    refine countP_congr fun taker htaker => ?_
    obtain ⟨guid, entry⟩ := taker
    have hne : guid ≠ player := fun heq =>
      hnew.looter (heq ▸ (pair_mem_product.mp htaker).1)
    rw [openFor, openFor, h.freeforall, hasNote, hasNote, h.notes_of_ne hne]
  have hself : ∀ entry, openFor l' (player, entry) =
      (decide (entry.index ∈ listedIn questListed ffaListed entry) &&
        (l.lootItem entry).any fun item => item.freeforall) := by
    intro entry
    have hnote : hasNote l' player entry false =
        decide (entry.index ∈ listedIn questListed ffaListed entry) := by
      rw [Bool.eq_iff_iff, h.hasNote_self hnew, decide_eq_true_iff]
      exact ⟨And.left, fun hmem => ⟨hmem, rfl⟩⟩
    rw [openFor, h.freeforall, hnote, Bool.and_comm]
  have hffa : (List.range l.items.length).countP (fun index => openFor l' (player, .item index)) =
      ffaListed.length := by
    have hwanted : ∀ index ∈ ffaListed,
        ((l.items[index]?).any fun item => item.freeforall) = true := by
      intro index hindex
      obtain ⟨item, hitem, hwants⟩ := (h.ffaWanted index).mp hindex
      rw [ffaWants, Bool.and_eq_true, Bool.and_eq_true] at hwants
      rw [hitem, Option.any_some, hwants.1.2]
    have hsub : ∀ index ∈ ffaListed, index ∈ List.range l.items.length := by
      intro index hindex
      obtain ⟨item, hitem, -⟩ := (h.ffaWanted index).mp hindex
      exact mem_range.mpr (List.getElem?_eq_some_iff.mp hitem).1
    simp only [hself]
    rw [← countP_eq_length.mpr hwanted]
    exact countP_mem h.ffaNodup nodup_range hsub _
  have hquest : (List.range l.questItems.length).countP (fun index =>
      openFor l' (player, .quest index)) =
        questListed.countP fun index => (l.questItems[index]?).any fun item => item.freeforall := by
    have hsub : ∀ index ∈ questListed, index ∈ List.range l.questItems.length := by
      intro index hindex
      obtain ⟨item, hitem, -⟩ := h.questWanted index hindex
      exact mem_range.mpr (List.getElem?_eq_some_iff.mp hitem).1
    simp only [hself]
    exact countP_mem h.questNodup nodup_range hsub _
  have hplayer : ([player].flatMap fun guid => l.entries.map (Prod.mk guid)).countP (openFor l') =
      ffaListed.length +
        questListed.countP fun index => (l.questItems[index]?).any fun item => item.freeforall := by
    rw [flatMap_singleton, countP_map, ← hffa, ← hquest]
    exact countP_entries l _
  rw [hlooters, h.entries, List.product, flatMap_append, countP_append, hplayer, ← hold]
  rfl

end

section

variable (htallying : Tallying world drop owner players l) (hfilling : Filling world drop owner l)
include htallying hfilling

/-- The items for one player that are counted. -/
theorem Tallying.enter_items (h : Entered world player l l' questListed ffaListed) :
    (List.range l.items.length).countP (fun index =>
      openShared l' (.item index) && due world drop owner l' (.item index)) =
    (List.range l.items.length).countP (fun index =>
      openShared l (.item index) && due world drop owner l (.item index)) +
      l.items.countP (conditionalCounts world player l) := by
  have hlooters : l'.allowedLooters = l.allowedLooters ++ [player] := by rw [h.frame]
  rw [← countP_range_getElem? l.items]
  refine countP_split fun index _ => ?_
  rw [h.openShared, due_item, due_item, openShared]
  have hitem' := h.lootItem (.item index)
  rw [Loot.lootItem, Loot.lootItem] at hitem'
  rw [hitem', Loot.lootItem]
  cases hitem : l.items[index]? with
  | none => exact ⟨rfl, fun hno => Bool.noConfusion hno.2⟩
  | some item =>
    have hkind := @entered_kind world l player questListed (.item index) item
    obtain ⟨-, hneeds⟩ := hfilling.drawn (.item index) item hitem
    rw [Option.map_some, Option.any_some, Option.any_some, Option.any_some, Option.any_some,
      conditions_of_kind hkind, announced_of_kind hkind, hlooters]
    simp only [allowed_of_kind hkind]
    rw [any_append, any_cons, any_nil, Bool.or_false, conditionalCounts, sharedWants,
      allowed_of_not_needsQuest hneeds player false (some l.lootOwnerGUID)]
    cases hlooted : item.isLooted with
    | true => exact ⟨rfl, fun hno => Bool.noConfusion hno.1⟩
    | false =>
      cases hffa : item.freeforall with
      | true => exact ⟨rfl, fun hno => Bool.noConfusion hno.1⟩
      | false =>
        cases hempty : item.conditions.isEmpty with
        | true => simp
        | false =>
          have hcounted := htallying.counted index item hitem hlooted hffa hempty
          have hany : item.isCounted = l.allowedLooters.any fun player =>
              allowedForPlayer world player false none item := by
            rw [Bool.eq_iff_iff, hcounted, any_eq_true]
          rw [hany]
          generalize (l.allowedLooters.any fun player =>
            allowedForPlayer world player false none item) = counted
          cases counted with
          | true => simp
          | false => simp

section

variable (hfair : FairDrop world drop owner players room) (hplayer : player ∈ players)
  (hnew : Newcomer l player) (h : Entered world player l l' questListed ffaListed)
include hfair hplayer hnew h

/-- The quest items for one player that are counted. -/
theorem Tallying.enter_quest :
    (List.range l.questItems.length).countP (fun index =>
      openShared l' (.quest index) && due world drop owner l' (.quest index)) =
    (List.range l.questItems.length).countP (fun index =>
      openShared l (.quest index) && due world drop owner l (.quest index)) +
      questListed.countP fun index =>
        (l.questItems[index]?).any fun item => !item.freeforall && !item.isBlocked := by
  have hsub : ∀ index ∈ questListed, index ∈ List.range l.questItems.length := by
    intro index hindex
    obtain ⟨item, hitem, -⟩ := h.questWanted index hindex
    exact mem_range.mpr (List.getElem?_eq_some_iff.mp hitem).1
  rw [← countP_mem h.questNodup nodup_range hsub]
  refine countP_split fun index _ => ?_
  have hany := h.any_listed hnew (.quest index) fun _ => true
  simp only [Bool.and_true] at hany
  rw [h.openShared, due_quest, due_quest, hany, openShared, Loot.lootItem]
  rw [show (Entry.quest index).index = index from rfl,
    show listedIn questListed ffaListed (.quest index) = questListed from rfl]
  cases hitem : l.questItems[index]? with
  | none => exact ⟨by simp, fun hno => by simp at hno⟩
  | some item =>
    rw [Option.any_some, Option.any_some]
    by_cases hmem : index ∈ questListed
    swap
    · simp [hmem]
    obtain ⟨other, hother, hlooted, hsees⟩ := h.questWanted index hmem
    obtain rfl := Option.some.inj (hitem.symm.trans hother)
    rw [hlooted]
    cases hffa : item.freeforall with
    | true => simp
    | false =>
      have hitemFair := @Filling.fair world drop owner players room l (.quest index) item hfilling
        hfair hitem
      have hneeds : item.needsQuest = true := (hfilling.drawn (.quest index) item hitem).2
      have hseen : seesItem world owner player item = true := by
        rw [← hsees, seesItem, seesQuestItem, seesQuestItem, hfilling.owner]
      have hblocked : item.isBlocked =
          l.allowedLooters.any fun player => listed l player (.quest index) := by
        rw [Bool.eq_iff_iff, htallying.blocked index item hitem, any_eq_true]
        constructor
        · rintro ⟨guid, hguid, hlisted, -⟩
          exact ⟨guid, hguid, hlisted⟩
        · rintro ⟨guid, hguid, hlisted⟩
          have hguidSees := htallying.sees guid hguid index item hitem hlisted
          have hguidIn := htallying.within guid hguid
          refine ⟨guid, hguid, hlisted, ?_⟩
          rcases hitemFair.once hneeds hffa with hblocks | hone
          · exact hblocks guid hguidIn hguidSees
          · have heq := hone guid hguidIn player hplayer hguidSees hseen
            exact absurd (heq ▸ hguid) hnew.looter
      rw [hblocked, decide_eq_true hmem]
      cases l.allowedLooters.any fun player => listed l player (.quest index) with
      | true => simp
      | false => simp

/-- **What is counted when a player is entered.** -/
theorem Tallying.enter_count :
    l'.unlootedCount ≡ remaining (due world drop owner l') l' [MOD 256] := by
  have hquestCounts : questListed.countP (questCounts l) =
      (questListed.countP fun index => (l.questItems[index]?).any fun item => item.freeforall) +
        questListed.countP fun index =>
          (l.questItems[index]?).any fun item => !item.freeforall && !item.isBlocked := by
    refine countP_split fun index _ => ?_
    rw [questCounts]
    cases l.questItems[index]? with
    | none => exact ⟨rfl, fun hno => Bool.noConfusion hno.1⟩
    | some item =>
      rw [Option.any_some, Option.any_some, Option.any_some]
      cases item.freeforall with
      | true => exact ⟨rfl, fun hno => Bool.noConfusion hno.2⟩
      | false => exact ⟨rfl, fun hno => Bool.noConfusion hno.1⟩
  have hremaining : remaining (due world drop owner l') l' =
      remaining (due world drop owner l) l + (questListed.countP (questCounts l) +
        ffaListed.length + l.items.countP (conditionalCounts world player l)) := by
    have hitems := htallying.enter_items hfilling h
    have hquest := htallying.enter_quest hfilling hfair hplayer hnew h
    rw [remaining, h.pairs hnew, h.entries, countP_entries, hitems, hquest, remaining, countP_entries,
      hquestCounts]
    omega
  rw [hremaining]
  exact h.count.modEq.trans (htallying.count.add_right _)

end

end

theorem seesQuestItem_of_owner (h : l.lootOwnerGUID = owner) (player : Guid) (item : LootItem) :
    seesQuestItem world player l item = seesItem world owner player item := by
  rw [seesItem, seesQuestItem, seesQuestItem, h]

/-- A player is entered, and the counter goes with it. -/
theorem Tallying.enter (htallying : Tallying world drop owner players l)
    (hfilling : Filling world drop owner l)
    (hfair : FairDrop world drop owner players room) (hplayer : player ∈ players)
    (hnew : player ∉ l.allowedLooters) (h : Entered world player l l' questListed ffaListed) :
    Tallying world drop owner players l' := by
  have hnewcomer := hfilling.strangers player hnew
  have hlooters : l'.allowedLooters = l.allowedLooters ++ [player] := by rw [h.frame]
  have hbefore : ∀ {entry new}, l'.lootItem entry = some new → ∃ old, l.lootItem entry = some old ∧
      new = old.entered world player l questListed entry ∧ new.kind = old.kind := by
    intro entry new hnew
    rw [h.lootItem] at hnew
    obtain ⟨old, hold, rfl⟩ := Option.map_eq_some_iff.mp hnew
    exact ⟨old, hold, rfl, entered_kind entry old⟩
  have hlooter : ∀ {guid}, guid ∈ l'.allowedLooters →
      guid = player ∨ guid ≠ player ∧ guid ∈ l.allowedLooters := by
    intro guid hguid
    rw [hlooters] at hguid
    rcases mem_append.mp hguid with hold | hself
    · exact Or.inr ⟨fun heq => hnew (heq ▸ hold), hold⟩
    · exact Or.inl (mem_singleton.mp hself)
  have hroom : HasRoom l' ↔ HasRoom l := by rw [HasRoom, HasRoom, h.lengths.1, h.lengths.2]
  refine ⟨fun guid hguid => ?_, htallying.enter_count hfilling hfair hplayer hnewcomer h,
    h.count.lt htallying.small,
    fun index new hitem hlooted hffa hempty => ?_, fun index new hitem => ?_,
    fun guid hguid index new hitem hlisted => ?_, fun guid hguid index new hitem hffa hlisted => ?_,
    fun hroom' guid hguid index new hitem hlooted hsees => ?_⟩
  · rcases hlooter hguid with rfl | ⟨-, hold⟩
    · exact hplayer
    · exact htallying.within guid hold
  · obtain ⟨old, hold, rfl, hkind⟩ := hbefore hitem
    rw [entered_isLooted] at hlooted
    rw [freeforall_of_kind hkind] at hffa
    rw [conditions_of_kind hkind] at hempty
    have hcounted := htallying.counted index old hold hlooted hffa hempty
    obtain ⟨-, hneeds⟩ := hfilling.drawn (.item index) old hold
    have hwants : sharedWants world player l old =
        allowedForPlayer world player false none old := by
      rw [sharedWants, hlooted, hffa, allowed_of_not_needsQuest hneeds player false
        (some l.lootOwnerGUID)]
      rfl
    have hnow : (old.entered world player l questListed (.item index)).isCounted = true ↔
        old.isCounted = true ∨ allowedForPlayer world player false none old = true := by
      rw [LootItem.entered, hwants]
      split_ifs with hallowed
      · rw [LootItem.enterConditional, hempty, hallowed]
        simp
      · simp [hallowed]
    rw [hnow, hcounted, hlooters]
    simp only [allowed_of_kind hkind, mem_append, mem_singleton]
    constructor
    · rintro (⟨guid, hguid, hallowed⟩ | hallowed)
      · exact ⟨guid, Or.inl hguid, hallowed⟩
      · exact ⟨player, Or.inr rfl, hallowed⟩
    · rintro ⟨guid, hguid | rfl, hallowed⟩
      · exact Or.inl ⟨guid, hguid, hallowed⟩
      · exact Or.inr hallowed
  · obtain ⟨old, hold, rfl, -⟩ := hbefore hitem
    have hany := h.any_listed hnewcomer (.quest index) (blocksQuestItem world)
    have hblockedOld : old.isBlocked = l.allowedLooters.any fun guid =>
        listed l guid (.quest index) && blocksQuestItem world guid := by
      rw [Bool.eq_iff_iff, htallying.blocked index old hold, any_eq_true]
      simp only [Bool.and_eq_true]
    have hnow : (old.entered world player l questListed (.quest index)).isBlocked =
        l'.allowedLooters.any fun guid =>
          listed l' guid (.quest index) && blocksQuestItem world guid := by
      rw [hany, ← hblockedOld, LootItem.entered]
      change _ = (old.isBlocked || decide (index ∈ questListed) && blocksQuestItem world player)
      split_ifs with hmem
      · rw [decide_eq_true hmem, Bool.true_and]
        rfl
      · rw [decide_eq_false hmem, Bool.false_and, Bool.or_false]
    rw [hnow, any_eq_true]
    simp only [Bool.and_eq_true]
  · obtain ⟨old, hold, rfl, hkind⟩ := hbefore hitem
    rw [sees_of_kind hkind]
    rcases hlooter hguid with rfl | ⟨hne, hguid⟩
    · rw [h.listed_self hnewcomer] at hlisted
      obtain ⟨item, hitem, -, hsees⟩ := h.questWanted index (of_decide_eq_true hlisted)
      obtain rfl := Option.some.inj (hold.symm.trans hitem)
      rwa [seesQuestItem_of_owner hfilling.owner] at hsees
    · rw [h.listed_of_ne hne] at hlisted
      exact htallying.sees guid hguid index old hold hlisted
  · obtain ⟨old, hold, rfl, hkind⟩ := hbefore hitem
    rw [allowed_of_kind hkind]
    rcases hlooter hguid with rfl | ⟨hne, hguid⟩
    · rw [h.listed_self hnewcomer] at hlisted
      obtain ⟨item, hitem, hwants⟩ := (h.ffaWanted index).mp (of_decide_eq_true hlisted)
      obtain rfl := Option.some.inj (hold.symm.trans hitem)
      rw [ffaWants, Bool.and_eq_true] at hwants
      obtain ⟨-, hneeds⟩ := hfilling.drawn (.item index) old hold
      rw [← allowed_of_not_needsQuest hneeds guid false (some l.lootOwnerGUID)]
      exact hwants.2
    · rw [h.listed_of_ne hne] at hlisted
      rw [freeforall_of_kind hkind] at hffa
      exact htallying.ffaTakers guid hguid index old hold hffa hlisted
  · obtain ⟨old, hold, rfl, hkind⟩ := hbefore hitem
    rw [sees_of_kind hkind] at hsees
    rw [entered_isLooted] at hlooted
    rcases hlooter hguid with rfl | ⟨hne, hguid⟩
    · rw [h.listed_self hnewcomer]
      refine decide_eq_true (h.questComplete (hroom.mp hroom') index ⟨old, hold, hlooted, ?_⟩)
      rwa [seesQuestItem_of_owner hfilling.owner]
    · rw [h.listed_of_ne hne]
      exact htallying.complete (hroom.mp hroom') guid hguid index old hold hlooted hsees

theorem fills_tallying (hfair : FairDrop world drop owner players room) :
    Fills world drop owner players (Tallying world drop owner players) where
  enter _ _ _ _ _ hfilling hplayer hnew _ hentered h := h.enter hfilling hfair hplayer hnew hentered
  take _ _ _ _ _ _ hfilling hlooter htaken h := h.take hfair hfilling hlooter htaken

/-! ### The filled loot -/

/-- **What has been counted is what is left**, once all players are entered. -/
theorem Tallying.due_eq (h : Tallying world drop owner players l)
    (hfilling : Filling world drop owner l) (hfair : FairDrop world drop owner players room)
    (hroom : room → HasRoom l) (hall : ∀ player ∈ players, player ∈ l.allowedLooters) :
    remaining (due world drop owner l) l = l.unlooted world := by
  have hclaim : ∀ entry ∈ l.entries,
      (openShared l entry && due world drop owner l entry) = true ↔
        (openShared l entry && claimed world l entry) = true := by
    intro entry hentry
    rw [Bool.and_eq_true, Bool.and_eq_true, and_congr_right_iff]
    intro hopen
    obtain ⟨item, hitem⟩ := mem_entries.mp hentry
    rw [openShared, hitem, Option.any_some, Bool.and_eq_true, Bool.not_eq_true',
      Bool.not_eq_true'] at hopen
    obtain ⟨hlooted, hffa⟩ := hopen
    have hitemFair := hfilling.fair hfair hitem
    obtain ⟨-, hneeds⟩ := hfilling.drawn entry item hitem
    rw [claimed_iff]
    cases entry with
    | item index =>
      have hmay : ∀ player, MayTake world l player (.item index) ↔
          allowedForPlayer world player false none item = true := by
        intro player
        constructor
        · rintro ⟨other, hother, hallowed, -⟩
          obtain rfl := Option.some.inj (hitem.symm.trans hother)
          exact hallowed
        · exact fun hallowed => ⟨item, hitem, hallowed, trivial⟩
      simp only [hmay]
      rw [Loot.lootItem] at hitem
      rw [due_item, hitem, Option.any_some]
      split_ifs with hempty
      · rw [hitemFair.shown hneeds hffa hempty]
        constructor
        · rintro ⟨player, hplayer, hallowed⟩
          exact ⟨player, hall player hplayer, hallowed⟩
        · rintro ⟨player, hplayer, hallowed⟩
          exact ⟨player, h.within player hplayer, hallowed⟩
      · exact any_eq_true
    | quest index =>
      rw [due_quest, any_eq_true]
      have hmay : ∀ player, allowedForPlayer world player false none item = true →
          listed l player (.quest index) = true → MayTake world l player (.quest index) := by
        intro player hallowed hlisted
        rw [← mayTake_iff, mayTake, hitem, Option.any_some, hallowed, hlisted, Bool.or_true]
        rfl
      constructor
      · rintro ⟨player, hplayer, hlisted⟩
        rcases hitemFair.takers hneeds hffa with hcan | ⟨hr, other, hother, hsees, hallowed⟩
        · refine ⟨player, hplayer, hmay player (hcan player (h.within player hplayer) ?_) hlisted⟩
          exact h.sees player hplayer index item hitem hlisted
        · exact ⟨other, hall other hother, hmay other hallowed
            (h.complete (hroom hr) other (hall other hother) index item hitem hlooted hsees)⟩
      · rintro ⟨player, hplayer, hcan⟩
        refine ⟨player, hplayer, ?_⟩
        have hlisted := mayTake_iff.mpr hcan
        rw [mayTake, hitem, Option.any_some, Bool.and_eq_true] at hlisted
        exact hlisted.2
  rw [Loot.unlooted, remaining, remaining, countP_congr hclaim]

/-- The loot that is filled is counted as often as it can be taken, and that is less than the counter
can hold. -/
structure FairFill (world : World) (lootOwner : Guid) (personal : Bool) (drop : Drop) (gold : ℕ) :
    Prop where
  fair : FairDrop world drop lootOwner (entrants world lootOwner personal drop)
    (HasRoom (fillLoot world lootOwner personal drop gold))
  small : (fillLoot world lootOwner personal drop gold).unlooted world < 256

/-- The counter of a filled loot. -/
theorem filledState_tallied {lootOwner : Guid} {personal : Bool} {gold : ℕ}
    (h : FairFill world lootOwner personal drop gold) :
    Sound world (Tallied world) (filledState world lootOwner personal drop gold) := by
  obtain ⟨filled, hfilling, htallying, hlooters, hremarked⟩ :=
    (fills_tallying h.fair).fillLoot fun _ hraw => hraw.tallying
  have hall : ∀ player ∈ entrants world lootOwner personal drop, player ∈ filled.allowedLooters := by
    rw [hlooters]
    exact fun _ hplayer => hplayer
  have hleft := htallying.due_eq hfilling h.fair (hremarked.same.hasRoom.mp ·) hall
  have hunlooted : (fillLoot world lootOwner personal drop gold).unlooted world =
      filled.unlooted world := by
    rw [Loot.unlooted, hremarked.same.claimed, hremarked.remaining, Loot.unlooted]
  have hsmall : filled.unlooted world < 256 := hunlooted ▸ h.small
  have htallied : Tallied world filled := by
    refine ⟨?_, hsmall, fun player hplayer entry item hitem hffa hlisted => ?_⟩
    · have hcount := htallying.count
      rw [hleft] at hcount
      exact Nat.ModEq.eq_of_lt_of_lt hcount htallying.small hsmall
    · cases entry with
      | item index => exact htallying.ffaTakers player hplayer index item hitem hffa hlisted
      | quest index =>
        obtain ⟨-, hneeds⟩ := hfilling.drawn (.quest index) item hitem
        exact (hfilling.fair h.fair hitem).ffaTakers hneeds hffa player
          (htallying.within player hplayer)
          (htallying.sees player hplayer index item hitem hlisted)
  exact ⟨(keeps_tallied world).mark filled _ hremarked htallied,
    hfilling.filled.same hremarked.same, fun _ _ hroll => (Option.some_ne_none _ hroll.symm).elim⟩

/-- The event is one of the allowed looters; what the master looter gives, and what is disenchanted, is
for one player, not looted, and may be taken by an allowed looter. -/
def FairEvent (world : World) (s : LootState) : LootEvent → Prop
  | .storeLootItem player _ _ => player ∈ s.loot.allowedLooters
  | .autoStore player _ => player ∈ s.loot.allowedLooters
  | .lootMasterGive player target slotid inReach canStoreNewItem => ∀ entry item,
      gives world player target slotid inReach canStoreNewItem s.loot = some (entry, item) →
        item.isLooted = false ∧ item.freeforall = false ∧
          ∃ looter ∈ s.loot.allowedLooters, MayTake world s.loot looter entry
  | .update order now connected canStoreNewItem =>
    Along (updateRoll world now connected canStoreNewItem) (fun s lootListId =>
      ∀ roll winner item, s.rolls lootListId = some roll →
        roll.updateRoll now = some (some winner) → connected winner.1 = true →
          winner.2.vote = .disenchant →
            s.loot.lootItem (s.loot.entryOf lootListId) = some item →
              item.isLooted = false ∧ item.freeforall = false) s order
  | _ => True

theorem FairEvent.within {s : LootState} {event : LootEvent} (h : FairEvent world s event) :
    Within world (countedChanges world) s event := by
  cases event with
  | storeLootItem player slot canStoreNewItem => exact fun _ _ _ _ => h
  | autoStore player canStoreNewItem =>
    intro l' hsame _ _ _ _ _
    exact (hsame.allowedLooters ▸ h : player ∈ l'.allowedLooters)
  | lootMasterGive player target slotid inReach canStoreNewItem => exact h
  | lootOpened start enchanting => trivial
  | lootRoll player lootListId rollType rollNumber => trivial
  | update order now connected canStoreNewItem =>
    refine Along.imp_of_invariant (fun _ => True) (fun _ _ _ _ => trivial)
      (fun s lootListId _ hfair => ?_) trivial h
    intro roll winner hroll hended hconnected hvote item hitem
    have hmarked : Remarked s.loot
        ((s.loot.modifyItem (s.loot.entryOf lootListId) (LootItem.block false)).modifyItem
          (s.loot.entryOf lootListId) (LootItem.winBy winner.1)) :=
      (@Remarked.modifyItem s.loot _ (LootItem.block false) fun _ => rfl).trans
        (Remarked.modifyItem _ _ fun _ => rfl)
    have heq := hmarked.items (s.loot.entryOf lootListId)
    rw [hitem, Option.map_some] at heq
    obtain ⟨old, hold, hunmarked⟩ := Option.map_eq_some_iff.mp heq.symm
    obtain ⟨hlooted, hffa⟩ := hfair roll winner old hroll hended hconnected hvote hold
    exact ⟨(isLooted_of_unmarked hunmarked).symm.trans hlooted,
      (freeforall_of_origin (origin_of_unmarked hunmarked)).symm.trans hffa⟩

/-- **The counter is exact** in every run of a loot that is counted as often as it can be taken, in
which the allowed looters take items, and what is given or disenchanted is theirs to take. -/
theorem counter_exact (world : World) (lootOwner : Guid) (personal : Bool) (drop : Drop) (gold : ℕ)
    (hfill : FairFill world lootOwner personal drop gold) (events : List LootEvent)
    (h : Along (lootStep world) (FairEvent world)
      (filledState world lootOwner personal drop gold) events) :
    Exact world
      (events.foldl (lootStep world) (filledState world lootOwner personal drop gold)).loot := by
  have hstep : ∀ s event, Sound world (Tallied world) s → FairEvent world s event →
      Sound world (Tallied world) (lootStep world s event) := fun s event hs hfair =>
    (keeps_tallied world).step (fun _ _ _ _ hlooter => hlooter) hs hfair.within
  exact (h.invariant (Sound world (Tallied world)) hstep (filledState_tallied hfill)).inv.exact

/-! ### Two players in group loot -/

/-- Quest items of entry 9 follow the loot rules. -/
def questWorld : World :=
  { pairWorld with
    template := fun itemid =>
      if itemid = 7 then some ⟨20, false, false, 1, false, false, 0, 0⟩
      else if itemid = 9 then some ⟨20, false, true, 1, false, false, 0, 0⟩ else none }

/-- One item drops of each of these, and both players are near. -/
def questDrop (items : List LootStoreItem) : Drop where
  items := items.map fun item => (item, 1)
  ownerInWorld := true
  isAtGroupRewardDistance := fun _ => true
  canStoreNewItem := fun _ _ => true

/-- The players take the items that drop for all of them, and there is nothing left. -/
theorem taken_exact :
    Exact questWorld
      ([LootEvent.storeLootItem 2 0 true, .autoStore 1 fun _ => true].foldl (lootStep questWorld)
        (filledState questWorld 1 false (questDrop [⟨7, false, []⟩, ⟨7, false, []⟩]) 0)).loot := by
  refine counter_exact questWorld 1 false _ 0 ⟨fun drawn hdrawn proto hproto => ?_, by decide⟩ _
    ⟨by unfold FairEvent; decide, by unfold FairEvent; decide, trivial⟩
  have hseven : drawn = (⟨7, false, []⟩, 1) := by
    rcases mem_cons.mp hdrawn with hfirst | hsecond
    · exact hfirst
    · exact mem_singleton.mp hsecond
  subst hseven
  obtain rfl := Option.some.inj hproto
  refine ⟨fun _ _ _ => ⟨fun _ => ⟨1, by decide, rfl⟩, fun _ => rfl⟩, fun hquest => ?_,
    fun hquest => ?_, fun hquest => ?_⟩
  · cases hquest
  · cases hquest
  · cases hquest

/-- **A quest item is counted for each who lists it**: one quest item that follows the loot rules, and
both players see it; the counter is 2, and one thing can be taken. -/
theorem quest_counted_twice :
    ¬ Exact questWorld (filledState questWorld 1 false (questDrop [⟨9, true, []⟩]) 0).loot := by
  intro h
  exact absurd h.count (by decide)

end IscServer.Looting
