import Mathlib
import IscServer.Loot.LootNotes

/-!
# Loot is not handed out twice

An item for one player is put into inventories once, and one that is free for all once per player.
Two paths do not see to it: the master looter gives an item that has been looted, and a player whom
`FillLoot` has not entered has no list in which an item that is free for all is marked.

## Main results

* `Marked` : what has been put into inventories is marked.
* `stored_once` : where neither happens, nothing is handed out twice.
* `given_twice` : the master looter gives what another player has taken.
-/

namespace IscServer.Looting

open Run

variable {world : World} {l l' : Loot} {player target : Guid} {entry : Entry} {note : Note}
  {item : LootItem} {lootSlot : ℕ}

/-- How often an entry has been put into inventories. -/
def Loot.times (l : Loot) (entry : Entry) : ℕ := l.stored.countP fun stored => stored.2 = entry

/-- How often an entry has been put into the inventory of a player. -/
def Loot.timesBy (l : Loot) (player : Guid) (entry : Entry) : ℕ := l.stored.count (player, entry)

/-- Nothing is handed out twice. -/
structure Loot.Once (l : Loot) : Prop where
  shared : ∀ entry item, l.lootItem entry = some item → item.freeforall = false →
    l.times entry ≤ 1
  each : ∀ entry item, l.lootItem entry = some item → item.freeforall = true →
    ∀ player, l.timesBy player entry ≤ 1

/-- An item that is free for all and that the player may take is taken by one whom `FillLoot` has
entered. -/
def TakenByLooters (world : World) (l : Loot) (player : Guid) (lootSlot : ℕ) : Prop :=
  ∀ item, l.items[lootSlot]? = some item → item.freeforall = true →
    allowedForPlayer world player false none item = true → player ∈ l.allowedLooters

/-- An item that the master looter gives is not looted, nor taken by the target where it is free for
all; nothing is created for a count of zero. -/
def GivenUnlooted (l : Loot) (target : Guid) (entry : Entry) (item : LootItem) : Prop :=
  item.count = 0 ∨
    item.isLooted = false ∧ (item.freeforall = true → hasNote l target entry true = false)

/-- The event keeps to the marks. -/
def Clean (world : World) (s : LootState) : LootEvent → Prop
  | .storeLootItem player lootSlot _ => TakenByLooters world s.loot player lootSlot
  | .autoStore player _ => ∀ lootSlot, TakenByLooters world s.loot player lootSlot
  | .lootMasterGive player target slotid inReach canStoreNewItem => ∀ entry item,
      gives world player target slotid inReach canStoreNewItem s.loot = some (entry, item) →
        GivenUnlooted s.loot target entry item
  | _ => True

/-! ### What is stored is marked -/

/-- What has been put into inventories of an entry is marked. -/
structure MarkedEntry (l : Loot) (entry : Entry) (item : LootItem) : Prop where
  shared : item.freeforall = false →
    l.times entry ≤ 1 ∧ (item.isLooted = false → l.times entry = 0)
  each : item.freeforall = true → ∀ player, l.timesBy player entry ≤ 1 ∧
    (item.isLooted = false → hasNote l player entry true = false → l.timesBy player entry = 0)

/-- **What has been put into inventories is marked.** -/
def Marked (l : Loot) : Prop :=
  ∀ entry item, l.lootItem entry = some item → MarkedEntry l entry item

theorem Marked.once (h : Marked l) : l.Once :=
  ⟨fun entry item hitem hffa => ((h entry item hitem).shared hffa).1,
    fun entry item hitem hffa player => ((h entry item hitem).each hffa player).1⟩

/-- Nothing has been stored of the entry, and marks are only added. -/
theorem MarkedEntry.mono {new : LootItem} (h : MarkedEntry l entry item)
    (hffa : new.freeforall = item.freeforall)
    (hlooted : new.isLooted = false → item.isLooted = false)
    (htimes : l'.times entry = l.times entry)
    (htimesBy : ∀ player, l'.timesBy player entry = l.timesBy player entry)
    (hnoted : ∀ player, l.timesBy player entry = 0 ∨
      (hasNote l' player entry true = false → hasNote l player entry true = false)) :
    MarkedEntry l' entry new := by
  refine ⟨fun hshared => ?_, fun hfree player => ?_⟩
  · rw [htimes]
    obtain ⟨honce, hnone⟩ := h.shared (hffa.symm.trans hshared)
    exact ⟨honce, fun hnew => hnone (hlooted hnew)⟩
  · rw [htimesBy]
    obtain ⟨honce, hnone⟩ := h.each (hffa.symm.trans hfree) player
    refine ⟨honce, fun hnew hnote => ?_⟩
    rcases hnoted player with hzero | hnoted
    · exact hzero
    · exact hnone (hlooted hnew) (hnoted hnote)

theorem Marked.remark (h : Marked l) (hmarked : Remarked l l') : Marked l' := by
  intro entry new hnew
  have heq := hmarked.items entry
  rw [hnew, Option.map_some] at heq
  obtain ⟨old, hold, hunmarked⟩ := Option.map_eq_some_iff.mp heq.symm
  have hstored : l'.stored = l.stored := by rw [hmarked.frame]
  refine (h entry old hold).mono (freeforall_of_origin (origin_of_unmarked hunmarked)).symm
    (fun hlooted => (isLooted_of_unmarked hunmarked).trans hlooted) ?_ (fun player => ?_)
    fun player => Or.inr fun hnote => ?_
  · rw [Loot.times, Loot.times, hstored]
  · rw [Loot.timesBy, Loot.timesBy, hstored]
  · rwa [hasNote_congr hmarked.notes] at hnote

/-- What is in the inventories after an item has been put into one. -/
theorem stored_storeNewItem (player : Guid) (entry : Entry) (item : LootItem) (l : Loot) :
    (storeNewItem player entry item l).stored =
      l.stored ++ if item.count = 0 then [] else [(player, entry)] := by
  rw [storeNewItem]
  split_ifs
  · exact (List.append_nil _).symm
  · rfl

/-- How often an entry is stored when one more is put into an inventory. -/
theorem times_of_stored {other : Entry}
    (h : l'.stored = l.stored ++ if item.count = 0 then [] else [(player, entry)]) :
    l'.times other = l.times other + (if item.count ≠ 0 ∧ other = entry then 1 else 0) ∧
    ∀ guid, l'.timesBy guid other = l.timesBy guid other +
      if item.count ≠ 0 ∧ guid = player ∧ other = entry then 1 else 0 := by
  rw [Loot.times, Loot.times, h, List.countP_append]
  refine ⟨?_, fun guid => ?_⟩
  · by_cases hcount : item.count = 0
    · simp [hcount]
    · simp [hcount, eq_comm]
  · rw [Loot.timesBy, Loot.timesBy, h, List.count_append]
    by_cases hcount : item.count = 0
    · simp [hcount]
    · have hbeq : ((player, entry) == (guid, other)) = decide (guid = player ∧ other = entry) := by
        rw [Bool.eq_iff_iff, beq_iff_eq, decide_eq_true_iff, Prod.mk.injEq, eq_comm,
          @eq_comm _ entry]
      rw [if_neg hcount, List.count_singleton, hbeq]
      simp [hcount]

theorem stored_storeTaken (player : Guid) (entry : Entry) (note : Note) (item : LootItem) (l : Loot) :
    (storeTaken player entry note item l).stored =
      l.stored ++ if item.count = 0 then [] else [(player, entry)] := by
  have hmark : (mark player note l).stored = l.stored := by
    cases note with
    | none | quest _ | ffa _ | conditional _ => rfl
  have hmodify : ((mark player note l).modifyItem entry LootItem.take).stored = l.stored := by
    rw [← hmark]
    cases entry with
    | item index => rfl
    | quest index => rfl
  rw [storeTaken, ← hmodify]
  exact stored_storeNewItem player entry item _

/-- **Taking an item.** -/
theorem Marked.take (h : Marked l) (hfilled : Filled world l)
    (htaken : Taken world player lootSlot l entry note item)
    (hlooter : entry.isQuest = false → item.freeforall = true → player ∈ l.allowedLooters) :
    Marked (storeTaken player entry note item l) := by
  obtain ⟨hbefore, hnotes⟩ := hasNote_storeTaken hfilled htaken hlooter
  have hstored := stored_storeTaken player entry note item l
  intro other new hnew
  obtain ⟨htimes, htimesBy⟩ := @times_of_stored l _ player entry item other hstored
  rw [lootItem_storeTaken] at hnew
  by_cases hother : other = entry
  swap
  · rw [if_neg hother] at hnew
    refine (h other new hnew).mono rfl (fun hlooted => hlooted) ?_ (fun guid => ?_)
      fun guid => Or.inr fun hnote => ?_
    · rw [htimes, if_neg fun hno => hother hno.2, Nat.add_zero]
    · rw [htimesBy, if_neg fun hno => hother hno.2.2, Nat.add_zero]
    · rw [Bool.eq_false_iff] at hnote ⊢
      refine fun hold => hnote ((hnotes guid other true).mpr ?_)
      rwa [if_neg fun hno => hother hno.2.1]
  subst hother
  rw [if_pos rfl, htaken.lootItem, Option.map_some] at hnew
  obtain rfl := Option.some.inj hnew
  have hffa := freeforall_of_origin (take_origin item)
  have hmarked := h other item htaken.lootItem
  refine ⟨fun hshared => ?_, fun hfree guid => ?_⟩
  · have hnone := (hmarked.shared (hffa.symm.trans hshared)).2 htaken.notLooted
    rw [htimes, hnone, Nat.zero_add]
    refine ⟨?_, fun hlooted => ?_⟩
    · split_ifs
      · exact Nat.le_refl 1
      · exact Nat.zero_le 1
    · rw [LootItem.take, if_neg (Bool.eq_false_iff.mp (hffa.symm.trans hshared))] at hlooted
      cases hlooted
  · have hnoting : noting other item = true := by rw [noting, hffa.symm.trans hfree]; rfl
    obtain ⟨-, hunnoted⟩ := hbefore hnoting
    obtain ⟨honce, hnone⟩ := hmarked.each (hffa.symm.trans hfree) guid
    rw [htimesBy]
    by_cases hguid : guid = player
    · subst hguid
      rw [hnone htaken.notLooted hunnoted, Nat.zero_add]
      refine ⟨?_, fun _ hnote => ?_⟩
      · split_ifs
        · exact Nat.le_refl 1
        · exact Nat.zero_le 1
      · refine absurd ((hnotes guid other true).mpr ?_) (Bool.eq_false_iff.mp hnote)
        rw [if_pos ⟨rfl, rfl, hnoting⟩]
    · rw [if_neg fun hno => hguid hno.2.1, Nat.add_zero]
      refine ⟨honce, fun _ hnote => hnone htaken.notLooted ?_⟩
      rw [Bool.eq_false_iff] at hnote ⊢
      refine fun hold => hnote ((hnotes guid other true).mpr ?_)
      rwa [if_neg fun hno => hguid hno.1]

theorem stored_modifyItem (l : Loot) (entry : Entry) (change : LootItem → LootItem) :
    (l.modifyItem entry change).stored = l.stored := by
  cases entry with
  | item index => rfl
  | quest index => rfl

/-- **Giving an item.** -/
theorem Marked.give (h : Marked l) (hitem : l.lootItem entry = some item)
    (hgives : GivenUnlooted l target entry item) :
    Marked ((storeNewItem target entry item l).modifyItem entry LootItem.give).countDown := by
  have hnotes : ∀ guid other,
      ((storeNewItem target entry item l).modifyItem entry LootItem.give).countDown.notes guid other =
        l.notes guid other := by
    intro guid other
    rw [notes_countDown, notes_modifyItem, notes_storeNewItem]
  have hstored : ((storeNewItem target entry item l).modifyItem entry LootItem.give).countDown.stored =
      l.stored ++ if item.count = 0 then [] else [(target, entry)] := by
    rw [Loot.countDown]
    rw [stored_modifyItem, stored_storeNewItem]
  intro other new hnew
  obtain ⟨htimes, htimesBy⟩ := @times_of_stored l _ target entry item other hstored
  rw [lootItem_countDown, lootItem_modifyItem, lootItem_storeNewItem, lootItem_storeNewItem] at hnew
  by_cases hother : other = entry
  swap
  · rw [if_neg hother] at hnew
    refine (h other new hnew).mono rfl (fun hlooted => hlooted) ?_ (fun guid => ?_)
      fun guid => Or.inr fun hnote => ?_
    · rw [htimes, if_neg fun hno => hother hno.2, Nat.add_zero]
    · rw [htimesBy, if_neg fun hno => hother hno.2.2, Nat.add_zero]
    · rwa [hasNote_congr hnotes] at hnote
  subst hother
  rw [if_pos rfl, hitem, Option.map_some] at hnew
  obtain rfl := Option.some.inj hnew
  have hmarked := h other item hitem
  refine ⟨fun hshared => ⟨?_, fun hlooted => Bool.noConfusion hlooted⟩,
    fun hfree guid => ⟨?_, fun hlooted => Bool.noConfusion hlooted⟩⟩
  · rw [htimes]
    rcases hgives with hcount | ⟨hlooted, -⟩
    · rw [if_neg fun hno => hno.1 hcount, Nat.add_zero]
      exact (hmarked.shared hshared).1
    · rw [(hmarked.shared hshared).2 hlooted, Nat.zero_add]
      split_ifs
      · exact Nat.le_refl 1
      · exact Nat.zero_le 1
  · rw [htimesBy]
    by_cases hguid : item.count ≠ 0 ∧ guid = target ∧ other = other
    · rw [if_pos hguid]
      obtain ⟨hcount, rfl, -⟩ := hguid
      obtain ⟨hlooted, hunnoted⟩ := hgives.resolve_left hcount
      rw [(hmarked.each hfree guid).2 hlooted (hunnoted hfree)]
    · rw [if_neg hguid, Nat.add_zero]
      exact (hmarked.each hfree guid).1

/-- **Disenchanting an item.** -/
theorem Marked.burn (h : Marked l) (entry : Entry) :
    Marked (l.modifyItem entry LootItem.loot).countDown := by
  have hstored : (l.modifyItem entry LootItem.loot).countDown.stored = l.stored :=
    stored_modifyItem l entry LootItem.loot
  have hkept : ∀ {other old new}, l.lootItem other = some old → new.freeforall = old.freeforall →
      (new.isLooted = false → old.isLooted = false) →
        MarkedEntry (l.modifyItem entry LootItem.loot).countDown other new := by
    intro other old new hold hffa hlooted
    refine (h other old hold).mono hffa hlooted ?_ (fun guid => ?_) fun guid => Or.inr fun hnote => ?_
    · rw [Loot.times, Loot.times, hstored]
    · rw [Loot.timesBy, Loot.timesBy, hstored]
    · rwa [hasNote_congr fun guid other => (notes_countDown _ guid other).trans
        (notes_modifyItem l entry LootItem.loot guid other)] at hnote
  intro other new hnew
  rw [lootItem_countDown, lootItem_modifyItem] at hnew
  split_ifs at hnew with hother
  · obtain ⟨old, hold, rfl⟩ := Option.map_eq_some_iff.mp hnew
    exact @hkept other old _ (hother.symm ▸ hold) rfl fun hlooted => Bool.noConfusion hlooted
  · exact hkept hnew rfl fun hlooted => hlooted

/-! ### Runs -/

/-- The changes that keep to the marks. -/
def cleanChanges : Changes where
  Takes l player entry item :=
    entry.isQuest = false → item.freeforall = true → player ∈ l.allowedLooters
  Gives := GivenUnlooted
  Burns _ _ := True

theorem keeps_marked (world : World) : Keeps world Marked cleanChanges where
  mark _ _ hmarked h := h.remark hmarked
  take _ _ _ _ _ _ hfilled htaken htakes h := h.take hfilled htaken htakes
  give _ _ _ _ _ hitem hgives h := h.give hitem hgives
  burn _ _ entry _ _ _ _ h := h.burn entry

theorem TakenByLooters.takes (h : ∀ lootSlot, TakenByLooters world l player lootSlot)
    (hsame : Same l l') (htaken : Taken world player lootSlot l' entry note item) :
    cleanChanges.Takes l' player entry item := by
  intro hentry hffa
  cases entry with
  | quest index => cases hentry
  | item index =>
    obtain ⟨old, hold, horigin⟩ := hsame.before htaken.lootItem
    rw [hsame.allowedLooters]
    exact h index old hold ((freeforall_of_origin horigin).symm.trans hffa)
      ((allowed_of_origin horigin player false none).symm.trans htaken.allowed)

theorem Clean.within {s : LootState} {event : LootEvent} (h : Clean world s event) :
    Within world cleanChanges s event := by
  cases event with
  | storeLootItem player slot canStoreNewItem =>
    intro entry note item htaken hentry hffa
    cases lootItemInSlot_found htaken.slot htaken.lootItem with
    | shared _ _ hshared => exact h item htaken.lootItem hffa htaken.allowed
    | unlisted => exact h item htaken.lootItem hffa htaken.allowed
    | ffa => exact h item htaken.lootItem hffa htaken.allowed
    | quest => cases hentry
  | autoStore player canStoreNewItem =>
    intro l' hsame lootSlot entry note item htaken
    exact TakenByLooters.takes h hsame htaken
  | lootMasterGive player target slotid inReach canStoreNewItem => exact h
  | lootOpened start enchanting => trivial
  | lootRoll player lootListId rollType rollNumber => trivial
  | update order now connected canStoreNewItem =>
    exact along_of_forall (fun _ _ _ _ _ _ _ _ => trivial) s order

/-- Nothing has been stored by a player who has not been entered. -/
def StrangersEmpty (l : Loot) : Prop :=
  ∀ player, player ∉ l.allowedLooters → ∀ entry, l.timesBy player entry = 0

theorem fills_marked (world : World) (drop : Drop) (owner : Guid) (players : List Guid) :
    Fills world drop owner players fun l => Marked l ∧ StrangersEmpty l where
  enter := by
    rintro l l' player questListed ffaListed hfilling - hnew - hentered ⟨hmarked, hempty⟩
    have hstored : l'.stored = l.stored := by rw [hentered.frame]
    have htimesBy : ∀ guid entry, l'.timesBy guid entry = l.timesBy guid entry := by
      intro guid entry
      rw [Loot.timesBy, Loot.timesBy, hstored]
    refine ⟨fun entry new hitem => ?_, fun guid hguid entry => ?_⟩
    · rw [hentered.lootItem] at hitem
      obtain ⟨old, hold, rfl⟩ := Option.map_eq_some_iff.mp hitem
      refine (hmarked entry old hold).mono (freeforall_of_kind (entered_kind entry old))
        (fun hlooted => (entered_isLooted entry old).symm.trans hlooted) ?_ (htimesBy · entry)
        fun guid => ?_
      · rw [Loot.times, Loot.times, hstored]
      · by_cases hguid : guid = player
        · exact Or.inl (hguid ▸ hempty player hnew entry)
        · refine Or.inr fun hnote => ?_
          rwa [hasNote, hentered.notes_of_ne hguid] at hnote
    · rw [htimesBy]
      refine hempty guid (fun hno => hguid ?_) entry
      rw [hentered.frame]
      exact List.mem_append_left _ hno
  take := by
    rintro l player lootSlot entry note item hfilling hlooter htaken ⟨hmarked, hempty⟩
    refine ⟨hmarked.take hfilling.filled htaken fun _ _ => hlooter, fun guid hguid other => ?_⟩
    rw [(Same.storeTaken player entry note item l).allowedLooters] at hguid
    obtain ⟨-, htimesBy⟩ :=
      @times_of_stored l _ player entry item other (stored_storeTaken player entry note item l)
    have hother : ¬ (item.count ≠ 0 ∧ guid = player ∧ other = entry) :=
      fun hno => hguid (hno.2.1 ▸ hlooter)
    rw [htimesBy, hempty guid hguid other, if_neg hother]

/-- A loot that has been filled. -/
theorem filledState_marked (world : World) (lootOwner : Guid) (personal : Bool) (drop : Drop)
    (gold : ℕ) : Sound world Marked (filledState world lootOwner personal drop gold) := by
  have hraw : ∀ l, Raw world drop lootOwner gold l → Marked l ∧ StrangersEmpty l := by
    intro l h
    have hstored : l.stored = [] := by rw [h.frame]; rfl
    have htimesBy : ∀ player entry, l.timesBy player entry = 0 := by
      intro player entry
      rw [Loot.timesBy, hstored, List.count_nil]
    refine ⟨fun entry item _ => ⟨fun _ => ?_, fun _ player => ?_⟩, fun player _ => htimesBy player⟩
    · rw [Loot.times, hstored]
      exact ⟨Nat.zero_le 1, fun _ => rfl⟩
    · rw [htimesBy]
      exact ⟨Nat.zero_le 1, fun _ _ => rfl⟩
  obtain ⟨filled, hfilling, ⟨hmarked, -⟩, -, hremarked⟩ :=
    (fills_marked world drop lootOwner (entrants world lootOwner personal drop)).fillLoot hraw
  exact ⟨hmarked.remark hremarked, hfilling.filled.same hremarked.same,
    fun lootListId roll hroll => nomatch hroll⟩

/-- **Loot is not handed out twice** in a run in which items that are free for all are taken by
players who have been entered, and what the master looter gives has not been looted. -/
theorem stored_once (world : World) (lootOwner : Guid) (personal : Bool) (drop : Drop) (gold : ℕ)
    (events : List LootEvent)
    (h : Along (lootStep world) (Clean world) (filledState world lootOwner personal drop gold)
      events) :
    (events.foldl (lootStep world) (filledState world lootOwner personal drop gold)).loot.Once := by
  have hstep : ∀ s event, Sound world Marked s → Clean world s event →
      Sound world Marked (lootStep world s event) := fun s event hs hclean =>
    (keeps_marked world).step (fun _ _ _ _ hlooter _ _ => hlooter) hs hclean.within
  exact (h.invariant (Sound world Marked) hstep
    (filledState_marked world lootOwner personal drop gold)).inv.once

/-! ### Two players and a master looter -/

theorem pair_nodup : [1, 2].Nodup := by decide

/-- Player 1 is the master looter of two; items of entry 7 are under the threshold, those of entry 8
are not. -/
def masterWorld : World where
  template := fun itemid =>
    if itemid = 7 then some ⟨20, false, false, 1, false, false, 0, 0⟩
    else if itemid = 8 then some ⟨1, false, false, 3, false, false, 0, 0⟩ else none
  group := some ⟨[1, 2], .masterLoot, 1, 2, pair_nodup⟩
  meetsConditions := fun _ _ => true
  ownTeam := fun _ _ => true
  canLearn := fun _ _ => true
  questAllows := fun _ _ _ => true
  order := id
  order_perm := fun guids => List.Perm.refl guids

/-- One item of each kind drops, and both players are near. -/
def masterDrop : Drop where
  items := [(⟨7, false, []⟩, 1), (⟨8, false, []⟩, 1)]
  ownerInWorld := true
  isAtGroupRewardDistance := fun _ => true
  canStoreNewItem := fun _ _ => true

/-- Player 2 takes the first item, the master looter wants it as well, and gives the second. -/
def masterEvents : List LootEvent :=
  [.storeLootItem 2 0 true, .storeLootItem 1 0 true, .lootMasterGive 1 2 1 true true]

theorem masterEvents_once :
    (masterEvents.foldl (lootStep masterWorld)
      (filledState masterWorld 1 false masterDrop 0)).loot.Once := by
  refine stored_once masterWorld 1 false masterDrop 0 masterEvents ⟨?_, ?_, ?_, trivial⟩
  · intro item hitem hffa
    obtain rfl := Option.some.inj hitem
    cases hffa
  · intro item hitem hffa
    obtain rfl := Option.some.inj hitem
    cases hffa
  · intro entry item hgives
    obtain ⟨rfl, rfl⟩ := Prod.mk.inj (Option.some.inj hgives)
    exact Or.inr ⟨rfl, fun hffa => nomatch hffa⟩

/-- **An item is handed out twice**: player 2 takes the item under the threshold, and the master
looter gives it to himself, since it is not checked that it has been looted. -/
theorem given_twice :
    ¬ ([LootEvent.storeLootItem 2 0 true, .lootMasterGive 1 1 0 true true].foldl
      (lootStep masterWorld) (filledState masterWorld 1 false masterDrop 0)).loot.Once := by
  intro h
  exact absurd (h.shared (.item 0) _ rfl rfl) (by decide)

end IscServer.Looting
