import IscServer.Loot.RollWinner

/-!
# Loot with its Rolls

The whole state of a loot after it has been filled, and everything that can happen to it: players
take items, the master looter gives them, the loot is opened and rolls start, players vote, and the
updates end the rolls.

What an event does to a loot is made of a few small changes: an item is taken, given or disenchanted,
or only marks of it change that are of no account.

## Main results

* `Same` : what no event changes, which items there are and for whom.
* `Keeps.step` : what the small changes keep, every event keeps.
-/

namespace IscServer.Looting

open Option

/-- A loot, its rolls, and whether it has been opened. -/
structure LootState where
  loot : Loot
  rolls : ℕ → Option LootRoll
  wasOpened : Bool

/-- What can happen to a loot. -/
inductive LootEvent
  /-- `Player::StoreLootItem` -/
  | storeLootItem (player : Guid) (lootSlot : ℕ) (canStoreNewItem : Bool)
  /-- `Loot::AutoStore` -/
  | autoStore (player : Guid) (canStoreNewItem : ℕ → Bool)
  /-- `HandleLootMasterGiveOpcode` -/
  | lootMasterGive (player target : Guid) (slotid : ℕ) (inReach canStoreNewItem : Bool)
  /-- `OnLootOpened`, with the enchanting skills -/
  | lootOpened (start : Start) (enchanting : Guid → ℕ)
  /-- `HandleLootRoll`, with the number that is drawn -/
  | lootRoll (player : Guid) (lootListId rollType rollNumber : ℕ)
  /-- `Loot::Update`, with the order in which the rolls are walked -/
  | update (order : List ℕ) (now : ℕ) (connected : Guid → Bool) (canStoreNewItem : ℕ → Bool)

section Step

variable (world : World)

/-- One round of `OnLootOpened`: a roll for a blocked item. Quest items are blocked for other
purposes as well, only those that follow the loot rules are rolled for. -/
def openItem (start : Start) (enchantingSkill : ℕ) (s : LootState) (lootListId : ℕ) : LootState :=
  match s.loot.lootItem (s.loot.entryOf lootListId) with
  | none => s
  | some item =>
    if item.isBlocked ∧ (lootListId < s.loot.items.length ∨ item.followLootRules) then
      let started := tryToStart world start enchantingSkill lootListId s.loot
      { s with loot := started.2, rolls := Function.update s.rolls lootListId started.1 }
    else s

/-- `OnLootOpened`. -/
def onLootOpened (start : Start) (enchanting : Guid → ℕ) (s : LootState) : LootState :=
  if s.wasOpened then s
  else
    let opened := { s with wasOpened := true }
    if s.loot.lootMethod = .groupLoot ∨ s.loot.lootMethod = .needBeforeGreed then
      (List.range (s.loot.items.length + s.loot.questItems.length)).foldl
        (openItem world start
          (((s.loot.allowedLooters.filter start.onMap).map enchanting).foldl max 0)) opened
    else opened

/-- One round of `Loot::Update`. -/
def updateRoll (now : ℕ) (connected : Guid → Bool) (canStoreNewItem : ℕ → Bool) (s : LootState)
    (lootListId : ℕ) : LootState :=
  match s.rolls lootListId with
  | none => s
  | some roll =>
    match roll.updateRoll now with
    | none => s
    | some winner =>
      { s with
        loot := finish world connected (canStoreNewItem lootListId) lootListId winner s.loot
        rolls := Function.update s.rolls lootListId none }

/-- `HandleLootRoll`. -/
def handleLootRoll (player : Guid) (lootListId rollType rollNumber : ℕ) (s : LootState) :
    LootState :=
  match RollVote.ofRollType rollType with
  | none => s
  | some vote =>
    { s with
      rolls := Function.update s.rolls lootListId
        ((s.rolls lootListId).map fun roll => (roll.playerVote player vote rollNumber).2) }

/-- One event. -/
def lootStep (s : LootState) : LootEvent → LootState
  | .storeLootItem player lootSlot canStoreNewItem =>
    { s with loot := storeLootItem world player lootSlot canStoreNewItem s.loot }
  | .autoStore player canStoreNewItem =>
    { s with loot := autoStore world player canStoreNewItem s.loot }
  | .lootMasterGive player target slotid inReach canStoreNewItem =>
    { s with loot := handleLootMasterGive world player target slotid inReach canStoreNewItem s.loot }
  | .lootOpened start enchanting => onLootOpened world start enchanting s
  | .lootRoll player lootListId rollType rollNumber =>
    handleLootRoll player lootListId rollType rollNumber s
  | .update order now connected canStoreNewItem =>
    order.foldl (updateRoll world now connected canStoreNewItem) s

/-- The state after `FillLoot`. -/
def filledState (lootOwner : Guid) (personal : Bool) (drop : Drop) (gold : ℕ) : LootState :=
  ⟨fillLoot world lootOwner personal drop gold, fun _ => none, false⟩

end Step

variable {world : World} {l l' l'' : Loot} {player target : Guid} {entry : Entry} {note : Note}
  {item : LootItem}

/-! ### What no event changes -/

/-- An item without what becomes of it. -/
def LootItem.origin (item : LootItem) : LootItem :=
  { item with
    rollWinnerGUID := none
    count := 0
    isLooted := false
    isBlocked := false
    isUnderthreshold := false }

section

variable {other : LootItem} (h : other.origin = item.origin)
include h

theorem freeforall_of_origin :
    other.freeforall = item.freeforall := (congrArg LootItem.freeforall h :)

theorem allowedGUIDs_of_origin :
    other.allowedGUIDs = item.allowedGUIDs := (congrArg LootItem.allowedGUIDs h :)

theorem allowed_of_origin (player : Guid) (given : Bool) (owner : Option Guid) :
    allowedForPlayer world player given owner other =
      allowedForPlayer world player given owner item :=
  (congrArg (allowedForPlayer world player given owner) h :)

end

/-- The indices in the list of a player. -/
def indices (list : Option (List NotNormalLootItem)) : Option (List ℕ) :=
  list.map fun list => list.map NotNormalLootItem.index

/-- The same items for the same players. -/
structure Same (l l' : Loot) : Prop where
  items : ∀ entry, (l'.lootItem entry).map LootItem.origin = (l.lootItem entry).map LootItem.origin
  length : l'.items.length = l.items.length
  questLength : l'.questItems.length = l.questItems.length
  gold : l'.gold = l.gold
  lootMethod : l'.lootMethod = l.lootMethod
  allowedLooters : l'.allowedLooters = l.allowedLooters
  questNotes : ∀ guid, indices (l'.playerQuestItems guid) = indices (l.playerQuestItems guid)
  ffaNotes : ∀ guid, indices (l'.playerFFAItems guid) = indices (l.playerFFAItems guid)

theorem Same.refl (l : Loot) : Same l l :=
  ⟨fun _ => rfl, rfl, rfl, rfl, rfl, rfl, fun _ => rfl, fun _ => rfl⟩

theorem Same.trans (h : Same l l') (h' : Same l' l'') : Same l l'' :=
  ⟨fun entry => (h'.items entry).trans (h.items entry), h'.length.trans h.length,
    h'.questLength.trans h.questLength, h'.gold.trans h.gold, h'.lootMethod.trans h.lootMethod,
    h'.allowedLooters.trans h.allowedLooters,
    fun guid => (h'.questNotes guid).trans (h.questNotes guid),
    fun guid => (h'.ffaNotes guid).trans (h.ffaNotes guid)⟩

/-- Each item was there before. -/
theorem Same.before (h : Same l l') (hitem : l'.lootItem entry = some item) :
    ∃ old, l.lootItem entry = some old ∧ item.origin = old.origin := by
  have heq := h.items entry
  rw [hitem, map_some] at heq
  obtain ⟨old, hold, horigin⟩ := map_eq_some_iff.mp heq.symm
  exact ⟨old, hold, horigin.symm⟩

theorem Same.modifyItem (entry : Entry) {change : LootItem → LootItem}
    (hchange : ∀ item, (change item).origin = item.origin) : Same l (l.modifyItem entry change) := by
  have hfield : ∀ {α : Type} (field : Loot → α),
      (∀ items questItems, field { l with items := items, questItems := questItems } = field l) →
        field (l.modifyItem entry change) = field l := by
    intro α field hfield
    cases entry with
    | item index => exact hfield _ l.questItems
    | quest index => exact hfield l.items _
  refine ⟨fun other => ?_, length_items_modifyItem l entry change,
    length_questItems_modifyItem l entry change, hfield Loot.gold fun _ _ => rfl,
    hfield Loot.lootMethod fun _ _ => rfl, hfield Loot.allowedLooters fun _ _ => rfl,
    fun guid => congrArg (fun map => indices (map guid)) (hfield Loot.playerQuestItems fun _ _ => rfl),
    fun guid => congrArg (fun map => indices (map guid)) (hfield Loot.playerFFAItems fun _ _ => rfl)⟩
  rw [lootItem_modifyItem]
  split_ifs with hentry
  · rw [hentry, map_map]
    exact congrArg (fun f => (l.lootItem entry).map f) (funext hchange)
  · rfl

/-- An item without the marks that are of no account. -/
def LootItem.unmarked (item : LootItem) : LootItem :=
  { item with rollWinnerGUID := none, count := 0, isBlocked := false, isUnderthreshold := false }

theorem origin_of_unmarked {other : LootItem} (h : other.unmarked = item.unmarked) :
    other.origin = item.origin := (congrArg LootItem.origin h :)

theorem isLooted_of_unmarked {other : LootItem} (h : other.unmarked = item.unmarked) :
    other.isLooted = item.isLooted := (congrArg LootItem.isLooted h :)

/-- Only marks of the items have changed. -/
structure Remarked (l l' : Loot) : Prop where
  items : ∀ entry,
    (l'.lootItem entry).map LootItem.unmarked = (l.lootItem entry).map LootItem.unmarked
  length : l'.items.length = l.items.length
  questLength : l'.questItems.length = l.questItems.length
  frame : l' = { l with items := l'.items, questItems := l'.questItems }

theorem Remarked.same (h : Remarked l l') : Same l l' := by
  refine ⟨fun entry => ?_, h.length, h.questLength, ?_, ?_, ?_, fun guid => ?_, fun guid => ?_⟩
  · have heq := congrArg (Option.map LootItem.origin) (h.items entry)
    rwa [map_map, map_map] at heq
  · rw [h.frame]
  · rw [h.frame]
  · rw [h.frame]
  · rw [h.frame]
  · rw [h.frame]

theorem Remarked.modifyItem (l : Loot) (entry : Entry) {change : LootItem → LootItem}
    (hchange : ∀ item, (change item).unmarked = item.unmarked) :
    Remarked l (l.modifyItem entry change) := by
  refine ⟨fun other => ?_, length_items_modifyItem l entry change,
    length_questItems_modifyItem l entry change, ?_⟩
  · rw [lootItem_modifyItem]
    split_ifs with hentry
    · rw [hentry, map_map]
      exact congrArg (fun f => (l.lootItem entry).map f) (funext hchange)
    · rfl
  · cases entry with
    | item index => rfl
    | quest index => rfl

theorem Remarked.trans (h : Remarked l l') (h' : Remarked l' l'') : Remarked l l'' := by
  refine ⟨fun entry => (h'.items entry).trans (h.items entry), h'.length.trans h.length,
    h'.questLength.trans h.questLength, ?_⟩
  rw [h'.frame, h.frame]

theorem indices_markNote (position : ℕ) (list : Option (List NotNormalLootItem)) :
    indices (markNote position list) = indices list := by
  cases list with
  | none => rfl
  | some list =>
    refine congrArg some (List.ext_getElem? fun k => ?_)
    rw [List.getElem?_map, List.getElem?_map, List.getElem?_modify]
    cases list[k]? with
    | none => rfl
    | some noted =>
      by_cases hk : position = k
      · simp [hk]
      · simp [hk]

theorem indices_update (map : NotNormalLootItemMap) (player : Guid) (position : ℕ) (guid : Guid) :
    indices (Function.update map player (markNote position (map player)) guid) =
      indices (map guid) := by
  rw [Function.update_apply]
  split_ifs with hguid
  · rw [hguid, indices_markNote]
  · rfl

theorem Same.mark (player : Guid) (note : Note) (l : Loot) : Same l (mark player note l) := by
  refine ⟨fun entry => by rw [lootItem_mark], by rw [mark_items], by rw [mark_questItems],
    ?_, ?_, ?_, fun guid => ?_, fun guid => ?_⟩
  · cases note <;> rfl
  · cases note <;> rfl
  · cases note <;> rfl
  · cases note with
    | quest position => exact indices_update l.playerQuestItems player position guid
    | none | ffa _ | conditional _ => rfl
  · cases note with
    | ffa position => exact indices_update l.playerFFAItems player position guid
    | none | quest _ | conditional _ => rfl

theorem Same.storeNewItem (player : Guid) (entry : Entry) (item : LootItem) (l : Loot) :
    Same l (storeNewItem player entry item l) := by
  rw [Looting.storeNewItem]
  split_ifs
  · exact Same.refl l
  · exact ⟨fun entry => congrArg _ (lootItem_congr rfl rfl entry), rfl, rfl, rfl, rfl, rfl,
      fun _ => rfl, fun _ => rfl⟩

theorem Same.countDown (l : Loot) : Same l l.countDown :=
  ⟨fun entry => congrArg _ (lootItem_countDown l entry), rfl, rfl, rfl, rfl, rfl, fun _ => rfl,
    fun _ => rfl⟩

theorem take_origin (item : LootItem) : item.take.origin = item.origin := by
  rw [LootItem.take]
  split_ifs
  · rfl
  · rfl

theorem Same.storeTaken (player : Guid) (entry : Entry) (note : Note) (item : LootItem) (l : Loot) :
    Same l (storeTaken player entry note item l) :=
  (Same.mark player note l).trans ((Same.modifyItem entry take_origin).trans
    ((Same.storeNewItem player entry item _).trans (Same.countDown _)))

theorem Same.storeLootItem (player : Guid) (lootSlot : ℕ) (canStoreNewItem : Bool) (l : Loot) :
    Same l (storeLootItem world player lootSlot canStoreNewItem l) := by
  rcases storeLootItem_cases world player lootSlot canStoreNewItem l with hsame |
    ⟨entry, note, item, -, hstored⟩
  · exact hsame.symm ▸ Same.refl l
  · exact hstored.symm ▸ Same.storeTaken player entry note item l

theorem Same.finish (connected : Guid → Bool) (canStoreNewItem : Bool) (lootListId : ℕ)
    (winner : Option (Guid × PlayerRollVote)) (l : Loot) :
    Same l (finish world connected canStoreNewItem lootListId winner l) := by
  have hfree : Same l (l.modifyItem (l.entryOf lootListId) (LootItem.block false)) :=
    Same.modifyItem _ fun _ => rfl
  rw [finish.eq_def]
  cases winner with
  | none => exact hfree
  | some winner =>
    obtain ⟨guid, vote⟩ := winner
    have hwon : Same l ((l.modifyItem (l.entryOf lootListId) (LootItem.block false)).modifyItem
        (l.entryOf lootListId) (LootItem.winBy guid)) :=
      hfree.trans (Same.modifyItem _ fun _ => rfl)
    dsimp only
    by_cases hconnected : connected guid = true
    swap
    · rw [if_pos hconnected]
      exact hwon
    rw [if_neg (not_not.mpr hconnected)]
    by_cases hvote : vote.vote = .disenchant
    · rw [if_pos hvote]
      exact hwon.trans ((@Same.modifyItem _ _ LootItem.loot fun _ => rfl).trans (Same.countDown _))
    · rw [if_neg hvote]
      exact hwon.trans (Same.storeLootItem guid _ canStoreNewItem _)

theorem Same.handleLootMasterGive (player target : Guid) (slotid : ℕ)
    (inReach canStoreNewItem : Bool) (l : Loot) :
    Same l (handleLootMasterGive world player target slotid inReach canStoreNewItem l) := by
  rw [Looting.handleLootMasterGive]
  cases gives world player target slotid inReach canStoreNewItem l with
  | none => exact Same.refl l
  | some given =>
    obtain ⟨entry, item⟩ := given
    exact (Same.storeNewItem target entry item l).trans
      ((@Same.modifyItem _ entry LootItem.give fun _ => rfl).trans (Same.countDown _))

/-- What `TryToStart` does to the loot: marks of the item change. -/
theorem tryToStart_loot (start : Start) (enchantingSkill lootListId : ℕ) (l : Loot) :
    (tryToStart world start enchantingSkill lootListId l).2 = l ∨
      Remarked l (tryToStart world start enchantingSkill lootListId l).2 := by
  rw [tryToStart]
  cases l.lootItem (l.entryOf lootListId) with
  | none => exact Or.inl rfl
  | some item =>
    dsimp only
    cases world.template item.itemid with
    | none => exact Or.inl rfl
    | some proto =>
      split_ifs
      · exact Or.inr (Remarked.modifyItem l _ fun _ => rfl)
      · exact Or.inr (Remarked.modifyItem l _ fun _ => rfl)

theorem Same.openItem (start : Start) (enchantingSkill : ℕ) (s : LootState) (lootListId : ℕ) :
    Same s.loot (openItem world start enchantingSkill s lootListId).loot := by
  rw [Looting.openItem]
  cases s.loot.lootItem (s.loot.entryOf lootListId) with
  | none => exact Same.refl _
  | some item =>
    dsimp only
    split_ifs
    · rcases @tryToStart_loot world start enchantingSkill lootListId s.loot with hsame | hmarked
      · exact hsame.symm ▸ Same.refl _
      · exact hmarked.same
    · exact Same.refl _

/-! ### Who may take what -/

/-- The player has the entry in the list of quest items, if it is one. -/
def Listed (l : Loot) (player : Guid) : Entry → Prop
  | .item _ => True
  | .quest index => ∃ list, indices (l.playerQuestItems player) = some list ∧ index ∈ list

/-- The player may take the item of the entry. -/
def MayTake (world : World) (l : Loot) (player : Guid) (entry : Entry) : Prop :=
  ∃ item, l.lootItem entry = some item ∧ allowedForPlayer world player false none item = true ∧
    Listed l player entry

theorem Listed.same (h : Listed l player entry) (hsame : Same l l') : Listed l' player entry := by
  cases entry with
  | item index => trivial
  | quest index =>
    obtain ⟨list, hlist, hmem⟩ := h
    exact ⟨list, (hsame.questNotes player).trans hlist, hmem⟩

/-- An item that was there still is. -/
theorem Same.after (h : Same l l') (hitem : l.lootItem entry = some item) :
    ∃ new, l'.lootItem entry = some new ∧ new.origin = item.origin := by
  have heq := h.items entry
  rw [hitem, map_some] at heq
  exact map_eq_some_iff.mp heq

theorem MayTake.same (h : MayTake world l player entry) (hsame : Same l l') :
    MayTake world l' player entry := by
  obtain ⟨item, hitem, hallowed, hlisted⟩ := h
  obtain ⟨new, hnew, horigin⟩ := hsame.after hitem
  exact ⟨new, hnew, (allowed_of_origin horigin player false none).trans hallowed,
    hlisted.same hsame⟩

/-- What `FillLoot` has seen to: those who are entered with an item may take part in it, every allowed
looter has the items that are free for all and may be taken in a list, and no list holds an item
twice. -/
structure Filled (world : World) (l : Loot) : Prop where
  nodup : l.allowedLooters.Nodup
  looters : ∀ entry item, l.lootItem entry = some item → ∀ guid ∈ item.allowedGUIDs,
    guid ∈ l.allowedLooters ∧ Listed l guid entry
  complete : ∀ guid ∈ l.allowedLooters, ∀ index item, l.lootItem (.item index) = some item →
    item.freeforall = true → allowedForPlayer world guid false none item = true →
      ∃ list, indices (l.playerFFAItems guid) = some list ∧ index ∈ list
  questNodup : ∀ guid list, indices (l.playerQuestItems guid) = some list → list.Nodup
  ffaNodup : ∀ guid list, indices (l.playerFFAItems guid) = some list → list.Nodup
  questItem : ∀ guid list, indices (l.playerQuestItems guid) = some list → ∀ index ∈ list,
    ∃ item, l.lootItem (.quest index) = some item
  ffaItem : ∀ guid list, indices (l.playerFFAItems guid) = some list → ∀ index ∈ list,
    ∃ item, l.lootItem (.item index) = some item ∧ item.freeforall = true

theorem Filled.same (h : Filled world l) (hsame : Same l l') : Filled world l' := by
  refine ⟨hsame.allowedLooters ▸ h.nodup, fun entry item hitem guid hguid => ?_,
    fun guid hguid index item hitem hffa hallowed => ?_, fun guid list hlist => ?_,
    fun guid list hlist => ?_, fun guid list hlist index hindex => ?_,
    fun guid list hlist index hindex => ?_⟩
  · obtain ⟨old, hold, horigin⟩ := hsame.before hitem
    obtain ⟨hlooter, hlisted⟩ := h.looters entry old hold guid
      (allowedGUIDs_of_origin horigin ▸ hguid)
    exact ⟨hsame.allowedLooters ▸ hlooter, hlisted.same hsame⟩
  · obtain ⟨old, hold, horigin⟩ := hsame.before hitem
    obtain ⟨list, hlist, hmem⟩ := h.complete guid (hsame.allowedLooters ▸ hguid) index old hold
      ((freeforall_of_origin horigin).symm.trans hffa)
      ((allowed_of_origin horigin guid false none).symm.trans hallowed)
    exact ⟨list, (hsame.ffaNotes guid).trans hlist, hmem⟩
  · exact h.questNodup guid list ((hsame.questNotes guid).symm.trans hlist)
  · exact h.ffaNodup guid list ((hsame.ffaNotes guid).symm.trans hlist)
  · obtain ⟨item, hitem⟩ := h.questItem guid list ((hsame.questNotes guid).symm.trans hlist) index
      hindex
    obtain ⟨new, hnew, -⟩ := hsame.after hitem
    exact ⟨new, hnew⟩
  · obtain ⟨item, hitem, hffa⟩ := h.ffaItem guid list ((hsame.ffaNotes guid).symm.trans hlist) index
      hindex
    obtain ⟨new, hnew, horigin⟩ := hsame.after hitem
    exact ⟨new, hnew, (freeforall_of_origin horigin).trans hffa⟩

/-! ### Rolls -/

/-- The voters of a roll are allowed looters, and those whose vote is valid may take the item. -/
def LootRoll.For (world : World) (l : Loot) (lootListId : ℕ) (roll : LootRoll) : Prop :=
  ∀ entry ∈ roll.rollVoteMap, entry.1 ∈ l.allowedLooters ∧
    (entry.2.vote ≠ .notValid → MayTake world l entry.1 (l.entryOf lootListId))

/-- All rolls are for items of the loot. -/
def RollsFor (world : World) (s : LootState) : Prop :=
  ∀ lootListId roll, s.rolls lootListId = some roll → roll.For world s.loot lootListId

variable {roll : LootRoll}

theorem LootRoll.For.same {lootListId : ℕ} (h : roll.For world l lootListId) (hsame : Same l l') : roll.For world l' lootListId := by
  intro entry hentry
  obtain ⟨hlooter, hmay⟩ := h entry hentry
  rw [entryOf_congr hsame.length]
  exact ⟨hsame.allowedLooters ▸ hlooter, fun hvalid => (hmay hvalid).same hsame⟩

variable {s : LootState}

theorem RollsFor.same (h : RollsFor world s) (hsame : Same s.loot l') :
    RollsFor world { s with loot := l' } :=
  fun lootListId roll hroll => (h lootListId roll hroll).same hsame

/-- A roll that has been started is for its item. -/
theorem tryToStart_for (hfilled : Filled world l) {start : Start} {enchantingSkill lootListId : ℕ}
    {l' : Loot} (h : tryToStart world start enchantingSkill lootListId l = (some roll, l')) :
    roll.For world l lootListId := by
  rw [tryToStart] at h
  cases hitem : l.lootItem (l.entryOf lootListId) with
  | none =>
    rw [hitem] at h
    cases h
  | some item =>
    rw [hitem] at h
    dsimp only at h
    cases hproto : world.template item.itemid with
    | none =>
      rw [hproto] at h
      cases h
    | some proto =>
      rw [hproto] at h
      split_ifs at h
      swap
      · cases h
      obtain ⟨hroll, -⟩ := Prod.mk.inj h
      obtain rfl := Option.some.inj hroll
      intro entry hentry
      obtain ⟨guid, hguid, rfl⟩ := List.mem_map.mp hentry
      obtain ⟨hlooter, hlisted⟩ := hfilled.looters _ item hitem guid
        ((world.order_perm item.allowedGUIDs).mem_iff.mp hguid)
      refine ⟨hlooter, fun hvalid => ⟨item, hitem, ?_, hlisted⟩⟩
      by_contra hnot
      refine hvalid ?_
      rw [startVote, if_pos (Or.inr hnot)]

theorem RollsFor.openItem (h : RollsFor world s) (hfilled : Filled world s.loot)
    (start : Start) (enchantingSkill lootListId : ℕ) :
    RollsFor world (openItem world start enchantingSkill s lootListId) := by
  have hsame := @Same.openItem world start enchantingSkill s lootListId
  rw [Looting.openItem] at hsame ⊢
  cases hitem : s.loot.lootItem (s.loot.entryOf lootListId) with
  | none => exact h
  | some item =>
    rw [hitem] at hsame
    dsimp only at hsame ⊢
    by_cases hblocked : item.isBlocked = true ∧
        (lootListId < s.loot.items.length ∨ item.followLootRules = true)
    swap
    · rw [if_neg hblocked]
      exact h
    rw [if_pos hblocked] at hsame ⊢
    intro other roll hroll
    refine LootRoll.For.same ?_ hsame
    dsimp only at hroll
    rw [Function.update_apply] at hroll
    split_ifs at hroll with hother
    · rw [hother]
      exact tryToStart_for hfilled (Prod.ext hroll rfl)
    · exact h other roll hroll

theorem RollsFor.handleLootRoll (h : RollsFor world s) (player : Guid)
    (lootListId rollType rollNumber : ℕ) :
    RollsFor world (handleLootRoll player lootListId rollType rollNumber s) := by
  rw [Looting.handleLootRoll]
  cases RollVote.ofRollType rollType with
  | none => exact h
  | some vote =>
    intro other roll hroll
    dsimp only at hroll ⊢
    rw [Function.update_apply] at hroll
    split_ifs at hroll with hother
    swap
    · exact h other roll hroll
    obtain ⟨old, hold, rfl⟩ := map_eq_some_iff.mp hroll
    have hfor := h lootListId old hold
    rw [hother]
    rcases playerVote_cases player vote rollNumber old with hvote |
      ⟨voter, hvoter, rfl, hopen, hvote⟩
    · rw [hvote]
      exact hfor
    · rw [hvote]
      intro entry hentry
      obtain ⟨before, hbefore, rfl⟩ := List.mem_map.mp hentry
      by_cases hplayer : before.1 = voter.1
      · obtain ⟨hlooter, hmay⟩ := hfor voter hvoter
        rw [if_pos hplayer]
        refine ⟨hplayer ▸ hlooter, fun _ => hplayer ▸ hmay ?_⟩
        rw [hopen]
        exact fun hno => RollVote.noConfusion hno
      · rw [if_neg hplayer]
        exact hfor before hbefore

/-- The winner of a roll may take the item. -/
theorem LootRoll.For.winner {lootListId now : ℕ} (h : roll.For world l lootListId)
    {best : Guid × PlayerRollVote} (hwinner : roll.updateRoll now = some (some best)) :
    best.1 ∈ l.allowedLooters ∧ MayTake world l best.1 (l.entryOf lootListId) := by
  rw [LootRoll.updateRoll] at hwinner
  split_ifs at hwinner
  have hbest : best ∈ (roll.rollVoteMap.filter fun entry => entry.2.vote.wants).argmax priority :=
    (allPlayerVoted_winner roll).symm.trans (Option.some.inj hwinner)
  obtain ⟨hvoted, hwants⟩ := List.mem_filter.mp (List.argmax_mem hbest)
  obtain ⟨hlooter, hmay⟩ := h best hvoted
  refine ⟨hlooter, hmay fun hno => ?_⟩
  rw [hno] at hwants
  cases hwants

/-! ### What every event keeps -/

/-- Which small changes of a loot are looked at: an item is taken, it is given, or it is
disenchanted. -/
structure Changes where
  Takes : Loot → Guid → Entry → LootItem → Prop
  Gives : Loot → Guid → Entry → LootItem → Prop
  Burns : Loot → Entry → Prop

/-- A property of the loot that is kept by these changes, and when other marks of an item change. -/
structure Keeps (world : World) (Inv : Loot → Prop) (changes : Changes) : Prop where
  mark : ∀ l l', Remarked l l' → Inv l → Inv l'
  take : ∀ l player lootSlot entry note item, Filled world l →
    Taken world player lootSlot l entry note item → changes.Takes l player entry item → Inv l →
      Inv (storeTaken player entry note item l)
  give : ∀ l target entry item, Filled world l → l.lootItem entry = some item →
    changes.Gives l target entry item → Inv l →
      Inv ((storeNewItem target entry item l).modifyItem entry LootItem.give).countDown
  burn : ∀ l winner entry, Filled world l → winner ∈ l.allowedLooters →
    MayTake world l winner entry → changes.Burns l entry → Inv l →
      Inv (l.modifyItem entry LootItem.loot).countDown

variable {Inv : Loot → Prop} {changes : Changes}

section

variable (hkeeps : Keeps world Inv changes)
include hkeeps

theorem Keeps.storeLootItem (hfilled : Filled world l) (h : Inv l)
    (lootSlot : ℕ) (canStoreNewItem : Bool)
    (htakes : ∀ entry note item, Taken world player lootSlot l entry note item →
      changes.Takes l player entry item) :
    Inv (storeLootItem world player lootSlot canStoreNewItem l) := by
  rcases storeLootItem_cases world player lootSlot canStoreNewItem l with hsame |
    ⟨entry, note, item, htaken, hstored⟩
  · exact hsame.symm ▸ h
  · exact hstored.symm ▸ hkeeps.take l player lootSlot entry note item hfilled htaken
      (htakes entry note item htaken) h

theorem Keeps.autoStore (hfilled : Filled world l) (h : Inv l)
    (canStoreNewItem : ℕ → Bool)
    (htakes : ∀ l', Same l l' → ∀ lootSlot entry note item,
      Taken world player lootSlot l' entry note item → changes.Takes l' player entry item) :
    Inv (autoStore world player canStoreNewItem l) ∧
      Same l (autoStore world player canStoreNewItem l) := by
  have hrun : ∀ (slots : List ℕ) l', Inv l' → Same l l' →
      Inv (slots.foldl (fun l slot => Looting.storeLootItem world player slot
        (canStoreNewItem slot) l) l') ∧
      Same l (slots.foldl (fun l slot => Looting.storeLootItem world player slot
        (canStoreNewItem slot) l) l') := by
    intro slots
    induction slots with
    | nil => exact fun l' hinv hsame => ⟨hinv, hsame⟩
    | cons slot slots ih =>
      intro l' hinv hsame
      exact ih _ (hkeeps.storeLootItem (hfilled.same hsame) hinv slot _ (htakes l' hsame slot))
        (hsame.trans (Same.storeLootItem player slot _ l'))
  exact hrun _ l h (Same.refl l)

/-- The end of a roll. -/
theorem Keeps.finish (hfilled : Filled world l) (h : Inv l)
    (connected : Guid → Bool) (canStoreNewItem : Bool) (lootListId : ℕ)
    (winner : Option (Guid × PlayerRollVote))
    (hwinner : ∀ best, winner = some best →
      best.1 ∈ l.allowedLooters ∧ MayTake world l best.1 (l.entryOf lootListId))
    (htakes : ∀ best, winner = some best → ∀ l', Same l l' → ∀ lootSlot entry note item,
      Taken world best.1 lootSlot l' entry note item → changes.Takes l' best.1 entry item)
    (hburns : ∀ best, winner = some best → connected best.1 = true → best.2.vote = .disenchant →
      changes.Burns ((l.modifyItem (l.entryOf lootListId) (LootItem.block false)).modifyItem
        (l.entryOf lootListId) (LootItem.winBy best.1)) (l.entryOf lootListId)) :
    Inv (finish world connected canStoreNewItem lootListId winner l) := by
  have hfree : Inv (l.modifyItem (l.entryOf lootListId) (LootItem.block false)) :=
    hkeeps.mark _ _ (Remarked.modifyItem l _ fun _ => rfl) h
  rw [finish.eq_def]
  cases winner with
  | none => exact hfree
  | some winner =>
    obtain ⟨guid, vote⟩ := winner
    have hwon := hkeeps.mark _ _ (@Remarked.modifyItem _ (l.entryOf lootListId)
      (LootItem.winBy guid) fun _ => rfl) hfree
    have hsame : Same l ((l.modifyItem (l.entryOf lootListId) (LootItem.block false)).modifyItem
        (l.entryOf lootListId) (LootItem.winBy guid)) :=
      (@Same.modifyItem _ _ (LootItem.block false) fun _ => rfl).trans
        (Same.modifyItem _ fun _ => rfl)
    dsimp only
    by_cases hconnected : connected guid = true
    swap
    · rw [if_pos hconnected]
      exact hwon
    rw [if_neg (not_not.mpr hconnected)]
    by_cases hvote : vote.vote = .disenchant
    · rw [if_pos hvote]
      obtain ⟨hlooter, hmay⟩ := hwinner _ rfl
      exact hkeeps.burn _ guid _ (hfilled.same hsame) (hsame.allowedLooters ▸ hlooter)
        (hmay.same hsame) (hburns _ rfl hconnected hvote) hwon
    · rw [if_neg hvote]
      exact hkeeps.storeLootItem (hfilled.same hsame) hwon _ canStoreNewItem
        (htakes _ rfl _ hsame _)

theorem Keeps.openItem (h : Inv s.loot) (start : Start) (enchantingSkill lootListId : ℕ) :
    Inv (openItem world start enchantingSkill s lootListId).loot := by
  rw [Looting.openItem]
  cases s.loot.lootItem (s.loot.entryOf lootListId) with
  | none => exact h
  | some item =>
    dsimp only
    split_ifs
    · rcases @tryToStart_loot world start enchantingSkill lootListId s.loot with hsame | hmarked
      · exact hsame.symm ▸ h
      · exact hkeeps.mark _ _ hmarked h
    · exact h

end

/-- The property holds, of a loot that has been filled and its rolls. -/
structure Sound (world : World) (Inv : Loot → Prop) (s : LootState) : Prop where
  inv : Inv s.loot
  filled : Filled world s.loot
  rolls : RollsFor world s

/-- An item may be disenchanted when its roll ends. -/
def BurnsWell (changes : Changes) (now : ℕ) (connected : Guid → Bool) (s : LootState)
    (lootListId : ℕ) : Prop :=
  ∀ roll best, s.rolls lootListId = some roll → roll.updateRoll now = some (some best) →
    connected best.1 = true → best.2.vote = .disenchant →
      changes.Burns ((s.loot.modifyItem (s.loot.entryOf lootListId)
        (LootItem.block false)).modifyItem (s.loot.entryOf lootListId) (LootItem.winBy best.1))
          (s.loot.entryOf lootListId)

section

variable (hkeeps : Keeps world Inv changes)
include hkeeps

theorem Keeps.onLootOpened (h : Sound world Inv s) (start : Start) (enchanting : Guid → ℕ) :
    Sound world Inv (onLootOpened world start enchanting s) := by
  have hrun : ∀ (skill : ℕ) (ids : List ℕ) (s : LootState), Sound world Inv s →
      Sound world Inv (ids.foldl (Looting.openItem world start skill) s) := by
    intro skill ids
    induction ids with
    | nil => exact fun s h => h
    | cons id ids ih =>
      intro s h
      exact ih _ ⟨hkeeps.openItem h.inv start skill id,
        h.filled.same (Same.openItem start skill s id), h.rolls.openItem h.filled start skill id⟩
  rw [Looting.onLootOpened]
  by_cases hopened : s.wasOpened = true
  · rwa [if_pos hopened]
  split_ifs
  · exact hrun _ _ _ ⟨h.inv, h.filled, h.rolls⟩
  · exact ⟨h.inv, h.filled, h.rolls⟩

section

variable
  (hnear : ∀ l player entry item, player ∈ l.allowedLooters → changes.Takes l player entry item)
include hnear

theorem Keeps.updateRoll (h : Sound world Inv s) {now : ℕ} {connected : Guid → Bool}
    (canStoreNewItem : ℕ → Bool) {lootListId : ℕ}
    (hburns : BurnsWell changes now connected s lootListId) :
    Sound world Inv (updateRoll world now connected canStoreNewItem s lootListId) := by
  rw [Looting.updateRoll]
  cases hroll : s.rolls lootListId with
  | none => exact h
  | some roll =>
    dsimp only
    cases hupdate : roll.updateRoll now with
    | none => exact h
    | some winner =>
      have hsame := @Same.finish world connected (canStoreNewItem lootListId) lootListId winner
        s.loot
      refine ⟨hkeeps.finish h.filled h.inv connected _ lootListId winner ?_ ?_ ?_,
        h.filled.same hsame, fun other old hold => ?_⟩
      · rintro best rfl
        exact (h.rolls lootListId roll hroll).winner hupdate
      · rintro best rfl l' hl' lootSlot entry note item -
        refine hnear l' best.1 entry item (hl'.allowedLooters ▸ ?_)
        exact ((h.rolls lootListId roll hroll).winner hupdate).1
      · rintro best rfl hconnected hvote
        exact hburns roll best hroll hupdate hconnected hvote
      · dsimp only at hold
        rw [Function.update_apply] at hold
        split_ifs at hold
        exact (h.rolls other old hold).same hsame

theorem Keeps.update (h : Sound world Inv s) {order : List ℕ} {now : ℕ}
    {connected : Guid → Bool}
    (canStoreNewItem : ℕ → Bool)
    (hburns : Run.Along (Looting.updateRoll world now connected canStoreNewItem)
      (BurnsWell changes now connected) s order) :
    Sound world Inv (order.foldl (Looting.updateRoll world now connected canStoreNewItem) s) :=
  hburns.invariant (Sound world Inv) (fun _ _ hs hburn =>
    hkeeps.updateRoll hnear hs canStoreNewItem hburn) h

end

end

/-- The changes of an event are among those that are looked at. -/
def Within (world : World) (changes : Changes) (s : LootState) : LootEvent → Prop
  | .storeLootItem player lootSlot _ => ∀ entry note item,
      Taken world player lootSlot s.loot entry note item → changes.Takes s.loot player entry item
  | .autoStore player _ => ∀ l', Same s.loot l' → ∀ lootSlot entry note item,
      Taken world player lootSlot l' entry note item → changes.Takes l' player entry item
  | .lootMasterGive player target slotid inReach canStoreNewItem => ∀ entry item,
      gives world player target slotid inReach canStoreNewItem s.loot = some (entry, item) →
        changes.Gives s.loot target entry item
  | .update order now connected canStoreNewItem =>
    Run.Along (updateRoll world now connected canStoreNewItem) (BurnsWell changes now connected)
      s order
  | _ => True

theorem gives_eq_some {slotid : ℕ} {inReach canStoreNewItem : Bool}
    (h : gives world player target slotid inReach canStoreNewItem l = some (entry, item)) :
    l.lootItem entry = some item := by
  rw [gives] at h
  cases hgroup : world.groupOf player with
  | none =>
    rw [hgroup] at h
    cases h
  | some group =>
    rw [hgroup] at h
    dsimp only at h
    split_ifs at h
    cases hitem : l.lootItem (l.entryOf slotid) with
    | none =>
      rw [hitem] at h
      cases h
    | some found =>
      rw [hitem] at h
      dsimp only at h
      split_ifs at h
      obtain ⟨rfl, rfl⟩ := Prod.mk.inj (Option.some.inj h)
      exact hitem

/-- **What the small changes keep, every event keeps.** -/
theorem Keeps.step (hkeeps : Keeps world Inv changes)
    (hnear : ∀ l player entry item, player ∈ l.allowedLooters → changes.Takes l player entry item)
    (h : Sound world Inv s) {event : LootEvent} (hevent : Within world changes s event) : Sound world Inv (lootStep world s event) := by
  cases event with
  | storeLootItem player lootSlot canStoreNewItem =>
    have hsame := @Same.storeLootItem world player lootSlot canStoreNewItem s.loot
    exact ⟨hkeeps.storeLootItem h.filled h.inv lootSlot canStoreNewItem hevent,
      h.filled.same hsame, h.rolls.same hsame⟩
  | autoStore player canStoreNewItem =>
    obtain ⟨hinv, hsame⟩ := hkeeps.autoStore h.filled h.inv canStoreNewItem hevent
    exact ⟨hinv, h.filled.same hsame, h.rolls.same hsame⟩
  | lootMasterGive player target slotid inReach canStoreNewItem =>
    have hsame := @Same.handleLootMasterGive world player target slotid inReach canStoreNewItem
      s.loot
    refine ⟨?_, h.filled.same hsame, h.rolls.same hsame⟩
    rw [lootStep]
    rw [handleLootMasterGive]
    cases hgives : gives world player target slotid inReach canStoreNewItem s.loot with
    | none => exact h.inv
    | some given =>
      obtain ⟨entry, item⟩ := given
      exact hkeeps.give s.loot target entry item h.filled (gives_eq_some hgives)
        (hevent entry item hgives) h.inv
  | lootOpened start enchanting => exact hkeeps.onLootOpened h start enchanting
  | lootRoll player lootListId rollType rollNumber =>
    refine ⟨?_, ?_, h.rolls.handleLootRoll player lootListId rollType rollNumber⟩
    · rw [lootStep, handleLootRoll]
      cases RollVote.ofRollType rollType with
      | none => exact h.inv
      | some vote => exact h.inv
    · rw [lootStep, handleLootRoll]
      cases RollVote.ofRollType rollType with
      | none => exact h.filled
      | some vote => exact h.filled
  | update order now connected canStoreNewItem =>
    exact hkeeps.update hnear h canStoreNewItem hevent

end IscServer.Looting
