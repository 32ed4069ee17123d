import IscServer.Loot.LootRoll

/-!
# The Items of a Loot

What the operations on a loot do to its items: each changes one entry, and only the marks of it.

## Main results

* `lootItem_modifyItem` : the items after one of them has changed.
* `takes_eq_some` : what `StoreLootItem` has checked of the item that it takes.
* `storeLootItem_cases` : nothing happens, or the item that was taken is stored.
-/

namespace IscServer.Looting

open Option

variable {world : World} {l : Loot} {player : Guid} {entry : Entry} {note : Note} {item : LootItem}

/-! ### Entries -/

/-- **One item changes.** -/
theorem lootItem_modifyItem (l : Loot) (entry other : Entry) (change : LootItem → LootItem) :
    (l.modifyItem entry change).lootItem other =
      if other = entry then (l.lootItem entry).map change else l.lootItem other := by
  cases entry with
  | item index =>
    cases other with
    | item index' =>
      by_cases h : index = index'
      · rw [h, if_pos rfl]
        exact List.getElem?_modify_eq change index' l.items
      · rw [if_neg fun heq => h (Entry.item.inj heq).symm]
        exact List.getElem?_modify_ne change l.items h
    | quest index' => rfl
  | quest index =>
    cases other with
    | item index' => rfl
    | quest index' =>
      by_cases h : index = index'
      · rw [h, if_pos rfl]
        exact List.getElem?_modify_eq change index' l.questItems
      · rw [if_neg fun heq => h (Entry.quest.inj heq).symm]
        exact List.getElem?_modify_ne change l.questItems h

@[simp] theorem length_items_modifyItem (l : Loot) (entry : Entry) (change : LootItem → LootItem) :
    (l.modifyItem entry change).items.length = l.items.length := by
  cases entry with
  | item index => exact List.length_modify _ _ _
  | quest index => rfl

@[simp] theorem length_questItems_modifyItem (l : Loot) (entry : Entry)
    (change : LootItem → LootItem) :
    (l.modifyItem entry change).questItems.length = l.questItems.length := by
  cases entry with
  | item index => rfl
  | quest index => exact List.length_modify _ _ _

variable {l' : Loot}

theorem entryOf_congr (h : l'.items.length = l.items.length) (lootListId : ℕ) :
    l'.entryOf lootListId = l.entryOf lootListId := by
  rw [Loot.entryOf, Loot.entryOf, h]

/-- An operation that leaves the items alone. -/
theorem lootItem_congr (hitems : l'.items = l.items) (hquest : l'.questItems = l.questItems)
    (entry : Entry) : l'.lootItem entry = l.lootItem entry := by
  cases entry with
  | item index => rw [Loot.lootItem, Loot.lootItem, hitems]
  | quest index => rw [Loot.lootItem, Loot.lootItem, hquest]

@[simp] theorem lootItem_countDown (l : Loot) (entry : Entry) :
    l.countDown.lootItem entry = l.lootItem entry := lootItem_congr rfl rfl entry

section

variable (player : Guid) (note : Note) (l : Loot)

@[simp] theorem mark_items : (mark player note l).items = l.items := by
  cases note with
  | none => rfl
  | quest position => rfl
  | ffa position => rfl
  | conditional position => rfl

@[simp] theorem mark_questItems : (mark player note l).questItems = l.questItems := by
  cases note with
  | none => rfl
  | quest position => rfl
  | ffa position => rfl
  | conditional position => rfl

@[simp] theorem lootItem_mark (entry : Entry) :
    (mark player note l).lootItem entry = l.lootItem entry :=
  lootItem_congr (mark_items player note l) (mark_questItems player note l) entry

end

@[simp] theorem lootItem_storeNewItem (player : Guid) (taken : Entry) (item : LootItem) (l : Loot)
    (entry : Entry) : (storeNewItem player taken item l).lootItem entry = l.lootItem entry := by
  rw [storeNewItem]
  split_ifs
  · rfl
  · exact lootItem_congr rfl rfl entry

@[simp] theorem storeNewItem_items (player : Guid) (taken : Entry) (item : LootItem) (l : Loot) :
    (storeNewItem player taken item l).items = l.items := by
  rw [storeNewItem]
  split_ifs
  · rfl
  · rfl

@[simp] theorem take_isBlocked (item : LootItem) : item.take.isBlocked = item.isBlocked := by
  rw [LootItem.take]
  split_ifs
  · rfl
  · rfl

/-! ### Taking -/

/-- What `StoreLootItem` has checked of the item that it takes. -/
structure Taken (world : World) (player : Guid) (lootSlot : ℕ) (l : Loot) (entry : Entry)
    (note : Note) (item : LootItem) : Prop where
  slot : lootItemInSlot lootSlot player l = some (entry, note)
  lootItem : l.lootItem entry = some item
  notLooted : item.isLooted = false
  allowed : allowedForPlayer world player false none item = true
  unblocked : note.isQuest = true ∨ item.isBlocked = false
  winner : ∀ winner, item.rollWinnerGUID = some winner → winner = player

variable {lootSlot : ℕ}

theorem takes_eq_some (h : takes world player lootSlot l = some (entry, note, item)) :
    Taken world player lootSlot l entry note item := by
  rw [takes] at h
  cases hslot : lootItemInSlot lootSlot player l with
  | none =>
    rw [hslot] at h
    cases h
  | some found =>
    rw [hslot] at h
    dsimp only at h
    cases hitem : l.lootItem found.1 with
    | none =>
      rw [hitem] at h
      cases h
    | some taken =>
      rw [hitem] at h
      dsimp only at h
      split_ifs at h with hchecks
      obtain ⟨rfl, hrest⟩ := Prod.mk.inj (Option.some.inj h)
      obtain ⟨rfl, rfl⟩ := Prod.mk.inj hrest
      simp only [not_or, not_and, Bool.not_eq_true, Bool.not_eq_false] at hchecks
      obtain ⟨hlooted, hallowed, hblocked, hwinner⟩ := hchecks
      refine ⟨hslot, hitem, hlooted, hallowed, ?_, fun winner hwin => ?_⟩
      · cases hquest : found.2.isQuest with
        | true => exact Or.inl rfl
        | false => exact Or.inr (hblocked hquest)
      · rw [hwin, any_some] at hwinner
        exact not_not.mp (of_decide_eq_false hwinner)

/-- How `LootItemInSlot` comes upon an item: one that is for one player, one that is free for all and
is in the list of the player or not, or a quest item in the list of the player. -/
inductive Found (l : Loot) (player : Guid) (lootSlot : ℕ) (item : LootItem) : Entry → Note → Prop
  | shared (note : Note) (hnote : note = .none ∨ ∃ position, note = .conditional position) :
      item.freeforall = false → Found l player lootSlot item (.item lootSlot) note
  | unlisted : item.freeforall = true → findNote (l.playerFFAItems player) lootSlot = none →
      Found l player lootSlot item (.item lootSlot) .none
  | ffa (list : List NotNormalLootItem) (position : ℕ) : item.freeforall = true →
      l.playerFFAItems player = some list → list[position]? = some ⟨lootSlot, false⟩ →
        Found l player lootSlot item (.item lootSlot) (.ffa position)
  | quest (list : List NotNormalLootItem) (position index : ℕ) :
      l.playerQuestItems player = some list → list[position]? = some ⟨index, false⟩ →
        Found l player lootSlot item (.quest index) (.quest position)

variable {index : ℕ}

/-- The note that is found is the one on the index. -/
theorem findNote_eq_some {list : Option (List NotNormalLootItem)} {position : ℕ} {isLooted : Bool}
    (h : findNote list index = some (position, isLooted)) :
    ∃ notes, list = some notes ∧ notes[position]? = some ⟨index, isLooted⟩ := by
  obtain ⟨notes, rfl, hbind⟩ := bind_eq_some_iff.mp h
  obtain ⟨found, hfound, hmap⟩ := bind_eq_some_iff.mp hbind
  obtain ⟨noted, hnoted, heq⟩ := map_eq_some_iff.mp hmap
  obtain ⟨rfl, rfl⟩ := Prod.mk.inj heq
  obtain ⟨hlt, hindex, -⟩ := List.findIdx?_eq_some_iff_getElem.mp hfound
  have hsame := (List.getElem?_eq_getElem hlt).symm.trans hnoted
  refine ⟨notes, rfl, hnoted.trans ?_⟩
  rw [Option.some.inj hsame] at hindex
  rw [← of_decide_eq_true hindex]

/-- An index that is not found is not in the list. -/
theorem findNote_eq_none {notes : List NotNormalLootItem} (h : findNote (some notes) index = none) :
    index ∉ notes.map NotNormalLootItem.index := by
  intro hmem
  obtain ⟨noted, hnoted, hindex⟩ := List.mem_map.mp hmem
  rw [findNote, bind_some] at h
  cases hfound : notes.findIdx? fun noted => noted.index = index with
  | none =>
    have hno := List.findIdx?_eq_none_iff.mp hfound noted hnoted
    exact of_decide_eq_false hno hindex
  | some found =>
    obtain ⟨hlt, -⟩ := List.findIdx?_eq_some_iff_getElem.mp hfound
    rw [hfound, bind_some, List.getElem?_eq_getElem hlt] at h
    cases h

theorem lootItemInSlot_found (h : lootItemInSlot lootSlot player l = some (entry, note))
    (hitem : l.lootItem entry = some item) : Found l player lootSlot item entry note := by
  rw [lootItemInSlot.eq_def] at h
  cases hslot : l.items[lootSlot]? with
  | none =>
    rw [hslot] at h
    dsimp only at h
    cases hnoted : (l.playerQuestItems player).bind fun list => list[lootSlot - l.items.length]? with
    | none =>
      rw [hnoted] at h
      cases h
    | some noted =>
      rw [hnoted] at h
      dsimp only at h
      split_ifs at h with hlooted
      obtain ⟨rfl, rfl⟩ := Prod.mk.inj (Option.some.inj h)
      obtain ⟨list, hlist, hget⟩ := bind_eq_some_iff.mp hnoted
      refine Found.quest list _ noted.index hlist (hget.trans ?_)
      rw [← Bool.eq_false_iff.mpr hlooted]
  | some found =>
    rw [hslot] at h
    dsimp only at h
    have hfound : entry = .item lootSlot → item = found := by
      rintro rfl
      exact Option.some.inj (hitem.symm.trans hslot)
    by_cases hffa : found.freeforall = true
    · rw [if_pos hffa] at h
      cases hnote : findNote (l.playerFFAItems player) lootSlot with
      | none =>
        rw [hnote] at h
        split_ifs at h
        obtain ⟨rfl, rfl⟩ := Prod.mk.inj (Option.some.inj h)
        exact Found.unlisted (hfound rfl ▸ hffa) hnote
      | some noted =>
        obtain ⟨position, isLooted⟩ := noted
        rw [hnote] at h
        dsimp only at h
        split_ifs at h with hlooted
        obtain ⟨rfl, rfl⟩ := Prod.mk.inj (Option.some.inj h)
        obtain ⟨notes, hlist, hget⟩ := findNote_eq_some hnote
        rw [Bool.eq_false_iff.mpr hlooted] at hget
        exact Found.ffa notes position (hfound rfl ▸ hffa) hlist hget
    · rw [if_neg hffa] at h
      have hshared : ∀ note' isLooted, (note' = .none ∨ ∃ position, note' = .conditional position) →
          (if isLooted = true then none else some (Entry.item lootSlot, note')) =
            some (entry, note) → Found l player lootSlot item entry note := by
        intro note' isLooted hnote hsome
        split_ifs at hsome
        obtain ⟨rfl, rfl⟩ := Prod.mk.inj (Option.some.inj hsome)
        exact Found.shared note' hnote (hfound rfl ▸ Bool.eq_false_iff.mpr hffa)
      by_cases hconditions : ¬ found.conditions.isEmpty = true
      · rw [if_pos hconditions] at h
        cases hnote : findNote (l.playerNonQuestNonFFAConditionalItems player) lootSlot with
        | none =>
          rw [hnote] at h
          exact hshared .none _ (Or.inl rfl) h
        | some noted =>
          rw [hnote] at h
          exact hshared (.conditional noted.1) _ (Or.inr ⟨_, rfl⟩) h
      · rw [if_neg hconditions] at h
        exact hshared .none _ (Or.inl rfl) h

/-- **Storing an item**: nothing happens, or the item that was taken is stored. -/
theorem storeLootItem_cases (world : World) (player : Guid) (lootSlot : ℕ) (canStoreNewItem : Bool)
    (l : Loot) : storeLootItem world player lootSlot canStoreNewItem l = l ∨
      ∃ entry note item, Taken world player lootSlot l entry note item ∧
        storeLootItem world player lootSlot canStoreNewItem l =
          storeTaken player entry note item l := by
  rw [storeLootItem]
  cases htakes : takes world player lootSlot l with
  | none => exact Or.inl rfl
  | some taken =>
    obtain ⟨entry, note, item⟩ := taken
    cases canStoreNewItem with
    | false => exact Or.inl rfl
    | true => exact Or.inr ⟨entry, note, item, takes_eq_some htakes, rfl⟩

section

variable (player : Guid) (entry : Entry) (note : Note) (item : LootItem) (l : Loot)

/-- The items after one of them has been stored. -/
theorem lootItem_storeTaken (other : Entry) :
    (storeTaken player entry note item l).lootItem other =
      if other = entry then (l.lootItem entry).map LootItem.take else l.lootItem other := by
  rw [storeTaken, lootItem_countDown, lootItem_storeNewItem, lootItem_modifyItem, lootItem_mark,
    lootItem_mark]

theorem length_items_storeTaken : (storeTaken player entry note item l).items.length = l.items.length := by
  rw [storeTaken, Loot.countDown]
  rw [storeNewItem_items, length_items_modifyItem, mark_items]

end

end IscServer.Looting
