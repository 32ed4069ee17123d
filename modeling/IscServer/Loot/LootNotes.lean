import Mathlib.Data.List.Nodup
import IscServer.Loot.LootFilling

/-!
# The Notes on a Loot

The lists of a player note which items that are free for all, and which quest items, the player has
taken.

## Main results

* `hasNote_storeTaken` : the notes after an item has been taken.
-/

namespace IscServer.Looting

open List

variable {world : World} {l l' : Loot} {player : Guid} {entry : Entry} {note : Note}
  {item : LootItem} {lootSlot : ℕ}

/-- The position of an entry in its list. -/
def Entry.index : Entry → ℕ
  | .item index => index
  | .quest index => index

/-- The list of a player with the notes on an entry. -/
def Loot.notes (l : Loot) (player : Guid) : Entry → Option (List NotNormalLootItem)
  | .item _ => l.playerFFAItems player
  | .quest _ => l.playerQuestItems player

/-- The player has a note on the entry, and it is marked as looted or not. -/
def hasNote (l : Loot) (player : Guid) (entry : Entry) (isLooted : Bool) : Bool :=
  (l.notes player entry).any fun list => (⟨entry.index, isLooted⟩ : NotNormalLootItem) ∈ list

theorem hasNote_iff {isLooted : Bool} : hasNote l player entry isLooted = true ↔
    ∃ list, l.notes player entry = some list ∧ ⟨entry.index, isLooted⟩ ∈ list := by
  rw [hasNote, Option.any_eq_true]
  simp only [decide_eq_true_eq]

theorem hasNote_congr (h : ∀ player entry, l'.notes player entry = l.notes player entry)
    (player : Guid) (entry : Entry) (isLooted : Bool) :
    hasNote l' player entry isLooted = hasNote l player entry isLooted := by
  rw [hasNote, hasNote, h]

variable {list : List NotNormalLootItem}

/-- No list holds an entry twice. -/
theorem Filled.notes_nodup (h : Filled world l) (hlist : l.notes player entry = some list) : (list.map NotNormalLootItem.index).Nodup := by
  have hindices : indices (l.notes player entry) = some (list.map NotNormalLootItem.index) := by
    rw [hlist]
    rfl
  cases entry with
  | item index => exact h.ffaNodup player _ hindices
  | quest index => exact h.questNodup player _ hindices

/-! ### What leaves the notes alone -/

theorem Remarked.notes (h : Remarked l l') (player : Guid) (entry : Entry) :
    l'.notes player entry = l.notes player entry := by
  rw [h.frame]
  cases entry with
  | item index => rfl
  | quest index => rfl

theorem notes_modifyItem (l : Loot) (entry : Entry) (change : LootItem → LootItem) (player : Guid)
    (other : Entry) : (l.modifyItem entry change).notes player other = l.notes player other := by
  cases entry with
  | item index =>
    cases other with
    | item index => rfl
    | quest index => rfl
  | quest index =>
    cases other with
    | item index => rfl
    | quest index => rfl

theorem notes_storeNewItem (player : Guid) (entry : Entry) (item : LootItem) (l : Loot)
    (guid : Guid) (other : Entry) : (storeNewItem player entry item l).notes guid other = l.notes guid other := by
  rw [storeNewItem]
  split_ifs
  · rfl
  · cases other with
    | item index => rfl
    | quest index => rfl

theorem notes_countDown (l : Loot) (player : Guid) (entry : Entry) :
    l.countDown.notes player entry = l.notes player entry := by
  cases entry with
  | item index => rfl
  | quest index => rfl

/-! ### The notes of a player who is entered -/

/-- The entries that are listed. -/
def listedIn (questListed ffaListed : List ℕ) : Entry → List ℕ
  | .item _ => ffaListed
  | .quest _ => questListed

variable {questListed ffaListed : List ℕ}

section

variable (h : Entered world player l l' questListed ffaListed)
include h

theorem Entered.notes_of_ne {guid : Guid} (hguid : guid ≠ player) (entry : Entry) : l'.notes guid entry = l.notes guid entry := by
  rw [h.frame]
  cases entry with
  | item index => exact keepList_of_ne hguid _ _
  | quest index => exact keepList_of_ne hguid _ _

/-- The notes of a player who has been entered. -/
theorem Entered.hasNote_self (hnew : Newcomer l player) (entry : Entry) (isLooted : Bool) :
    hasNote l' player entry isLooted = true ↔
      entry.index ∈ listedIn questListed ffaListed entry ∧ isLooted = false := by
  have hnotes : l'.notes player entry = if listedIn questListed ffaListed entry = [] then none
      else some (notesOf (listedIn questListed ffaListed entry)) := by
    rw [h.frame]
    cases entry with
    | item index => exact keepList_notesOf hnew.ffa ffaListed
    | quest index => exact keepList_notesOf hnew.quest questListed
  rw [hasNote_iff, hnotes]
  constructor
  · rintro ⟨list, hlist, hmem⟩
    split_ifs at hlist
    obtain rfl := Option.some.inj hlist
    obtain ⟨index, hindex, heq⟩ := mem_map.mp hmem
    obtain ⟨rfl, rfl⟩ := NotNormalLootItem.mk.inj heq
    exact ⟨hindex, rfl⟩
  · rintro ⟨hmem, rfl⟩
    rw [if_neg (ne_nil_of_mem hmem)]
    exact ⟨_, rfl, mem_map.mpr ⟨_, hmem, rfl⟩⟩

end

/-! ### Marking -/

/-- The notes of a list in which one is marked. -/
theorem mem_modify_iff {position index : ℕ} (hget : list[position]? = some ⟨index, false⟩)
    (hnodup : (list.map NotNormalLootItem.index).Nodup) (noted : NotNormalLootItem) :
    noted ∈ list.modify position (fun noted => { noted with isLooted := true }) ↔
      if noted.index = index then noted.isLooted = true else noted ∈ list := by
  have hposition : ∀ k other, list[k]? = some other → other.index = index → k = position := by
    intro k other hk hindex
    have hmap : ∀ {k : ℕ} {other : NotNormalLootItem}, list[k]? = some other →
        (list.map NotNormalLootItem.index)[k]? = some other.index := by
      intro k other hk
      rw [List.getElem?_map, hk, Option.map_some]
    obtain ⟨hlt, hat⟩ := List.getElem?_eq_some_iff.mp (hmap hk)
    obtain ⟨hlt', hat'⟩ := List.getElem?_eq_some_iff.mp (hmap hget)
    exact (List.Nodup.getElem_inj_iff hnodup).mp (hat.trans (hindex.trans hat'.symm))
  have hmarked : (list.modify position fun noted => { noted with isLooted := true })[position]? =
      some ⟨index, true⟩ := by
    rw [List.getElem?_modify_eq, hget]
    rfl
  constructor
  · intro hmem
    obtain ⟨k, hk⟩ := mem_iff_getElem?.mp hmem
    by_cases hsame : position = k
    · subst hsame
      obtain rfl := Option.some.inj (hmarked.symm.trans hk)
      rw [if_pos rfl]
    · rw [List.getElem?_modify_ne _ _ hsame] at hk
      rw [if_neg fun hindex => hsame (hposition k noted hk hindex).symm]
      exact mem_of_getElem? hk
  · intro hnoted
    by_cases hindex : noted.index = index
    · rw [if_pos hindex] at hnoted
      have heq : noted = ⟨index, true⟩ := by rw [← hindex, ← hnoted]
      exact heq ▸ mem_of_getElem? hmarked
    · rw [if_neg hindex] at hnoted
      obtain ⟨k, hk⟩ := mem_iff_getElem?.mp hnoted
      have hne : position ≠ k := by
        rintro rfl
        rw [hget] at hk
        exact hindex (congrArg NotNormalLootItem.index (Option.some.inj hk)).symm
      exact mem_of_getElem? ((List.getElem?_modify_ne _ _ hne).trans hk)

/-- An entry whose taking is noted in a list of the player. -/
def noting (entry : Entry) (item : LootItem) : Bool := item.freeforall || entry.isQuest

/-- The note that is found on an entry: it is marked, and no other one is. -/
theorem Taken.found (hfilled : Filled world l) (h : Taken world player lootSlot l entry note item)
    (hlooter : entry.isQuest = false → item.freeforall = true → player ∈ l.allowedLooters) :
    (noting entry item = true ∧ ∃ list position, l.notes player entry = some list ∧
      list[position]? = some ⟨entry.index, false⟩ ∧
      ∀ guid other, (mark player note l).notes guid other =
        if guid = player ∧ other.isQuest = entry.isQuest then
          some (list.modify position fun noted => { noted with isLooted := true })
        else l.notes guid other) ∨
    (noting entry item = false ∧ ∀ guid other, (mark player note l).notes guid other = l.notes guid other) := by
  cases lootItemInSlot_found h.slot h.lootItem with
  | shared _ hnote hshared =>
    refine Or.inr ⟨?_, fun guid other => ?_⟩
    · rw [noting, hshared]
      rfl
    · rcases hnote with rfl | ⟨position, rfl⟩
      · rfl
      · cases other with
        | item index => rfl
        | quest index => rfl
  | unlisted hffa hnone =>
    obtain ⟨list, hlist, hmem⟩ := hfilled.complete player (hlooter rfl hffa) lootSlot item h.lootItem
      hffa h.allowed
    obtain ⟨notes, hnotes, rfl⟩ := Option.map_eq_some_iff.mp hlist
    rw [hnotes] at hnone
    exact absurd hmem (findNote_eq_none hnone)
  | ffa list position hffa hlist hget =>
    refine Or.inl ⟨by rw [noting, hffa]; rfl, list, position, hlist, hget, fun guid other => ?_⟩
    cases other with
    | quest index =>
      rw [if_neg fun hno => Bool.noConfusion hno.2]
      rfl
    | item index =>
      change Function.update l.playerFFAItems player (markNote position
        (l.playerFFAItems player)) guid = _
      rw [hlist, Function.update_apply]
      by_cases hguid : guid = player
      · rw [if_pos hguid, if_pos ⟨hguid, rfl⟩]
        rfl
      · rw [if_neg hguid, if_neg fun hno => hguid hno.1]
        rfl
  | quest list position index hlist hget =>
    refine Or.inl ⟨Bool.or_true _, list, position, hlist, hget, fun guid other => ?_⟩
    cases other with
    | item index =>
      rw [if_neg fun hno => Bool.noConfusion hno.2]
      rfl
    | quest other =>
      change Function.update l.playerQuestItems player (markNote position
        (l.playerQuestItems player)) guid = _
      rw [hlist, Function.update_apply]
      by_cases hguid : guid = player
      · rw [if_pos hguid, if_pos ⟨hguid, rfl⟩]
        rfl
      · rw [if_neg hguid, if_neg fun hno => hguid hno.1]
        rfl

theorem notes_storeTaken (player : Guid) (entry : Entry) (note : Note) (item : LootItem) (l : Loot)
    (guid : Guid) (other : Entry) :
    (storeTaken player entry note item l).notes guid other = (mark player note l).notes guid other := by
  rw [storeTaken_frame]
  cases other with
  | item index => rfl
  | quest index => rfl

/-- **The notes after an item has been taken.** -/
theorem hasNote_storeTaken (hfilled : Filled world l)
    (h : Taken world player lootSlot l entry note item)
    (hlooter : entry.isQuest = false → item.freeforall = true → player ∈ l.allowedLooters) :
    (noting entry item = true → hasNote l player entry false = true ∧ hasNote l player entry true = false) ∧
    ∀ guid other isLooted, hasNote (storeTaken player entry note item l) guid other isLooted = true ↔
      (if guid = player ∧ other = entry ∧ noting entry item = true then isLooted = true
        else hasNote l guid other isLooted = true) := by
  rcases h.found hfilled hlooter with ⟨hnoting, list, position, hlist, hget, hmarked⟩ |
    ⟨hnot, hmarked⟩
  · have hnodup := hfilled.notes_nodup hlist
    have hmem := mem_of_getElem? hget
    refine ⟨fun _ => ⟨hasNote_iff.mpr ⟨list, hlist, hmem⟩, ?_⟩, fun guid other isLooted => ?_⟩
    · rw [Bool.eq_false_iff]
      intro htrue
      obtain ⟨list', hlist', hlooted⟩ := hasNote_iff.mp htrue
      obtain rfl := Option.some.inj (hlist.symm.trans hlist')
      have hinj := inj_on_of_nodup_map hnodup hmem hlooted rfl
      exact Bool.noConfusion (congrArg NotNormalLootItem.isLooted hinj)
    · rw [hasNote_iff, notes_storeTaken, hmarked]
      by_cases hwhere : guid = player ∧ other.isQuest = entry.isQuest
      · rw [if_pos hwhere]
        obtain ⟨rfl, hkind⟩ := hwhere
        have hother : l.notes guid other = some list := by
          rw [← hlist]
          cases other with
          | item index =>
            cases entry with
            | item index => rfl
            | quest index => cases hkind
          | quest index =>
            cases entry with
            | item index => cases hkind
            | quest index => rfl
        have hindex : other.index = entry.index ↔ other = entry := by
          cases other with
          | item index =>
            cases entry with
            | item index => exact ⟨fun heq => congrArg Entry.item heq, Entry.item.inj⟩
            | quest index => cases hkind
          | quest index =>
            cases entry with
            | item index => cases hkind
            | quest index => exact ⟨fun heq => congrArg Entry.quest heq, Entry.quest.inj⟩
        have hread : (∃ list', some (list.modify position fun noted =>
            { noted with isLooted := true }) = some list' ∧
              (⟨other.index, isLooted⟩ : NotNormalLootItem) ∈ list') ↔
            if other.index = entry.index then isLooted = true
              else (⟨other.index, isLooted⟩ : NotNormalLootItem) ∈ list := by
          rw [← mem_modify_iff hget hnodup ⟨other.index, isLooted⟩]
          simp only [Option.some.injEq, exists_eq_left']
        rw [hread]
        by_cases hsame : other = entry
        · rw [if_pos (hindex.mpr hsame), if_pos ⟨rfl, hsame, hnoting⟩]
        · rw [if_neg fun heq => hsame (hindex.mp heq), if_neg fun hno => hsame hno.2.1, hasNote_iff,
            hother]
          simp only [Option.some.injEq, exists_eq_left']
      · rw [if_neg hwhere, if_neg, hasNote_iff]
        rintro ⟨hguid, rfl, -⟩
        exact hwhere ⟨hguid, rfl⟩
  · refine ⟨fun hnoting => Bool.noConfusion (hnot.symm.trans hnoting), fun guid other isLooted => ?_⟩
    rw [if_neg fun hno => Bool.noConfusion (hnot.symm.trans hno.2.2), hasNote_iff, hasNote_iff, notes_storeTaken, hmarked]

end IscServer.Looting
