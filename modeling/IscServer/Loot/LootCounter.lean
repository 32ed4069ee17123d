import IscServer.Library.Tally
import IscServer.Loot.LootNotes

/-!
# The Counter of a Loot

`unlootedCount` is to say how much is left: the entries for one player that some allowed looter may
take, and the notes on items that are free for all. Each way to take something lowers it by one.

## Main results

* `Loot.unlooted` : what is left.
* `remaining_of_changed` : an entry is taken, given or disenchanted, and one less is left.
* `keeps_tallied` : the counter stays exact.
* `Tallied.exact` : the loot is looted when nobody can take anything more.
-/

namespace IscServer.Looting

open List

open Run Tally

variable {world : World} {l l' : Loot} {player target : Guid} {entry : Entry} {note : Note}
  {item : LootItem} {lootSlot : ℕ} {claim claim' : Entry → Bool}

/-- All entries of a loot. -/
def Loot.entries (l : Loot) : List Entry :=
  (List.range l.items.length).map Entry.item ++ (List.range l.questItems.length).map Entry.quest

theorem mem_entries : entry ∈ l.entries ↔ ∃ item, l.lootItem entry = some item := by
  rw [Loot.entries, mem_append, mem_map, mem_map]
  constructor
  · rintro (⟨index, hindex, rfl⟩ | ⟨index, hindex, rfl⟩)
    · exact ⟨_, List.getElem?_eq_getElem (mem_range.mp hindex)⟩
    · exact ⟨_, List.getElem?_eq_getElem (mem_range.mp hindex)⟩
  · rintro ⟨item, hitem⟩
    cases entry with
    | item index =>
      exact Or.inl ⟨index, mem_range.mpr (List.getElem?_eq_some_iff.mp hitem).1, rfl⟩
    | quest index =>
      exact Or.inr ⟨index, mem_range.mpr (List.getElem?_eq_some_iff.mp hitem).1, rfl⟩

theorem entries_nodup (l : Loot) : l.entries.Nodup := by
  refine nodup_append.mpr ⟨?_, ?_, ?_⟩
  · exact nodup_range.map fun _ _ heq => Entry.item.inj heq
  · exact nodup_range.map fun _ _ heq => Entry.quest.inj heq
  · intro a ha b hb heq
    obtain ⟨_, -, rfl⟩ := mem_map.mp ha
    obtain ⟨_, -, rfl⟩ := mem_map.mp hb
    cases heq

theorem Same.entries (h : Same l l') : l'.entries = l.entries := by
  rw [Loot.entries, Loot.entries, h.length, h.questLength]

/-- The player has a note on the entry. -/
def listed (l : Loot) (player : Guid) (entry : Entry) : Bool :=
  hasNote l player entry false || hasNote l player entry true

/-- The player may take the item of the entry, and has a quest item in the list. -/
def mayTake (world : World) (l : Loot) (player : Guid) (entry : Entry) : Bool :=
  (l.lootItem entry).any fun item =>
    allowedForPlayer world player false none item && (!entry.isQuest || listed l player entry)

/-- The entry is for one player and not looted. -/
def openShared (l : Loot) (entry : Entry) : Bool :=
  (l.lootItem entry).any fun item => !item.isLooted && !item.freeforall

/-- The player has not taken an item that is free for all. -/
def openFor (l : Loot) (taker : Guid × Entry) : Bool :=
  ((l.lootItem taker.2).any fun item => item.freeforall) && hasNote l taker.1 taker.2 false

/-- What is left of a loot, of those entries for one player that are claimed. -/
def remaining (claim : Entry → Bool) (l : Loot) : ℕ :=
  l.entries.countP (fun entry => openShared l entry && claim entry) +
    (l.allowedLooters.product l.entries).countP (openFor l)

/-- Some allowed looter may take the entry. -/
def claimed (world : World) (l : Loot) (entry : Entry) : Bool :=
  l.allowedLooters.any fun player => mayTake world l player entry

/-- **What is left of a loot**: the entries for one player that are not looted and that some allowed
looter may take, and the pairs of a player and an item that is free for all in the lists that are not
looted. -/
def Loot.unlooted (world : World) (l : Loot) : ℕ := remaining (claimed world l) l

/-- The player can take the entry: may take it, and it is not looted for the player. -/
def CanTake (world : World) (l : Loot) (player : Guid) (entry : Entry) : Prop :=
  mayTake world l player entry = true ∧
    (openShared l entry = true ∨ openFor l (player, entry) = true)

/-- **The counter is exact.** -/
structure Exact (world : World) (l : Loot) : Prop where
  count : l.unlootedCount = l.unlooted world
  isLooted : l.isLooted = true ↔
    l.gold = 0 ∧ ∀ player ∈ l.allowedLooters, ∀ entry, ¬ CanTake world l player entry

/-! ### Who is listed -/

theorem listed_iff : listed l player entry = true ↔
    ∃ list, indices (l.notes player entry) = some list ∧ entry.index ∈ list := by
  rw [listed, Bool.or_eq_true, hasNote_iff, hasNote_iff]
  constructor
  · rintro (⟨list, hlist, hmem⟩ | ⟨list, hlist, hmem⟩)
    · exact ⟨_, by rw [hlist]; rfl, mem_map.mpr ⟨_, hmem, rfl⟩⟩
    · exact ⟨_, by rw [hlist]; rfl, mem_map.mpr ⟨_, hmem, rfl⟩⟩
  · rintro ⟨list, hlist, hmem⟩
    obtain ⟨notes, hnotes, rfl⟩ := Option.map_eq_some_iff.mp hlist
    obtain ⟨⟨index, isLooted⟩, hnoted, rfl⟩ := mem_map.mp hmem
    cases isLooted with
    | false => exact Or.inl ⟨notes, hnotes, hnoted⟩
    | true => exact Or.inr ⟨notes, hnotes, hnoted⟩

theorem mayTake_iff : mayTake world l player entry = true ↔ MayTake world l player entry := by
  have hlisted : (!entry.isQuest || listed l player entry) = true ↔ Listed l player entry := by
    cases entry with
    | item index => exact ⟨fun _ => trivial, fun _ => rfl⟩
    | quest index => exact listed_iff
  rw [mayTake, Option.any_eq_true]
  simp only [Bool.and_eq_true, hlisted]
  exact Iff.rfl

theorem Same.symm (h : Same l l') : Same l' l :=
  ⟨fun entry => (h.items entry).symm, h.length.symm, h.questLength.symm, h.gold.symm,
    h.lootMethod.symm, h.allowedLooters.symm, fun guid => (h.questNotes guid).symm,
    fun guid => (h.ffaNotes guid).symm⟩

theorem Same.mayTake (h : Same l l') (player : Guid) (entry : Entry) :
    mayTake world l' player entry = mayTake world l player entry := by
  rw [Bool.eq_iff_iff, mayTake_iff, mayTake_iff]
  exact ⟨fun hmay => hmay.same h.symm, fun hmay => hmay.same h⟩

theorem Same.claimed (h : Same l l') : claimed world l' = claimed world l := by
  funext entry
  rw [Looting.claimed, Looting.claimed, h.allowedLooters]
  simp only [h.mayTake]

theorem Same.listed (h : Same l l') (player : Guid) (entry : Entry) :
    listed l' player entry = listed l player entry := by
  have hnotes : indices (l'.notes player entry) = indices (l.notes player entry) := by
    cases entry with
    | item index => exact h.ffaNotes player
    | quest index => exact h.questNotes player
  rw [Bool.eq_iff_iff, listed_iff, listed_iff, hnotes]

/-! ### One less is left -/

/-- Nothing that counts has changed. -/
theorem remaining_congr (hsame : Same l l') (hshared : ∀ entry, openShared l' entry = openShared l entry)
    (hnotes : ∀ player entry, hasNote l' player entry false = hasNote l player entry false) :
    remaining claim l' = remaining claim l := by
  have hopen : openFor l' = openFor l := by
    funext taker
    have hffa : (l'.lootItem taker.2).any (fun item => item.freeforall) =
        (l.lootItem taker.2).any fun item => item.freeforall := by
      have heq := congrArg (Option.any LootItem.freeforall) (hsame.items taker.2)
      rwa [Option.any_map, Option.any_map] at heq
    rw [openFor, openFor, hffa, hnotes]
  rw [remaining, remaining, hsame.entries, hsame.allowedLooters, hopen]
  simp only [hshared]

/-- **An entry for one player is looted**: one less is left. -/
theorem remaining_of_changed (hsame : Same l l') (hitem : l.lootItem entry = some item)
    (hffa : item.freeforall = false) (hlooted : item.isLooted = false) (hclaim : claim entry = true)
    {f : LootItem → LootItem} (hnewLooted : (f item).isLooted = true)
    (hchanged : ∀ other, l'.lootItem other =
      if other = entry then (l.lootItem entry).map f else l.lootItem other)
    (hnotes : ∀ player other, other ≠ entry →
      hasNote l' player other false = hasNote l player other false) :
    remaining claim l' + 1 = remaining claim l := by
  have hnew : l'.lootItem entry = some (f item) := by
    rw [hchanged, if_pos rfl, hitem, Option.map_some]
  have hitems : ∀ other, other ≠ entry → l'.lootItem other = l.lootItem other := fun other hother => by
    rw [hchanged, if_neg hother]
  have hopen : openFor l' = openFor l := by
    funext taker
    obtain ⟨guid, other⟩ := taker
    rw [openFor, openFor]
    by_cases hother : other = entry
    · obtain ⟨old, hold, horigin⟩ := hsame.before hnew
      obtain rfl := Option.some.inj (hitem.symm.trans hold)
      rw [hother, hnew, hitem, Option.any_some, Option.any_some, freeforall_of_origin horigin, hffa]
      rfl
    · rw [hitems other hother, hnotes guid other hother]
  have hcount : l.entries.countP (fun entry => openShared l' entry && claim entry) + 1 =
      l.entries.countP (fun entry => openShared l entry && claim entry) := by
    refine countP_switch_off (entries_nodup l) (mem_entries.mpr ⟨item, hitem⟩) ?_ ?_
      fun other _ hother => ?_
    · rw [openShared, hitem, Option.any_some, hlooted, hffa, hclaim]
      rfl
    · rw [openShared, hnew, Option.any_some, hnewLooted]
      rfl
    · rw [openShared, openShared, hitems other hother]
  rw [remaining, remaining, hsame.entries, hsame.allowedLooters, hopen, ← hcount]
  exact Nat.add_right_comm _ _ _

/-- **An item that is free for all is taken by a player**: one less is left. -/
theorem remaining_of_noted (hsame : Same l l') (hitem : l.lootItem entry = some item)
    (hffa : item.freeforall = true) (hlooter : player ∈ l.allowedLooters) (hnodup : l.allowedLooters.Nodup)
    (hnote : hasNote l player entry false = true) (hnow : hasNote l' player entry false = false)
    (hitems : ∀ other, other ≠ entry → l'.lootItem other = l.lootItem other)
    (hnotes : ∀ guid other, ¬ (guid = player ∧ other = entry) →
      hasNote l' guid other false = hasNote l guid other false) :
    remaining claim l' + 1 = remaining claim l := by
  obtain ⟨new, hnew, horigin⟩ := hsame.after hitem
  have hnewFree : new.freeforall = true := (freeforall_of_origin horigin).trans hffa
  have hshared : ∀ other, openShared l' other = openShared l other := by
    intro other
    rw [openShared, openShared]
    by_cases hother : other = entry
    · rw [hother, hnew, hitem, Option.any_some, Option.any_some, hnewFree, hffa, Bool.not_true,
        Bool.and_false, Bool.and_false]
    · rw [hitems other hother]
  have hfree : ∀ other, (l'.lootItem other).any (fun item => item.freeforall) =
      (l.lootItem other).any fun item => item.freeforall := by
    intro other
    have heq := congrArg (Option.any LootItem.freeforall) (hsame.items other)
    rwa [Option.any_map, Option.any_map] at heq
  have hcount : (l.allowedLooters.product l.entries).countP (openFor l') + 1 =
      (l.allowedLooters.product l.entries).countP (openFor l) := by
    refine @countP_switch_off _ _ _ _ (hnodup.product (entries_nodup l)) (player, entry)
      (pair_mem_product.mpr ⟨hlooter, mem_entries.mpr ⟨item, hitem⟩⟩) ?_ ?_ ?_
    · rw [openFor, hitem, Option.any_some, hffa, hnote]
      rfl
    · rw [openFor, hnow, Bool.and_false]
    · rintro ⟨guid, other⟩ - hne
      rw [openFor, openFor, hfree]
      refine congrArg _ (hnotes guid other fun hno => hne ?_)
      exact Prod.ext hno.1 hno.2
  rw [remaining, remaining, hsame.entries, hsame.allowedLooters, ← hcount]
  simp only [hshared]
  exact Nat.add_assoc _ _ _

/-- **Taking an item**: one less is left. -/
theorem remaining_storeTaken (hfilled : Filled world l)
    (htaken : Taken world player lootSlot l entry note item) (hlooter : player ∈ l.allowedLooters)
    (hclaim : item.freeforall = false → claim entry = true) :
    remaining claim (storeTaken player entry note item l) + 1 = remaining claim l := by
  have hsame := Same.storeTaken player entry note item l
  obtain ⟨hbefore, hnotes⟩ := hasNote_storeTaken hfilled htaken fun _ _ => hlooter
  have hkept : ∀ guid other, ¬ (guid = player ∧ other = entry ∧ noting entry item = true) →
      hasNote (storeTaken player entry note item l) guid other false = hasNote l guid other false := by
    intro guid other hno
    rw [Bool.eq_iff_iff, hnotes, if_neg hno]
  cases hffa : item.freeforall with
  | false =>
    refine remaining_of_changed hsame htaken.lootItem hffa htaken.notLooted (hclaim hffa) ?_
      (lootItem_storeTaken _ _ _ _ _) fun guid other hother => hkept guid other fun hno => hother hno.2.1
    rw [LootItem.take, if_neg (Bool.eq_false_iff.mp hffa)]
    rfl
  | true =>
    have hnoting : noting entry item = true := by rw [noting, hffa]; rfl
    refine remaining_of_noted hsame htaken.lootItem hffa hlooter hfilled.nodup
      (hbefore hnoting).1 ?_ (fun other hother => by rw [lootItem_storeTaken, if_neg hother])
      fun guid other hno => hkept guid other fun heq => hno ⟨heq.1, heq.2.1⟩
    rw [Bool.eq_false_iff]
    intro hnote
    have hfalse := (hnotes player entry false).mp hnote
    rw [if_pos ⟨rfl, rfl, hnoting⟩] at hfalse
    cases hfalse

theorem openShared_of_unmarked
    (h : ∀ entry, (l'.lootItem entry).map LootItem.unmarked =
      (l.lootItem entry).map LootItem.unmarked) (entry : Entry) :
    openShared l' entry = openShared l entry := by
  have heq := congrArg (Option.any fun item => !item.isLooted && !item.freeforall) (h entry)
  rwa [Option.any_map, Option.any_map] at heq

theorem Remarked.remaining (h : Remarked l l') : remaining claim l' = remaining claim l :=
  remaining_congr h.same (openShared_of_unmarked h.items) fun player entry =>
    hasNote_congr h.notes player entry false

theorem notes_given (target : Guid) (entry : Entry) (item : LootItem) (l : Loot) (player : Guid)
    (other : Entry) :
    ((storeNewItem target entry item l).modifyItem entry LootItem.give).countDown.notes player other =
      l.notes player other := by
  rw [notes_countDown, notes_modifyItem, notes_storeNewItem]

theorem same_given (target : Guid) (entry : Entry) (item : LootItem) (l : Loot) :
    Same l ((storeNewItem target entry item l).modifyItem entry LootItem.give).countDown :=
  (Same.storeNewItem target entry item l).trans
    ((@Same.modifyItem _ entry LootItem.give fun _ => rfl).trans (Same.countDown _))

section

variable (hitem : l.lootItem entry = some item) (hlooted : item.isLooted = false)
  (hffa : item.freeforall = false) (hclaim : claim entry = true)
include hitem hlooted hffa hclaim

/-- **Giving an item**: one less is left. -/
theorem remaining_given :
    remaining claim ((storeNewItem target entry item l).modifyItem entry LootItem.give).countDown + 1 =
      remaining claim l := by
  refine remaining_of_changed (same_given target entry item l) hitem hffa hlooted hclaim
    (f := LootItem.give) rfl (fun other => ?_) fun player other _ =>
      hasNote_congr (notes_given target entry item l) player other false
  rw [lootItem_countDown, lootItem_modifyItem, lootItem_storeNewItem, lootItem_storeNewItem]

/-- **Disenchanting an item**: one less is left. -/
theorem remaining_burnt :
    remaining claim (l.modifyItem entry LootItem.loot).countDown + 1 = remaining claim l := by
  refine remaining_of_changed ((@Same.modifyItem _ entry LootItem.loot fun _ => rfl).trans
    (Same.countDown _)) hitem hffa hlooted hclaim (f := LootItem.loot) rfl (fun other => ?_)
      fun player other _ => hasNote_congr (fun guid other => ?_) player other false
  · rw [lootItem_countDown, lootItem_modifyItem]
  · rw [notes_countDown, notes_modifyItem]

end

/-! ### The counter -/

/-- The counter says what is left, which is below its bound, and those who have a note on an item that
is free for all may take it. -/
structure Tallied (world : World) (l : Loot) : Prop where
  count : l.unlootedCount = l.unlooted world
  small : l.unlooted world < 256
  listers : ∀ player ∈ l.allowedLooters, ∀ entry item, l.lootItem entry = some item →
    item.freeforall = true → listed l player entry = true →
      allowedForPlayer world player false none item = true

theorem Tallied.listers_same (h : Tallied world l) (hsame : Same l l') :
    ∀ player ∈ l'.allowedLooters, ∀ entry item, l'.lootItem entry = some item →
      item.freeforall = true → listed l' player entry = true →
        allowedForPlayer world player false none item = true := by
  intro player hplayer entry item hitem hffa hlisted
  obtain ⟨old, hold, horigin⟩ := hsame.before hitem
  rw [allowed_of_origin horigin]
  exact h.listers player (hsame.allowedLooters ▸ hplayer) entry old hold
    ((freeforall_of_origin horigin).symm.trans hffa) ((hsame.listed player entry).symm.trans hlisted)

/-- One less is left, and the counter is lowered. -/
theorem Tallied.lower (h : Tallied world l) (hsame : Same l l')
    (hless : remaining (claimed world l) l' + 1 = l.unlooted world)
    (hcount : l'.unlootedCount = (l.unlootedCount + 255) % 256) : Tallied world l' := by
  have hleft : l'.unlooted world + 1 = l.unlooted world := by
    rw [← hless, Loot.unlooted, hsame.claimed]
  have hsmall := h.small
  refine ⟨?_, by omega, h.listers_same hsame⟩
  rw [hcount, h.count]
  omega

theorem unlootedCount_storeTaken (player : Guid) (entry : Entry) (note : Note) (item : LootItem)
    (l : Loot) :
    (storeTaken player entry note item l).unlootedCount = (l.unlootedCount + 255) % 256 := by
  have hmark : ((mark player note l).modifyItem entry LootItem.take).unlootedCount =
      l.unlootedCount := by
    cases note with
    | none | quest _ | ffa _ | conditional _ =>
      cases entry with
      | item index => rfl
      | quest index => rfl
  rw [storeTaken, storeNewItem]
  split_ifs
  · exact congrArg (fun count => (count + 255) % 256) hmark
  · exact congrArg (fun count => (count + 255) % 256) hmark

theorem unlootedCount_modifyItem (l : Loot) (entry : Entry) (change : LootItem → LootItem) :
    (l.modifyItem entry change).unlootedCount = l.unlootedCount := by
  cases entry with
  | item index => rfl
  | quest index => rfl

theorem unlootedCount_storeNewItem (player : Guid) (entry : Entry) (item : LootItem) (l : Loot) :
    (storeNewItem player entry item l).unlootedCount = l.unlootedCount := by
  rw [storeNewItem]
  split_ifs
  · rfl
  · rfl

theorem claimed_iff : claimed world l entry = true ↔
    ∃ player ∈ l.allowedLooters, MayTake world l player entry := by
  rw [claimed, any_eq_true]
  simp only [mayTake_iff]

/-- Who takes an item may take it. -/
theorem Taken.mayTake (hfilled : Filled world l)
    (h : Taken world player lootSlot l entry note item) (hlooter : player ∈ l.allowedLooters) :
    MayTake world l player entry := by
  rw [← mayTake_iff, Looting.mayTake, h.lootItem, Option.any_some, h.allowed, Bool.true_and]
  cases hquest : entry.isQuest with
  | false => rfl
  | true =>
    obtain ⟨hbefore, -⟩ := hasNote_storeTaken hfilled h fun _ _ => hlooter
    have hnoting : noting entry item = true := by rw [noting, hquest, Bool.or_true]
    rw [listed, (hbefore hnoting).1]
    rfl

/-- The changes that the counter follows. -/
def countedChanges (world : World) : Changes where
  Takes l player _ _ := player ∈ l.allowedLooters
  Gives l _ entry item := item.isLooted = false ∧ item.freeforall = false ∧
    ∃ player ∈ l.allowedLooters, MayTake world l player entry
  Burns l entry := ∀ item, l.lootItem entry = some item →
    item.isLooted = false ∧ item.freeforall = false

/-- **The counter stays exact.** -/
theorem keeps_tallied (world : World) : Keeps world (Tallied world) (countedChanges world) where
  mark l l' hmarked h := by
    have hleft : l'.unlooted world = l.unlooted world := by
      rw [Loot.unlooted, hmarked.same.claimed, hmarked.remaining, Loot.unlooted]
    refine ⟨?_, hleft ▸ h.small, h.listers_same hmarked.same⟩
    rw [hleft, ← h.count, hmarked.frame]
  take l player lootSlot entry note item hfilled htaken hlooter h :=
    h.lower (Same.storeTaken player entry note item l)
      (remaining_storeTaken hfilled htaken hlooter fun _ =>
        claimed_iff.mpr ⟨player, hlooter, htaken.mayTake hfilled hlooter⟩)
      (unlootedCount_storeTaken player entry note item l)
  give l target entry item hfilled hitem hgives h := by
    obtain ⟨hlooted, hffa, hclaim⟩ := hgives
    refine h.lower (same_given target entry item l)
      (remaining_given hitem hlooted hffa (claimed_iff.mpr hclaim)) ?_
    rw [Loot.countDown]
    rw [unlootedCount_modifyItem, unlootedCount_storeNewItem]
  burn l winner entry hfilled hwinner hmay hburns h := by
    obtain ⟨item, hitem, -⟩ := id hmay
    obtain ⟨hlooted, hffa⟩ := hburns item hitem
    refine h.lower ((@Same.modifyItem _ entry LootItem.loot fun _ => rfl).trans (Same.countDown _))
      (remaining_burnt hitem hlooted hffa (claimed_iff.mpr ⟨winner, hwinner, hmay⟩)) ?_
    rw [Loot.countDown]
    rw [unlootedCount_modifyItem]

/-- **The loot is looted when nobody can take anything more.** -/
theorem Tallied.exact (h : Tallied world l) : Exact world l := by
  refine ⟨h.count, ?_⟩
  have hnone : l.unlootedCount = 0 ↔
      ∀ player ∈ l.allowedLooters, ∀ entry, ¬ CanTake world l player entry := by
    rw [h.count, Loot.unlooted, remaining, Nat.add_eq_zero_iff, countP_eq_zero, countP_eq_zero]
    constructor
    · rintro ⟨hshared, hpairs⟩ player hplayer entry ⟨hmay, hopen⟩
      obtain ⟨item, hitem, -⟩ := mayTake_iff.mp hmay
      have hentry := mem_entries.mpr ⟨item, hitem⟩
      rcases hopen with hopen | hopen
      · refine hshared entry hentry ?_
        rw [hopen, claimed_iff.mpr ⟨player, hplayer, mayTake_iff.mp hmay⟩]
        rfl
      · exact hpairs (player, entry) (pair_mem_product.mpr ⟨hplayer, hentry⟩) hopen
    · intro hno
      refine ⟨fun entry _ hopen => ?_, fun taker htaker hopen => ?_⟩
      · obtain ⟨hshared, hclaim⟩ := Bool.and_eq_true_iff.mp hopen
        obtain ⟨player, hplayer, hmay⟩ := claimed_iff.mp hclaim
        exact hno player hplayer entry ⟨mayTake_iff.mpr hmay, Or.inl hshared⟩
      · obtain ⟨player, entry⟩ := taker
        obtain ⟨hplayer, hentry⟩ := pair_mem_product.mp htaker
        refine hno player hplayer entry ⟨?_, Or.inr hopen⟩
        obtain ⟨item, hitem⟩ := mem_entries.mp hentry
        rw [openFor] at hopen
        rw [hitem, Option.any_some, Bool.and_eq_true] at hopen
        obtain ⟨hffa, hnote⟩ := hopen
        have hlisted : listed l player entry = true := by rw [listed, hnote]; rfl
        rw [mayTake, hitem, Option.any_some,
          h.listers player hplayer entry item hitem hffa hlisted, hlisted, Bool.or_true]
        rfl
  rw [← hnone, Loot.isLooted]
  exact decide_eq_true_iff

end IscServer.Looting
