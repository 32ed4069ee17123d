import IscServer.Loot.LootFill

/-!
# The Run of FillLoot

`FillLoot` generates the items, enters the players one after the other, with currency stored at
once, and sets marks in the end. What is kept when a player is entered and when an item is stored
holds after the run.

## Main results

* `Filling.enter`, `Filling.take` : what is kept while the players are entered.
* `Fills.fillLoot` : the induction over a run of `FillLoot`.
-/

namespace IscServer.Looting

open List

open Run

variable {world : World} {l l' : Loot} {player : Guid} {entry : Entry} {note : Note}
  {item : LootItem}

/-! ### The items that are generated -/

/-- What the template says of an item. -/
def LootItem.kind (item : LootItem) : LootItem :=
  { item.origin with lootListId := 0, allowedGUIDs := [], isCounted := false }

section

variable {other : LootItem}

theorem kind_of_origin (h : other.origin = item.origin) :
    other.kind = item.kind := (congrArg LootItem.kind h :)

section

variable (h : other.kind = item.kind)
include h

theorem freeforall_of_kind :
    other.freeforall = item.freeforall := (congrArg LootItem.freeforall h :)

theorem needsQuest_of_kind :
    other.needsQuest = item.needsQuest := (congrArg LootItem.needsQuest h :)

theorem conditions_of_kind :
    other.conditions = item.conditions := (congrArg LootItem.conditions h :)

theorem allowed_of_kind (player : Guid) (given : Bool) (owner : Option Guid) :
    allowedForPlayer world player given owner other =
      allowedForPlayer world player given owner item :=
  (congrArg (allowedForPlayer world player given owner) h :)

end

end

/-- A quest item. -/
def Entry.isQuest : Entry → Bool
  | .item _ => false
  | .quest _ => true

/-- The item is one of those that have been drawn. -/
def Drawn (world : World) (drop : Drop) (item : LootItem) : Prop :=
  ∃ drawn ∈ drop.items, ∃ proto, world.template drawn.1.itemid = some proto ∧
    item.kind = (LootItem.new drawn.1 proto 0 0).kind

/-- The item that `AddItem` counts: one that is shown and not for all or for some players only. -/
def announced (world : World) (ownerInWorld : Bool) (owner : Guid) (item : LootItem) : Bool :=
  canSeeItemInLootWindow world ownerInWorld { Loot.new 0 with lootOwnerGUID := owner } item &&
    item.conditions.isEmpty && !item.freeforall

/-- An item that has just been generated. -/
structure Fresh (item : LootItem) : Prop where
  notLooted : item.isLooted = false
  notBlocked : item.isBlocked = false
  notCounted : item.isCounted = false
  noLooters : item.allowedGUIDs = []

/-- A loot whose items have been generated. -/
structure Raw (world : World) (drop : Drop) (owner : Guid) (gold : ℕ) (l : Loot) : Prop where
  fresh : ∀ entry item, l.lootItem entry = some item → Fresh item
  drawn : ∀ entry item, l.lootItem entry = some item →
    Drawn world drop item ∧ item.needsQuest = entry.isQuest
  count : Raised (l.items.countP (announced world drop.ownerInWorld owner)) 0 l.unlootedCount
  frame : l = { Loot.new gold with
    items := l.items
    questItems := l.questItems
    unlootedCount := l.unlootedCount
    lootOwnerGUID := owner
    lootMethod := l.lootMethod }

theorem lootItem_append_items {l : Loot} {new : LootItem} {unlootedCount : ℕ}
    (h : Loot.lootItem { l with items := l.items ++ [new], unlootedCount := unlootedCount } entry =
      some item) : l.lootItem entry = some item ∨ entry.isQuest = false ∧ item = new := by
  cases entry with
  | quest index => exact Or.inl h
  | item index =>
    have hget : (l.items ++ [new])[index]? = some item := h
    rw [List.getElem?_append] at hget
    split_ifs at hget with hlt
    · exact Or.inl hget
    · refine Or.inr ⟨rfl, ?_⟩
      exact mem_singleton.mp (mem_of_getElem? hget)

theorem lootItem_append_quest {l : Loot} {new : LootItem}
    (h : Loot.lootItem { l with questItems := l.questItems ++ [new] } entry = some item) :
    l.lootItem entry = some item ∨ entry.isQuest = true ∧ item = new := by
  cases entry with
  | item index => exact Or.inl h
  | quest index =>
    have hget : (l.questItems ++ [new])[index]? = some item := h
    rw [List.getElem?_append] at hget
    split_ifs at hget with hlt
    · exact Or.inl hget
    · refine Or.inr ⟨rfl, ?_⟩
      exact mem_singleton.mp (mem_of_getElem? hget)

section

variable {drop : Drop} {owner : Guid} {gold : ℕ} (h : Raw world drop owner gold l)
  {drawn : LootStoreItem × ℕ} (hdrawn : drawn ∈ drop.items)
include h hdrawn

/-- One round of `AddItem`. -/
theorem Raw.addStack {proto : ItemTemplate}
    (hproto : world.template drawn.1.itemid = some proto) (count : ℕ) :
    Raw world drop owner gold (addStack world drop.ownerInWorld drawn.1 proto count l) := by
  have hnew : ∀ lootListId amount, Drawn world drop (LootItem.new drawn.1 proto lootListId amount) :=
    fun _ _ => ⟨drawn, hdrawn, proto, hproto, rfl⟩
  have howner : l.lootOwnerGUID = owner := by rw [h.frame]
  rw [Looting.addStack]
  by_cases hquest : drawn.1.needsQuest = true
  · simp only [hquest, if_true, not_true_eq_false, false_and, and_false, if_false]
    refine ⟨fun entry item hitem => ?_, fun entry item hitem => ?_, h.count, ?_⟩
    · rcases lootItem_append_quest hitem with hold | ⟨-, rfl⟩
      · exact h.fresh entry item hold
      · exact ⟨rfl, rfl, rfl, rfl⟩
    · rcases lootItem_append_quest hitem with hold | ⟨hentry, rfl⟩
      · exact h.drawn entry item hold
      · exact ⟨hnew _ _, hentry ▸ hquest⟩
    · rw [h.frame]
  · simp only [Bool.eq_false_iff.mpr hquest, Bool.false_eq_true, if_false, not_false_eq_true, true_and]
    generalize hgenerated : LootItem.new drawn.1 proto l.items.length
      (min count proto.maxStackSize % 256) = new
    have hfresh : Fresh new := hgenerated ▸ ⟨rfl, rfl, rfl, rfl⟩
    have hneeds : new.needsQuest = false := hgenerated ▸ Bool.eq_false_iff.mpr hquest
    have hpushed : ∀ unlootedCount,
        Raised (if announced world drop.ownerInWorld owner new then 1 else 0) l.unlootedCount
          unlootedCount →
        Raw world drop owner gold
          { l with items := l.items ++ [new], unlootedCount := unlootedCount } := by
      intro unlootedCount hplus
      refine ⟨fun entry item hitem => ?_, fun entry item hitem => ?_, ?_, ?_⟩
      · rcases lootItem_append_items hitem with hold | ⟨-, rfl⟩
        · exact h.fresh entry item hold
        · exact hfresh
      · rcases lootItem_append_items hitem with hold | ⟨hentry, rfl⟩
        · exact h.drawn entry item hold
        · exact ⟨hgenerated ▸ hnew _ _, hentry ▸ hneeds⟩
      · rw [countP_append, countP_singleton]
        exact h.count.trans hplus
      · rw [h.frame]
    have hannounced : announced world drop.ownerInWorld owner new = true ↔
        canSeeItemInLootWindow world drop.ownerInWorld l new = true ∧
          drawn.1.conditions.isEmpty = true ∧ ¬ proto.multiDrop = true := by
      have hsee : canSeeItemInLootWindow world drop.ownerInWorld l new =
          canSeeItemInLootWindow world drop.ownerInWorld
            { Loot.new 0 with lootOwnerGUID := owner } new := by
        rw [canSeeItemInLootWindow, canSeeItemInLootWindow, howner]
      rw [announced, hsee, ← hgenerated]
      simp [LootItem.new, and_assoc]
    split_ifs with hcounted
    · refine hpushed _ ?_
      rw [if_pos (hannounced.mpr hcounted)]
      exact raised_countUp l
    · refine hpushed _ ?_
      rw [if_neg (hannounced.not.mpr hcounted)]
      exact Raised.zero _

/-- `AddItem`. -/
theorem Raw.addItem :
    Raw world drop owner gold (addItem world drop.ownerInWorld drawn.1 drawn.2 l) := by
  rw [Looting.addItem]
  cases hproto : world.template drawn.1.itemid with
  | none => exact h
  | some proto =>
    have hrounds : ∀ (rounds count : ℕ) (l : Loot), Raw world drop owner gold l →
        Raw world drop owner gold
          (addStacks world drop.ownerInWorld drawn.1 proto rounds count l) := by
      intro rounds
      induction rounds with
      | zero => exact fun _ _ h => h
      | succ rounds ih =>
        intro count l h
        by_cases hroom : if drawn.1.needsQuest = true then l.questItems.length < maxNrQuestItems
            else l.items.length < maxNrLootItems
        · rw [addStacks, if_pos hroom]
          exact ih _ _ (h.addStack hdrawn hproto count)
        · rw [addStacks, if_neg hroom]
          exact h
    exact hrounds _ _ l h

end

/-- The items of a loot that is filled. -/
theorem raw_addItems (world : World) (drop : Drop) (owner : Guid) (gold : ℕ) :
    Raw world drop owner gold (drop.items.foldl
      (fun l drawn => addItem world drop.ownerInWorld drawn.1 drawn.2 l)
      { Loot.new gold with lootOwnerGUID := owner }) := by
  have hempty : Raw world drop owner gold { Loot.new gold with lootOwnerGUID := owner } := by
    have hnone : ∀ entry,
        Loot.lootItem { Loot.new gold with lootOwnerGUID := owner } entry = none := by
      intro entry
      cases entry with
      | item index => rfl
      | quest index => rfl
    refine ⟨fun entry item hitem => ?_, fun entry item hitem => ?_, Raised.zero _, rfl⟩
    · cases (hnone entry).symm.trans hitem
    · cases (hnone entry).symm.trans hitem
  have hrun : ∀ (items : List (LootStoreItem × ℕ)) (l : Loot), (∀ drawn ∈ items, drawn ∈ drop.items) →
      Raw world drop owner gold l → Raw world drop owner gold
        (items.foldl (fun l drawn => Looting.addItem world drop.ownerInWorld drawn.1 drawn.2 l) l) := by
    intro items
    induction items with
    | nil => exact fun _ _ h => h
    | cons drawn items ih =>
      intro l hitems h
      obtain ⟨hdrawn, hitems⟩ := forall_mem_cons.mp hitems
      exact ih _ hitems (h.addItem hdrawn)
  exact hrun drop.items _ (fun _ h => h) hempty

/-! ### The lists of the players -/

theorem indices_notesOf (listed : List ℕ) : indices (some (notesOf listed)) = some listed := by
  rw [indices, Option.map_some, notesOf, map_map]
  exact congrArg some (map_id listed)

section

variable {map : NotNormalLootItemMap} (hnone : map player = none)
include hnone

theorem keepList_notesOf (listed : List ℕ) :
    keepList player (notesOf listed) map player =
      if listed = [] then none else some (notesOf listed) := by
  rw [keepList]
  by_cases hempty : listed = []
  · rw [if_pos hempty, hempty, if_pos (by rfl), hnone]
  · rw [if_neg hempty, if_neg (by simpa [notesOf] using hempty), Function.update_self]

/-- The list that is made for a player. -/
theorem indices_keepList {listed list : List ℕ}
    (h : indices (keepList player (notesOf listed) map player) = some list) : list = listed := by
  rw [keepList_notesOf hnone] at h
  split_ifs at h
  · cases h
  · exact (Option.some.inj ((indices_notesOf listed).symm.trans h)).symm

theorem mem_keepList {listed : List ℕ} {index : ℕ} (h : index ∈ listed) :
    indices (keepList player (notesOf listed) map player) = some listed := by
  rw [keepList_notesOf hnone, if_neg (ne_nil_of_mem h), indices_notesOf]

end

/-! ### Entering a player -/

variable {questListed ffaListed : List ℕ}

/-- The item of an entry after a player has been entered. -/
def LootItem.entered (world : World) (player : Guid) (l : Loot) (questListed : List ℕ) (entry : Entry)
    (item : LootItem) : LootItem :=
  match entry with
  | .item _ => if sharedWants world player l item then item.enterConditional player else item
  | .quest index => if index ∈ questListed then item.enterQuest world player else item

theorem Entered.lootItem (h : Entered world player l l' questListed ffaListed) (entry : Entry) :
    l'.lootItem entry = (l.lootItem entry).map (LootItem.entered world player l questListed entry) := by
  cases entry with
  | item index =>
    rw [Loot.lootItem, h.items, List.getElem?_map]
    rfl
  | quest index => exact h.questItems index

theorem addAllowedLooter_kind (player : Guid) (item : LootItem) :
    (item.addAllowedLooter player).kind = item.kind := by
  rw [LootItem.addAllowedLooter]
  split_ifs
  · rfl
  · rfl

theorem addAllowedLooter_isLooted (player : Guid) (item : LootItem) :
    (item.addAllowedLooter player).isLooted = item.isLooted := by
  rw [LootItem.addAllowedLooter]
  split_ifs
  · rfl
  · rfl

theorem entered_kind (entry : Entry) (item : LootItem) :
    (item.entered world player l questListed entry).kind = item.kind := by
  cases entry with
  | item index =>
    rw [LootItem.entered]
    split_ifs
    · exact addAllowedLooter_kind player item
    · rfl
  | quest index =>
    rw [LootItem.entered]
    split_ifs
    · exact addAllowedLooter_kind player item
    · rfl

theorem entered_isLooted (entry : Entry) (item : LootItem) :
    (item.entered world player l questListed entry).isLooted = item.isLooted := by
  cases entry with
  | item index =>
    rw [LootItem.entered]
    split_ifs
    · exact addAllowedLooter_isLooted player item
    · rfl
  | quest index =>
    rw [LootItem.entered]
    split_ifs
    · exact addAllowedLooter_isLooted player item
    · rfl

/-- Who is entered with an item. -/
theorem mem_entered_allowedGUIDs {guid : Guid}
    (h : guid ∈ (item.entered world player l questListed entry).allowedGUIDs) :
    guid ∈ item.allowedGUIDs ∨
      guid = player ∧ ∀ index, entry = .quest index → index ∈ questListed := by
  have hadded : guid ∈ (item.addAllowedLooter player).allowedGUIDs →
      guid ∈ item.allowedGUIDs ∨ guid = player := by
    intro hguid
    rw [LootItem.addAllowedLooter] at hguid
    split_ifs at hguid
    · exact Or.inl hguid
    · rcases mem_append.mp hguid with hold | hnew
      · exact Or.inl hold
      · exact Or.inr (mem_singleton.mp hnew)
  cases entry with
  | item index =>
    rw [LootItem.entered] at h
    split_ifs at h
    · exact (hadded h).imp_right fun heq => ⟨heq, fun _ hentry => nomatch hentry⟩
    · exact Or.inl h
  | quest index =>
    rw [LootItem.entered] at h
    split_ifs at h with hlisted
    · exact (hadded h).imp_right fun heq =>
        ⟨heq, fun _ hentry => Entry.quest.inj hentry ▸ hlisted⟩
    · exact Or.inl h

/-! ### What is kept while players are entered -/

/-- A loot while the players are entered. -/
structure Filling (world : World) (drop : Drop) (owner : Guid) (l : Loot) : Prop where
  filled : Filled world l
  drawn : ∀ entry item, l.lootItem entry = some item →
    Drawn world drop item ∧ item.needsQuest = entry.isQuest
  owner : l.lootOwnerGUID = owner
  ffaFresh : ∀ entry item, l.lootItem entry = some item → item.freeforall = true →
    item.isLooted = false
  strangers : ∀ guid, guid ∉ l.allowedLooters → Newcomer l guid

/-- An item that needs no quest is not kept for the owner. -/
theorem allowed_of_not_needsQuest (h : item.needsQuest = false) (player : Guid) (given : Bool)
    (owner : Option Guid) : allowedForPlayer world player given owner item =
      allowedForPlayer world player given none item := by
  simp only [allowedForPlayer, h, Bool.false_eq_true, false_and]

theorem Raw.filling {drop : Drop} {owner : Guid} {gold : ℕ} (h : Raw world drop owner gold l) :
    Filling world drop owner l := by
  have hlooters : l.allowedLooters = [] := by rw [h.frame]; rfl
  have hquest : ∀ guid, l.playerQuestItems guid = none := fun guid => by rw [h.frame]; rfl
  have hffa : ∀ guid, l.playerFFAItems guid = none := fun guid => by rw [h.frame]; rfl
  have hnoQuest : ∀ {guid list}, indices (l.playerQuestItems guid) ≠ some list := by
    intro guid list hlist
    rw [hquest] at hlist
    cases hlist
  have hnoFFA : ∀ {guid list}, indices (l.playerFFAItems guid) ≠ some list := by
    intro guid list hlist
    rw [hffa] at hlist
    cases hlist
  refine ⟨⟨hlooters ▸ nodup_nil, fun entry item hitem guid hguid => ?_,
    fun guid hguid => ?_, fun guid list hlist => (hnoQuest hlist).elim,
    fun guid list hlist => (hnoFFA hlist).elim, fun guid list hlist => (hnoQuest hlist).elim,
    fun guid list hlist => (hnoFFA hlist).elim⟩, h.drawn, by rw [h.frame],
    fun entry item hitem _ => (h.fresh entry item hitem).notLooted,
    fun guid hguid => ⟨hguid, hquest guid, hffa guid, by rw [h.frame]; rfl⟩⟩
  · rw [(h.fresh entry item hitem).noLooters] at hguid
    cases hguid
  · rw [hlooters] at hguid
    cases hguid

/-- **A player is entered.** -/
theorem Filling.enter {drop : Drop} {owner : Guid} (h : Filling world drop owner l)
    (hnew : player ∉ l.allowedLooters)
    (hentered : Entered world player l l' questListed ffaListed) : Filling world drop owner l' := by
  obtain ⟨-, hquestNone, hffaNone, hconditionalNone⟩ := h.strangers player hnew
  have hlooters : l'.allowedLooters = l.allowedLooters ++ [player] := by rw [hentered.frame]
  have hquest : l'.playerQuestItems =
      keepList player (notesOf questListed) l.playerQuestItems := by rw [hentered.frame]
  have hffa : l'.playerFFAItems =
      keepList player (notesOf ffaListed) l.playerFFAItems := by rw [hentered.frame]
  have hbefore : ∀ {entry item}, l'.lootItem entry = some item →
      ∃ old, l.lootItem entry = some old ∧
        item = old.entered world player l questListed entry := by
    intro entry item hitem
    rw [hentered.lootItem] at hitem
    obtain ⟨old, hold, rfl⟩ := Option.map_eq_some_iff.mp hitem
    exact ⟨old, hold, rfl⟩
  have hafter : ∀ {entry old}, l.lootItem entry = some old →
      l'.lootItem entry = some (old.entered world player l questListed entry) := by
    intro entry old hold
    rw [hentered.lootItem, hold, Option.map_some]
  refine ⟨⟨?_, fun entry item hitem guid hguid => ?_, fun guid hguid index item hitem hfree hallowed =>
    ?_, fun guid list hlist => ?_, fun guid list hlist => ?_, fun guid list hlist index hindex => ?_,
    fun guid list hlist index hindex => ?_⟩, fun entry item hitem => ?_, ?_,
    fun entry item hitem hfree => ?_, fun guid hguid => ?_⟩
  · rw [hlooters]
    refine nodup_append.mpr ⟨h.filled.nodup, pairwise_singleton _ _, fun a ha b hb heq => ?_⟩
    exact hnew (mem_singleton.mp hb ▸ heq ▸ ha)
  · obtain ⟨old, hold, rfl⟩ := hbefore hitem
    rw [hlooters]
    rcases mem_entered_allowedGUIDs hguid with hguid | ⟨rfl, hlisted⟩
    · obtain ⟨hlooter, hlisted⟩ := h.filled.looters entry old hold guid hguid
      refine ⟨mem_append_left _ hlooter, ?_⟩
      have hne : guid ≠ player := fun heq => hnew (heq ▸ hlooter)
      cases entry with
      | item index => trivial
      | quest index =>
        obtain ⟨list, hlist, hmem⟩ := hlisted
        refine ⟨list, ?_, hmem⟩
        rwa [hquest, keepList_of_ne hne]
    · refine ⟨mem_append_right _ (mem_singleton_self _), ?_⟩
      cases entry with
      | item index => trivial
      | quest index =>
        refine ⟨questListed, ?_, hlisted index rfl⟩
        rw [hquest]
        exact mem_keepList hquestNone (hlisted index rfl)
  · obtain ⟨old, hold, rfl⟩ := hbefore hitem
    have hkind := @entered_kind world l player questListed (.item index) old
    have hfreeOld : old.freeforall = true := (freeforall_of_kind hkind).symm.trans hfree
    rw [allowed_of_kind hkind] at hallowed
    rw [hffa]
    by_cases hguid' : guid = player
    · subst hguid'
      have hwanted : index ∈ ffaListed := by
        refine (hentered.ffaWanted index).mpr ⟨old, hold, ?_⟩
        rw [ffaWants, h.ffaFresh _ old hold hfreeOld, hfreeOld,
          allowed_of_not_needsQuest (h.drawn _ old hold).2, hallowed]
        rfl
      exact ⟨ffaListed, mem_keepList hffaNone hwanted, hwanted⟩
    · rw [keepList_of_ne hguid']
      rw [hlooters] at hguid
      refine h.filled.complete guid ?_ index old hold hfreeOld hallowed
      exact (mem_append.mp hguid).resolve_right fun hno => hguid' (mem_singleton.mp hno)
  · rw [hquest] at hlist
    by_cases hguid : guid = player
    · subst hguid
      exact indices_keepList hquestNone hlist ▸ hentered.questNodup
    · rw [keepList_of_ne hguid] at hlist
      exact h.filled.questNodup guid list hlist
  · rw [hffa] at hlist
    by_cases hguid : guid = player
    · subst hguid
      exact indices_keepList hffaNone hlist ▸ hentered.ffaNodup
    · rw [keepList_of_ne hguid] at hlist
      exact h.filled.ffaNodup guid list hlist
  · rw [hquest] at hlist
    by_cases hguid : guid = player
    · subst hguid
      obtain ⟨old, hold, -⟩ := hentered.questWanted index (indices_keepList hquestNone hlist ▸ hindex)
      exact ⟨_, @hafter (.quest index) old hold⟩
    · rw [keepList_of_ne hguid] at hlist
      obtain ⟨old, hold⟩ := h.filled.questItem guid list hlist index hindex
      exact ⟨_, hafter hold⟩
  · rw [hffa] at hlist
    by_cases hguid : guid = player
    · subst hguid
      obtain ⟨old, hold, hwants⟩ :=
        (hentered.ffaWanted index).mp (indices_keepList hffaNone hlist ▸ hindex)
      refine ⟨_, @hafter (.item index) old hold, (freeforall_of_kind (entered_kind _ _)).trans ?_⟩
      rw [ffaWants, Bool.and_eq_true, Bool.and_eq_true] at hwants
      exact hwants.1.2
    · rw [keepList_of_ne hguid] at hlist
      obtain ⟨old, hold, hfree⟩ := h.filled.ffaItem guid list hlist index hindex
      exact ⟨_, hafter hold, (freeforall_of_kind (entered_kind _ _)).trans hfree⟩
  · obtain ⟨old, hold, rfl⟩ := hbefore hitem
    obtain ⟨⟨drawn, hdrawn, proto, hproto, hkind⟩, hneeds⟩ := h.drawn entry old hold
    exact ⟨⟨drawn, hdrawn, proto, hproto, (entered_kind _ _).trans hkind⟩,
      (needsQuest_of_kind (entered_kind _ _)).trans hneeds⟩
  · rw [hentered.frame]
    exact h.owner
  · obtain ⟨old, hold, rfl⟩ := hbefore hitem
    rw [entered_isLooted]
    exact h.ffaFresh entry old hold ((freeforall_of_kind (entered_kind _ _)).symm.trans hfree)
  · rw [hlooters] at hguid
    have hold : guid ∉ l.allowedLooters := fun hno => hguid (mem_append_left _ hno)
    have hne : guid ≠ player := fun heq =>
      hguid (mem_append_right _ (mem_singleton.mpr heq))
    obtain ⟨-, hquestOld, hffaOld, hconditionalOld⟩ := h.strangers guid hold
    refine ⟨hlooters ▸ hguid, ?_, ?_, ?_⟩
    · rw [hquest, keepList_of_ne hne, hquestOld]
    · rw [hffa, keepList_of_ne hne, hffaOld]
    · rw [hentered.others guid hne, hconditionalOld]

section

variable (player : Guid) (entry : Entry) (note : Note) (item : LootItem) (l : Loot)

/-- Beside the marks, the items, the counter and what is stored change when an item is taken. -/
theorem storeTaken_frame :
    storeTaken player entry note item l = { mark player note l with
      items := (storeTaken player entry note item l).items
      questItems := (storeTaken player entry note item l).questItems
      unlootedCount := (storeTaken player entry note item l).unlootedCount
      stored := (storeTaken player entry note item l).stored } := by
  rw [storeTaken, Loot.countDown, storeNewItem]
  cases entry with
  | item index =>
    split_ifs
    · rfl
    · rfl
  | quest index =>
    split_ifs
    · rfl
    · rfl

theorem lootOwnerGUID_storeTaken :
    (storeTaken player entry note item l).lootOwnerGUID = l.lootOwnerGUID := by
  rw [storeTaken_frame]
  cases note with
  | none | quest _ | ffa _ | conditional _ => rfl

end

/-- The lists of the others are not marked. -/
theorem newcomer_storeTaken {guid : Guid} (hne : guid ≠ player) (h : Newcomer l guid) :
    Newcomer (storeTaken player entry note item l) guid := by
  obtain ⟨hlooter, hquest, hffa, hconditional⟩ := h
  refine ⟨(Same.storeTaken player entry note item l).allowedLooters ▸ hlooter, ?_, ?_, ?_⟩
  · rw [storeTaken_frame]
    cases note with
    | quest position => exact (Function.update_of_ne hne _ _).trans hquest
    | none | ffa _ | conditional _ => exact hquest
  · rw [storeTaken_frame]
    cases note with
    | ffa position => exact (Function.update_of_ne hne _ _).trans hffa
    | none | quest _ | conditional _ => exact hffa
  · rw [storeTaken_frame]
    cases note with
    | conditional position => exact (Function.update_of_ne hne _ _).trans hconditional
    | none | quest _ | ffa _ => exact hconditional

/-- **An item is stored.** -/
theorem Filling.take {drop : Drop} {owner : Guid} (h : Filling world drop owner l)
    (hlooter : player ∈ l.allowedLooters) :
    Filling world drop owner (storeTaken player entry note item l) := by
  have hsame := Same.storeTaken player entry note item l
  refine ⟨h.filled.same hsame, fun other new hnew => ?_, ?_, fun other new hnew hfree => ?_,
    fun guid hguid => ?_⟩
  · obtain ⟨old, hold, horigin⟩ := hsame.before hnew
    obtain ⟨⟨drawn, hdrawn, proto, hproto, hkind⟩, hneeds⟩ := h.drawn other old hold
    exact ⟨⟨drawn, hdrawn, proto, hproto, (kind_of_origin horigin).trans hkind⟩,
      (needsQuest_of_kind (kind_of_origin horigin)).trans hneeds⟩
  · rw [lootOwnerGUID_storeTaken, h.owner]
  · rw [lootItem_storeTaken] at hnew
    split_ifs at hnew with hentry
    · obtain ⟨old, hold, rfl⟩ := Option.map_eq_some_iff.mp hnew
      have hfreeOld : old.freeforall = true :=
        (freeforall_of_origin (take_origin old)).symm.trans hfree
      rw [LootItem.take, if_pos hfreeOld]
      exact h.ffaFresh entry old hold hfreeOld
    · exact h.ffaFresh other new hnew hfree
  · rw [hsame.allowedLooters] at hguid
    exact newcomer_storeTaken (fun heq => hguid (heq ▸ hlooter)) (h.strangers guid hguid)

/-! ### The run -/

/-- The players that are entered. -/
def entrants (world : World) (owner : Guid) (personal : Bool) (drop : Drop) : List Guid :=
  match (world.groupOf owner).filter fun _ => !personal with
  | none => [owner]
  | some group => group.members.filter drop.isAtGroupRewardDistance

theorem entrants_nodup (world : World) (owner : Guid) (personal : Bool) (drop : Drop) :
    (entrants world owner personal drop).Nodup := by
  rw [entrants]
  cases (world.groupOf owner).filter fun _ => !personal with
  | none => exact pairwise_singleton _ _
  | some group => exact group.members_nodup.filter _

/-- A property that is kept when one of these players is entered and when an item is stored. -/
structure Fills (world : World) (drop : Drop) (owner : Guid) (players : List Guid)
    (Inv : Loot → Prop) : Prop where
  enter : ∀ l l' player questListed ffaListed, Filling world drop owner l → player ∈ players →
    player ∉ l.allowedLooters → (∀ looter ∈ l.allowedLooters, looter ∈ players) →
      Entered world player l l' questListed ffaListed → Inv l → Inv l'
  take : ∀ l player lootSlot entry note item, Filling world drop owner l →
    player ∈ l.allowedLooters → Taken world player lootSlot l entry note item → Inv l →
      Inv (storeTaken player entry note item l)

variable {drop : Drop} {owner : Guid} {players : List Guid} {Inv : Loot → Prop}

/-- The currency of a player. -/
theorem Fills.storeCurrency (hfills : Fills world drop owner players Inv)
    (canStoreNewItem : ℕ → Bool) (slots : List ℕ) (hfilling : Filling world drop owner l)
    (hlooter : player ∈ l.allowedLooters) (h : Inv l) :
    Filling world drop owner (slots.foldl (storeCurrency world player canStoreNewItem) l) ∧
      Inv (slots.foldl (storeCurrency world player canStoreNewItem) l) ∧
      (slots.foldl (storeCurrency world player canStoreNewItem) l).allowedLooters =
        l.allowedLooters := by
  induction slots generalizing l with
  | nil => exact ⟨hfilling, h, rfl⟩
  | cons slot slots ih =>
    have hslot : storeCurrency world player canStoreNewItem l slot = l ∨
        ∃ entry note item, Taken world player slot l entry note item ∧
          storeCurrency world player canStoreNewItem l slot =
            storeTaken player entry note item l := by
      rw [Looting.storeCurrency]
      cases l.lootItem (l.entryOf slot) with
      | none => exact Or.inl rfl
      | some item =>
        dsimp only
        split_ifs
        · exact storeLootItem_cases world player slot (canStoreNewItem slot) l
        · exact Or.inl rfl
    rw [foldl_cons]
    rcases hslot with hsame | ⟨entry, note, item, htaken, hstored⟩
    · rw [hsame]
      exact ih hfilling hlooter h
    · rw [hstored]
      have hlooters : (storeTaken player entry note item l).allowedLooters = l.allowedLooters :=
        (Same.storeTaken player entry note item l).allowedLooters
      rw [← hlooters]
      exact ih (hfilling.take hlooter) (hlooters ▸ hlooter)
        (hfills.take l player slot entry note item hfilling hlooter htaken h)

/-- The loop over the players. -/
theorem Fills.loop (hfills : Fills world drop owner players Inv)
    (canStoreNewItem : Guid → ℕ → Bool) {entering : List Guid} (hnodup : entering.Nodup)
    (hentering : ∀ guid ∈ entering, guid ∈ players) (hfilling : Filling world drop owner l)
    (hlooters : ∀ looter ∈ l.allowedLooters, looter ∈ players)
    (hnew : ∀ guid ∈ entering, guid ∉ l.allowedLooters) (h : Inv l) :
    Filling world drop owner (entering.foldl (fillNotNormalLootFor world canStoreNewItem) l) ∧
      Inv (entering.foldl (fillNotNormalLootFor world canStoreNewItem) l) ∧
      (entering.foldl (fillNotNormalLootFor world canStoreNewItem) l).allowedLooters =
        l.allowedLooters ++ entering := by
  induction entering generalizing l with
  | nil => exact ⟨hfilling, h, (append_nil _).symm⟩
  | cons guid entering ih =>
    obtain ⟨hguid, hnodup⟩ := nodup_cons.mp hnodup
    obtain ⟨hplayer, hentering⟩ := forall_mem_cons.mp hentering
    obtain ⟨hstranger, hnew⟩ := forall_mem_cons.mp hnew
    obtain ⟨l', questListed, ffaListed, hentered, hfill⟩ :=
      fillNotNormalLootFor_spec world canStoreNewItem (hfilling.strangers guid hstranger)
    have hlooters' : l'.allowedLooters = l.allowedLooters ++ [guid] := by rw [hentered.frame]
    obtain ⟨hfilling'', hinv'', hlooters''⟩ := hfills.storeCurrency (canStoreNewItem guid)
      (List.range (maxSlotInLootFor guid l')) (hfilling.enter hstranger hentered)
      (hlooters' ▸ mem_append_right _ (mem_singleton_self guid))
      (hfills.enter l l' guid questListed ffaListed hfilling hplayer hstranger hlooters hentered h)
    rw [← hfill, hlooters'] at hlooters''
    rw [← hfill] at hfilling'' hinv''
    have hin : ∀ looter ∈ (fillNotNormalLootFor world canStoreNewItem l guid).allowedLooters,
        looter ∈ players := by
      rw [hlooters'']
      intro looter hlooter
      rcases mem_append.mp hlooter with hold | hself
      · exact hlooters looter hold
      · exact mem_singleton.mp hself ▸ hplayer
    have hout : ∀ other ∈ entering,
        other ∉ (fillNotNormalLootFor world canStoreNewItem l guid).allowedLooters := by
      rw [hlooters'']
      intro other hother hmem
      rcases mem_append.mp hmem with hold | hself
      · exact hnew other hother hold
      · exact hguid (mem_singleton.mp hself ▸ hother)
    obtain ⟨hfilling₃, hinv₃, hlooters₃⟩ := ih hnodup hentering hfilling'' hin hout hinv''
    refine ⟨hfilling₃, hinv₃, ?_⟩
    rw [foldl_cons, hlooters₃, hlooters'', append_assoc, singleton_append]

/-- The marks that are set in the end. -/
theorem processLootItem_unmarked (group : Group) (item : LootItem) :
    (processLootItem world group item).unmarked = item.unmarked := by
  rw [processLootItem.eq_def]
  cases world.template item.itemid with
  | none => rfl
  | some proto =>
    dsimp only
    split_ifs
    · rfl
    · cases group.lootMethod with
      | freeForAll | roundRobin | masterLoot | groupLoot | needBeforeGreed => rfl

theorem Remarked.refl (l : Loot) : Remarked l l := ⟨fun _ => rfl, rfl, rfl, rfl⟩

theorem Remarked.map (l : Loot) {change questChange : LootItem → LootItem}
    (hchange : ∀ item, (change item).unmarked = item.unmarked)
    (hquest : ∀ item, (questChange item).unmarked = item.unmarked) :
    Remarked l { l with
      items := l.items.map change
      questItems := l.questItems.map questChange } := by
  refine ⟨fun entry => ?_, length_map _, length_map _, rfl⟩
  cases entry with
  | item index =>
    change ((l.items.map change)[index]?).map _ = _
    rw [List.getElem?_map, Option.map_map]
    exact congrArg (fun f => (l.items[index]?).map f) (funext hchange)
  | quest index =>
    change ((l.questItems.map questChange)[index]?).map _ = _
    rw [List.getElem?_map, Option.map_map]
    exact congrArg (fun f => (l.questItems[index]?).map f) (funext hquest)

/-- **The induction over `FillLoot`**: what holds once the items are generated and is kept holds
after the players are entered; only marks are set then. -/
theorem Fills.fillLoot {personal : Bool} {gold : ℕ}
    (hfills : Fills world drop owner (entrants world owner personal drop) Inv)
    (hraw : ∀ l, Raw world drop owner gold l → Inv l) :
    ∃ filled, Filling world drop owner filled ∧ Inv filled ∧
      filled.allowedLooters = entrants world owner personal drop ∧
      Remarked filled (fillLoot world owner personal drop gold) := by
  have hloop : ∀ l, Raw world drop owner gold l →
      Filling world drop owner
        ((entrants world owner personal drop).foldl
          (fillNotNormalLootFor world drop.canStoreNewItem) l) ∧
      Inv ((entrants world owner personal drop).foldl
        (fillNotNormalLootFor world drop.canStoreNewItem) l) ∧
      ((entrants world owner personal drop).foldl
        (fillNotNormalLootFor world drop.canStoreNewItem) l).allowedLooters =
          entrants world owner personal drop := by
    intro l h
    have hlooters : l.allowedLooters = [] := by rw [h.frame]; rfl
    obtain ⟨hfilling, hinv, hentered⟩ := hfills.loop drop.canStoreNewItem
      (entrants_nodup world owner personal drop) (fun _ h => h) h.filling
      (by rw [hlooters]; exact fun _ hno => (not_mem_nil hno).elim)
      (by rw [hlooters]; exact fun _ _ => not_mem_nil) (hraw l h)
    rw [hlooters] at hentered
    exact ⟨hfilling, hinv, hentered⟩
  have hdrawn := raw_addItems world drop owner gold
  rw [Looting.fillLoot]
  rw [entrants] at hloop ⊢
  cases hgroup : (world.groupOf owner).filter fun _ => !personal with
  | none =>
    rw [hgroup] at hloop
    obtain ⟨hfilling, hinv, hentered⟩ := hloop _ hdrawn
    exact ⟨_, hfilling, hinv, hentered, Remarked.refl _⟩
  | some group =>
    rw [hgroup] at hloop
    obtain ⟨hfilling, hinv, hentered⟩ := hloop
      { drop.items.foldl (fun l drawn => addItem world drop.ownerInWorld drawn.1 drawn.2 l)
          { Loot.new gold with lootOwnerGUID := owner } with lootMethod := group.lootMethod }
      ⟨fun entry item hitem => hdrawn.fresh entry item hitem,
        fun entry item hitem => hdrawn.drawn entry item hitem, hdrawn.count, by
          rw [hdrawn.frame]⟩
    refine ⟨_, hfilling, hinv, hentered, Remarked.map _ (fun item => ?_) fun item => ?_⟩
    · split_ifs
      · rfl
      · exact processLootItem_unmarked group item
    · split_ifs
      · exact processLootItem_unmarked group item
      · rfl

end IscServer.Looting
