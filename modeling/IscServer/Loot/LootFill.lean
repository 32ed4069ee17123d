import Mathlib.Data.Nat.ModEq
import IscServer.Loot.LootRun

/-!
# Filling a Loot

What each part of `FillLoot` does: the items that are generated, and the three loops that enter a
player with the items. The counter is a `uint8`, so that what is added to it is known modulo 256.

## Main results

* `fillQuestLoot_spec`, `fillFFALoot_spec`, `fillConditional_spec` : the three loops.
-/

namespace IscServer.Looting

open List

open Run

variable {world : World} {l l' : Loot} {player : Guid}

/-- A counter, a `uint8`, has been raised. -/
structure Raised (n count count' : ℕ) : Prop where
  modEq : count' ≡ count + n [MOD 256]
  lt : count < 256 → count' < 256

theorem Raised.zero (count : ℕ) : Raised 0 count count := ⟨Nat.ModEq.refl _, fun hlt => hlt⟩

theorem Raised.trans {m n count count' count'' : ℕ} (h : Raised m count count')
    (h' : Raised n count' count'') : Raised (m + n) count count'' := by
  refine ⟨?_, fun hlt => h'.lt (h.lt hlt)⟩
  rw [← Nat.add_assoc]
  exact h'.modEq.trans (h.modEq.add_right n)

theorem raised_countUp (l : Loot) : Raised 1 l.unlootedCount l.countUp.unlootedCount :=
  ⟨Nat.mod_modEq _ _, fun _ => Nat.mod_lt _ (by decide)⟩

/-- The notes of a list that is made: nothing is looted. -/
def notesOf (listed : List ℕ) : List NotNormalLootItem := listed.map fun index => ⟨index, false⟩

theorem keepList_of_ne {guid : Guid} (h : guid ≠ player) (list : List NotNormalLootItem)
    (map : NotNormalLootItemMap) : keepList player list map guid = map guid := by
  rw [keepList]
  split_ifs
  · rfl
  · exact Function.update_of_ne h _ _

/-! ### Quest items -/

/-- The quest item is entered with the player. -/
def QuestFilled.wants (world : World) (player : Guid) (l : Loot) (index : ℕ) : Prop :=
  ∃ item, l.questItems[index]? = some item ∧ item.isLooted = false ∧
    seesQuestItem world player l item = true

/-- The quest item is counted when a player is entered with it. -/
def questCounts (l : Loot) (index : ℕ) : Bool :=
  (l.questItems[index]?).any fun item => item.freeforall || !item.isBlocked

/-- There is room for all items in the list of a player. -/
def HasRoom (l : Loot) : Prop := l.items.length + l.questItems.length ≤ maxNrLootItems

/-- What `FillQuestLoot` does, with the indices that are listed. -/
structure QuestFilled (world : World) (player : Guid) (l l' : Loot) (listed : List ℕ) : Prop where
  nodup : listed.Nodup
  wanted : ∀ index ∈ listed, QuestFilled.wants world player l index
  complete : HasRoom l → ∀ index, QuestFilled.wants world player l index → index ∈ listed
  questItems : ∀ index, l'.questItems[index]? = (l.questItems[index]?).map fun item =>
    if index ∈ listed then item.enterQuest world player else item
  count : Raised (listed.countP (questCounts l)) l.unlootedCount l'.unlootedCount
  frame : l' = { l with
    questItems := l'.questItems
    unlootedCount := l'.unlootedCount
    playerQuestItems := keepList player (notesOf listed) l.playerQuestItems }

/-- The loop of `FillQuestLoot` after some rounds. -/
structure QuestLoop (world : World) (player : Guid) (l : Loot) (rounds : ℕ)
    (filled : Loot × List NotNormalLootItem) : Prop where
  listed : ∃ listed : List ℕ, filled.2 = notesOf listed ∧ listed.Nodup ∧
    listed.length ≤ rounds ∧
    (∀ index ∈ listed, index < rounds ∧ QuestFilled.wants world player l index) ∧
    (HasRoom l → ∀ index < rounds, QuestFilled.wants world player l index → index ∈ listed) ∧
    (∀ index, filled.1.questItems[index]? = (l.questItems[index]?).map fun item =>
      if index ∈ listed then item.enterQuest world player else item) ∧
    Raised (listed.countP (questCounts l)) l.unlootedCount filled.1.unlootedCount
  frame : filled.1 = { l with
    questItems := filled.1.questItems
    unlootedCount := filled.1.unlootedCount }

variable {rounds : ℕ} {filled : Loot × List NotNormalLootItem}

theorem QuestLoop.round (hrounds : rounds < l.questItems.length)
    (h : QuestLoop world player l rounds filled) :
    QuestLoop world player l (rounds + 1) (fillQuestItem world player filled rounds) := by
  obtain ⟨⟨listed, hnotes, hnodup, hlength, hlisted, hcomplete, hitems, hcount⟩, hframe⟩ := h
  have hnew : rounds ∉ listed := fun hno => absurd (hlisted rounds hno).1 (Nat.lt_irrefl rounds)
  have hskip : (HasRoom l → ¬ QuestFilled.wants world player l rounds) →
      QuestLoop world player l (rounds + 1) filled := by
    intro hno
    refine ⟨⟨listed, hnotes, hnodup, Nat.le_succ_of_le hlength, fun index hindex =>
      ⟨Nat.lt_succ_of_lt (hlisted index hindex).1, (hlisted index hindex).2⟩,
      fun hroom index hindex hwants => ?_, hitems, hcount⟩, hframe⟩
    rcases Nat.lt_succ_iff_lt_or_eq.mp hindex with hlt | rfl
    · exact hcomplete hroom index hlt hwants
    · exact absurd hwants (hno hroom)
  rw [fillQuestItem]
  by_cases hfull : filled.1.items.length + filled.2.length = maxNrLootItems
  · rw [if_pos hfull]
    refine hskip fun hroom => ?_
    have hitemsLength : filled.1.items.length = l.items.length := by rw [hframe]
    rw [hitemsLength, hnotes, notesOf, length_map] at hfull
    rw [HasRoom] at hroom
    omega
  rw [if_neg hfull]
  have hitem := hitems rounds
  cases hold : l.questItems[rounds]? with
  | none =>
    rw [hold, Option.map_none] at hitem
    rw [hitem]
    refine hskip fun _ => ?_
    rintro ⟨item, hitem, -⟩
    rw [hold] at hitem
    cases hitem
  | some item =>
    rw [hold, Option.map_some, if_neg hnew] at hitem
    rw [hitem]
    dsimp only
    have hsees : seesQuestItem world player filled.1 item = seesQuestItem world player l item := by
      rw [hframe]
      rfl
    by_cases hwants : ¬ item.isLooted = true ∧ seesQuestItem world player filled.1 item = true
    swap
    · rw [if_neg hwants]
      refine hskip fun _ => ?_
      rintro ⟨other, hother, hlooted, hseen⟩
      obtain rfl := Option.some.inj (hold.symm.trans hother)
      exact hwants ⟨Bool.eq_false_iff.mp hlooted, hsees.trans hseen⟩
    rw [if_pos hwants]
    obtain ⟨hlooted, hseen⟩ := hwants
    have hcounts : questCounts l rounds = (item.freeforall || !item.isBlocked) := by
      rw [questCounts, hold, Option.any_some]
    have hentered : ∀ counted : Loot,
        counted = { filled.1 with unlootedCount := counted.unlootedCount } →
        Raised (if questCounts l rounds then 1 else 0) filled.1.unlootedCount
          counted.unlootedCount →
        QuestLoop world player l (rounds + 1)
          (counted.modifyItem (.quest rounds) (LootItem.enterQuest world player),
            filled.2 ++ [⟨rounds, false⟩]) := by
      intro counted hcounted hplus
      refine ⟨⟨listed ++ [rounds], ?_, ?_, ?_, fun index hindex => ?_,
        fun hroom index hindex hwants => ?_, fun index => ?_, ?_⟩, ?_⟩
      · rw [hnotes, notesOf, notesOf, map_append]
        rfl
      · exact nodup_append.mpr ⟨hnodup, pairwise_singleton _ _, fun a ha b hb =>
          fun heq => hnew (mem_singleton.mp hb ▸ heq ▸ ha)⟩
      · rw [length_append]
        exact Nat.add_le_add_right hlength 1
      · rcases mem_append.mp hindex with hindex | hindex
        · exact ⟨Nat.lt_succ_of_lt (hlisted index hindex).1, (hlisted index hindex).2⟩
        · obtain rfl := mem_singleton.mp hindex
          exact ⟨Nat.lt_succ_self _, item, hold, Bool.not_eq_true _ ▸ hlooted, hsees ▸ hseen⟩
      · rcases Nat.lt_succ_iff_lt_or_eq.mp hindex with hlt | rfl
        · exact mem_append_left _ (hcomplete hroom index hlt hwants)
        · exact mem_append_right _ (mem_singleton_self _)
      · rw [hcounted]
        change (filled.1.questItems.modify rounds _)[index]? = _
        by_cases hindex : rounds = index
        · subst hindex
          rw [List.getElem?_modify_eq, hitem, hold]
          simp
        · rw [List.getElem?_modify_ne _ _ hindex, hitems index]
          simp [Ne.symm hindex]
      · rw [countP_append, countP_singleton]
        exact hcount.trans hplus
      · rw [hcounted, Loot.modifyItem]
        rw [hframe]
    by_cases hcounted : item.freeforall = true ∨ ¬ item.isBlocked = true
    · have htrue : questCounts l rounds = true := by rw [hcounts]; simpa using hcounted
      rw [if_pos hcounted]
      refine hentered _ rfl ?_
      rw [htrue, if_pos rfl]
      exact raised_countUp filled.1
    · have hfalse : questCounts l rounds = false := by rw [hcounts]; simpa using hcounted
      rw [if_neg hcounted]
      refine hentered _ rfl ?_
      rw [hfalse, if_neg Bool.false_ne_true]
      exact Raised.zero _

/-- **`FillQuestLoot`** enters the player with some of the quest items that the player sees. -/
theorem fillQuestLoot_spec (world : World) (player : Guid) (l : Loot) :
    ∃ listed, QuestFilled world player l (fillQuestLoot world player l) listed := by
  have hstart : QuestLoop world player l 0 (l, []) :=
    ⟨⟨[], rfl, nodup_nil, Nat.le_refl 0, fun _ hno => (not_mem_nil hno).elim,
      fun _ _ hno => absurd hno (Nat.not_lt_zero _), fun index => by simp, Raised.zero _⟩, rfl⟩
  rw [fillQuestLoot]
  by_cases hfull : l.items.length = maxNrLootItems
  · rw [if_pos hfull]
    refine ⟨[], nodup_nil, fun _ hno => (not_mem_nil hno).elim, fun hroom index hwants => ?_,
      fun index => by simp, Raised.zero _, rfl⟩
    obtain ⟨item, hitem, -⟩ := hwants
    obtain ⟨hlt, -⟩ := List.getElem?_eq_some_iff.mp hitem
    rw [HasRoom] at hroom
    omega
  rw [if_neg hfull]
  obtain ⟨⟨listed, hnotes, hnodup, -, hlisted, hcomplete, hitems, hcount⟩, hframe⟩ :=
    foldl_range (QuestLoop world player l) l.questItems.length hstart
      fun rounds hrounds _ h => h.round hrounds
  refine ⟨listed, hnodup, fun index hindex => (hlisted index hindex).2,
    fun hroom index hwants => ?_, hitems, hcount, ?_⟩
  · obtain ⟨item, hitem, hrest⟩ := hwants
    exact hcomplete hroom index (List.getElem?_eq_some_iff.mp hitem).1 ⟨item, hitem, hrest⟩
  · dsimp only
    rw [hnotes, hframe]

/-! ### Items that are free for all -/

/-- The item is free for all and the player may take it. -/
def ffaWants (world : World) (player : Guid) (l : Loot) (item : LootItem) : Bool :=
  !item.isLooted && item.freeforall && allowedForPlayer world player false (some l.lootOwnerGUID) item

/-- What `FillFFALoot` does, with the indices that are listed. -/
structure FFAFilled (world : World) (player : Guid) (l l' : Loot) (listed : List ℕ) : Prop where
  nodup : listed.Nodup
  wanted : ∀ index, index ∈ listed ↔
    ∃ item, l.items[index]? = some item ∧ ffaWants world player l item = true
  count : Raised listed.length l.unlootedCount l'.unlootedCount
  frame : l' = { l with
    unlootedCount := l'.unlootedCount
    playerFFAItems := keepList player (notesOf listed) l.playerFFAItems }

/-- The loop of `FillFFALoot` after some rounds. -/
structure FFALoop (world : World) (player : Guid) (l : Loot) (rounds : ℕ)
    (filled : Loot × List NotNormalLootItem) : Prop where
  listed : ∃ listed : List ℕ, filled.2 = notesOf listed ∧ listed.Nodup ∧
    (∀ index, index ∈ listed ↔ index < rounds ∧
      ∃ item, l.items[index]? = some item ∧ ffaWants world player l item = true) ∧
    Raised listed.length l.unlootedCount filled.1.unlootedCount
  frame : filled.1 = { l with unlootedCount := filled.1.unlootedCount }

theorem FFALoop.round (h : FFALoop world player l rounds filled) :
    FFALoop world player l (rounds + 1) (fillFFAItem world player filled rounds) := by
  obtain ⟨⟨listed, hnotes, hnodup, hlisted, hcount⟩, hframe⟩ := h
  have hskip : (¬ ∃ item, l.items[rounds]? = some item ∧ ffaWants world player l item = true) →
      FFALoop world player l (rounds + 1) filled := by
    intro hno
    refine ⟨⟨listed, hnotes, hnodup, fun index => ?_, hcount⟩, hframe⟩
    rw [hlisted]
    constructor
    · rintro ⟨hlt, hwants⟩
      exact ⟨Nat.lt_succ_of_lt hlt, hwants⟩
    · rintro ⟨hlt, hwants⟩
      refine ⟨(Nat.lt_succ_iff_lt_or_eq.mp hlt).resolve_right fun heq => ?_, hwants⟩
      exact hno (heq ▸ hwants)
  have hitems : filled.1.items = l.items := by rw [hframe]
  rw [fillFFAItem, hitems]
  cases hold : l.items[rounds]? with
  | none =>
    refine hskip ?_
    rintro ⟨item, hitem, -⟩
    rw [hold] at hitem
    cases hitem
  | some item =>
    dsimp only
    have howner : filled.1.lootOwnerGUID = l.lootOwnerGUID := by rw [hframe]
    by_cases hwants : ¬ item.isLooted = true ∧ item.freeforall = true ∧
        allowedForPlayer world player false (some filled.1.lootOwnerGUID) item = true
    · rw [if_pos hwants]
      have hwanted : ffaWants world player l item = true := by
        rw [howner] at hwants
        simpa [ffaWants, and_assoc] using hwants
      refine ⟨⟨listed ++ [rounds], ?_, ?_, fun index => ?_, ?_⟩, ?_⟩
      · rw [hnotes, notesOf, notesOf, map_append]
        rfl
      · refine nodup_append.mpr ⟨hnodup, pairwise_singleton _ _, fun a ha b hb heq => ?_⟩
        obtain rfl := mem_singleton.mp hb
        exact absurd ((hlisted a).mp ha).1 (heq ▸ Nat.lt_irrefl _)
      · rw [mem_append, mem_singleton, hlisted]
        constructor
        · rintro (⟨hlt, hindex⟩ | rfl)
          · exact ⟨Nat.lt_succ_of_lt hlt, hindex⟩
          · exact ⟨Nat.lt_succ_self _, item, hold, hwanted⟩
        · rintro ⟨hlt, hindex⟩
          rcases Nat.lt_succ_iff_lt_or_eq.mp hlt with hlt | heq
          · exact Or.inl ⟨hlt, hindex⟩
          · exact Or.inr heq
      · rw [length_append, length_singleton]
        exact hcount.trans (raised_countUp filled.1)
      · rw [Loot.countUp]
        rw [hframe]
    · rw [if_neg hwants]
      refine hskip ?_
      rintro ⟨other, hother, hwanted⟩
      obtain rfl := Option.some.inj (hold.symm.trans hother)
      refine hwants ?_
      rw [howner]
      simpa [ffaWants, and_assoc] using hwanted

/-- **`FillFFALoot`** enters the player with all items that are free for all and may be taken. -/
theorem fillFFALoot_spec (world : World) (player : Guid) (l : Loot) :
    ∃ listed, FFAFilled world player l (fillFFALoot world player l) listed := by
  have hstart : FFALoop world player l 0 (l, []) :=
    ⟨⟨[], rfl, nodup_nil, fun index => by simp, Raised.zero _⟩, rfl⟩
  obtain ⟨⟨listed, hnotes, hnodup, hlisted, hcount⟩, hframe⟩ :=
    foldl_range (FFALoop world player l) l.items.length hstart fun _ _ _ h => h.round
  refine ⟨listed, hnodup, fun index => ?_, hcount, ?_⟩
  · rw [hlisted]
    refine ⟨And.right, fun hwants => ⟨?_, hwants⟩⟩
    obtain ⟨item, hitem, -⟩ := hwants
    exact (List.getElem?_eq_some_iff.mp hitem).1
  · rw [fillFFALoot]
    rw [hnotes, hframe]

/-! ### Items with conditions -/

/-- The item is for one player and the player may take it. -/
def sharedWants (world : World) (player : Guid) (l : Loot) (item : LootItem) : Bool :=
  !item.isLooted && !item.freeforall &&
    allowedForPlayer world player false (some l.lootOwnerGUID) item

/-- An item with conditions is counted when the first player is entered with it. -/
def conditionalCounts (world : World) (player : Guid) (l : Loot) (item : LootItem) : Bool :=
  sharedWants world player l item && !item.conditions.isEmpty && !item.isCounted

/-- What `FillNonQuestNonFFAConditionalLoot` does. -/
structure ConditionalFilled (world : World) (player : Guid) (l l' : Loot) : Prop where
  items : l'.items = l.items.map fun item =>
    if sharedWants world player l item then item.enterConditional player else item
  count : Raised (l.items.countP (conditionalCounts world player l)) l.unlootedCount
    l'.unlootedCount
  others : ∀ guid, guid ≠ player → l'.playerNonQuestNonFFAConditionalItems guid =
    l.playerNonQuestNonFFAConditionalItems guid
  frame : l' = { l with
    items := l'.items
    unlootedCount := l'.unlootedCount
    playerNonQuestNonFFAConditionalItems := l'.playerNonQuestNonFFAConditionalItems }

/-- The loop of `FillNonQuestNonFFAConditionalLoot` after some rounds. -/
structure ConditionalLoop (world : World) (player : Guid) (l : Loot) (rounds : ℕ)
    (filled : Loot × List NotNormalLootItem) : Prop where
  items : ∀ index, filled.1.items[index]? = (l.items[index]?).map fun item =>
    if index < rounds ∧ sharedWants world player l item then item.enterConditional player else item
  count : Raised ((l.items.take rounds).countP (conditionalCounts world player l)) l.unlootedCount
    filled.1.unlootedCount
  frame : filled.1 = { l with items := filled.1.items, unlootedCount := filled.1.unlootedCount }

theorem ConditionalLoop.round (hrounds : rounds < l.items.length)
    (h : ConditionalLoop world player l rounds filled) :
    ConditionalLoop world player l (rounds + 1) (fillConditionalItem world player filled rounds) := by
  obtain ⟨hitems, hcount, hframe⟩ := h
  have howner : filled.1.lootOwnerGUID = l.lootOwnerGUID := by rw [hframe]
  have hold : l.items[rounds]? = some l.items[rounds] := List.getElem?_eq_getElem hrounds
  have hitem := hitems rounds
  generalize hread : l.items[rounds] = item at hold
  rw [hold, Option.map_some, if_neg fun hno => absurd hno.1 (Nat.lt_irrefl _)] at hitem
  have htake : (l.items.take (rounds + 1)).countP (conditionalCounts world player l) =
      (l.items.take rounds).countP (conditionalCounts world player l) +
        if conditionalCounts world player l item then 1 else 0 := by
    rw [take_succ_eq_append_getElem hrounds, countP_append, countP_singleton, hread]
  rw [fillConditionalItem, hitem]
  dsimp only
  have hiff : (¬ item.isLooted = true ∧ ¬ item.freeforall = true ∧
      allowedForPlayer world player false (some filled.1.lootOwnerGUID) item = true) ↔
        sharedWants world player l item = true := by
    rw [howner, sharedWants]
    simp [and_assoc]
  by_cases hwants : sharedWants world player l item = true
  swap
  · rw [if_neg (hiff.not.mpr hwants)]
    have hcounts : conditionalCounts world player l item = false := by
      rw [conditionalCounts, Bool.eq_false_iff.mpr hwants]
      rfl
    refine ⟨fun index => ?_, ?_, hframe⟩
    · rw [hitems]
      by_cases hindex : index = rounds
      · subst hindex
        simp [hold, hwants]
      · have hlt : index < rounds + 1 ↔ index < rounds := by omega
        simp only [hlt]
    · rw [htake, hcounts]
      exact hcount
  rw [if_pos (hiff.mpr hwants)]
  have hentered : ∀ (counted : Loot) (list : List NotNormalLootItem),
      counted = { filled.1 with
        items := filled.1.items.modify rounds (LootItem.enterConditional player)
        unlootedCount := counted.unlootedCount } →
      Raised (if conditionalCounts world player l item then 1 else 0) filled.1.unlootedCount
        counted.unlootedCount →
      ConditionalLoop world player l (rounds + 1) (counted, list) := by
    intro counted list hcounted hplus
    refine ⟨fun index => ?_, ?_, ?_⟩
    · rw [hcounted]
      by_cases hindex : rounds = index
      · subst hindex
        rw [List.getElem?_modify_eq, hitem, hold]
        simp [hwants]
      · have hlt : index < rounds + 1 ↔ index < rounds := by omega
        rw [List.getElem?_modify_ne _ _ hindex, hitems]
        simp only [hlt]
    · rw [htake]
      exact hcount.trans hplus
    · rw [hcounted]
      rw [hframe]
  by_cases hempty : item.conditions.isEmpty = true
  · rw [if_pos hempty]
    refine hentered _ _ rfl ?_
    have hcounts : conditionalCounts world player l item = false := by
      rw [conditionalCounts, hempty]
      simp
    rw [hcounts]
    exact Raised.zero _
  rw [if_neg hempty]
  by_cases hcounted : item.isCounted = true
  · rw [if_pos hcounted]
    refine hentered _ _ rfl ?_
    have hcounts : conditionalCounts world player l item = false := by
      rw [conditionalCounts, hcounted]
      simp
    rw [hcounts]
    exact Raised.zero _
  · rw [if_neg hcounted]
    refine hentered _ _ rfl ?_
    have hcounts : conditionalCounts world player l item = true := by
      rw [conditionalCounts, hwants, Bool.eq_false_iff.mpr hcounted, Bool.eq_false_iff.mpr hempty]
      rfl
    rw [hcounts, if_pos rfl]
    exact raised_countUp _

/-- **`FillNonQuestNonFFAConditionalLoot`** enters the player with all items for one player that may
be taken. -/
theorem fillConditional_spec (world : World) (player : Guid) (l : Loot) :
    ConditionalFilled world player l (fillNonQuestNonFFAConditionalLoot world player l) := by
  have hstart : ConditionalLoop world player l 0 (l, []) :=
    ⟨fun index => by simp, Raised.zero _, rfl⟩
  obtain ⟨hitems, hcount, hframe⟩ :=
    foldl_range (ConditionalLoop world player l) l.items.length hstart
      fun rounds hrounds _ h => h.round hrounds
  refine ⟨ext_getElem? fun index => ?_, ?_, fun guid hguid => ?_, ?_⟩
  · rw [fillNonQuestNonFFAConditionalLoot]
    rw [hitems, List.getElem?_map]
    cases hitem : l.items[index]? with
    | none => rfl
    | some item =>
      have hlt := (List.getElem?_eq_some_iff.mp hitem).1
      simp [hlt]
  · rw [take_length] at hcount
    exact hcount
  · rw [fillNonQuestNonFFAConditionalLoot]
    dsimp only
    rw [keepList_of_ne hguid, hframe]
  · rw [fillNonQuestNonFFAConditionalLoot]
    rw [hframe]

/-! ### One player -/

/-- What `FillNotNormalLootFor` does for a new player before it stores currency: with the quest items
and the items free for all that are listed. -/
structure Entered (world : World) (player : Guid) (l l' : Loot) (questListed ffaListed : List ℕ) :
    Prop where
  questNodup : questListed.Nodup
  questWanted : ∀ index ∈ questListed, QuestFilled.wants world player l index
  questComplete : HasRoom l → ∀ index, QuestFilled.wants world player l index → index ∈ questListed
  ffaNodup : ffaListed.Nodup
  ffaWanted : ∀ index, index ∈ ffaListed ↔
    ∃ item, l.items[index]? = some item ∧ ffaWants world player l item = true
  items : l'.items = l.items.map fun item =>
    if sharedWants world player l item then item.enterConditional player else item
  questItems : ∀ index, l'.questItems[index]? = (l.questItems[index]?).map fun item =>
    if index ∈ questListed then item.enterQuest world player else item
  count : Raised (questListed.countP (questCounts l) + ffaListed.length +
    l.items.countP (conditionalCounts world player l)) l.unlootedCount l'.unlootedCount
  others : ∀ guid, guid ≠ player → l'.playerNonQuestNonFFAConditionalItems guid =
    l.playerNonQuestNonFFAConditionalItems guid
  frame : l' = { l with
    items := l'.items
    questItems := l'.questItems
    unlootedCount := l'.unlootedCount
    allowedLooters := l.allowedLooters ++ [player]
    playerQuestItems := keepList player (notesOf questListed) l.playerQuestItems
    playerFFAItems := keepList player (notesOf ffaListed) l.playerFFAItems
    playerNonQuestNonFFAConditionalItems := l'.playerNonQuestNonFFAConditionalItems }

/-- No list has been made for the player. -/
structure Newcomer (l : Loot) (player : Guid) : Prop where
  looter : player ∉ l.allowedLooters
  quest : l.playerQuestItems player = none
  ffa : l.playerFFAItems player = none
  conditional : l.playerNonQuestNonFFAConditionalItems player = none

/-- **`FillNotNormalLootFor`** enters a new player, and then stores currency. -/
theorem fillNotNormalLootFor_spec (world : World) (canStoreNewItem : Guid → ℕ → Bool)
    (h : Newcomer l player) : ∃ l' questListed ffaListed,
      Entered world player l l' questListed ffaListed ∧
      fillNotNormalLootFor world canStoreNewItem l player =
        (List.range (maxSlotInLootFor player l')).foldl
          (storeCurrency world player (canStoreNewItem player)) l' := by
  have hallowed : (if player ∈ l.allowedLooters then l
      else { l with allowedLooters := l.allowedLooters ++ [player] }) =
        { l with allowedLooters := l.allowedLooters ++ [player] } := if_neg h.looter
  obtain ⟨questListed, hquest⟩ := fillQuestLoot_spec world player
    { l with allowedLooters := l.allowedLooters ++ [player] }
  generalize hl₂ : fillQuestLoot world player
    { l with allowedLooters := l.allowedLooters ++ [player] } = l₂ at hquest
  obtain ⟨ffaListed, hffa⟩ := fillFFALoot_spec world player l₂
  generalize hl₃ : fillFFALoot world player l₂ = l₃ at hffa
  have hconditional := fillConditional_spec world player l₃
  generalize hl₄ : fillNonQuestNonFFAConditionalLoot world player l₃ = l₄ at hconditional
  have hitems₂ : l₂.items = l.items := by rw [hquest.frame]
  have howner₂ : l₂.lootOwnerGUID = l.lootOwnerGUID := by rw [hquest.frame]
  have hitems₃ : l₃.items = l.items := by rw [hffa.frame]; exact hitems₂
  have howner₃ : l₃.lootOwnerGUID = l.lootOwnerGUID := by rw [hffa.frame]; exact howner₂
  have hshared : sharedWants world player l₃ = sharedWants world player l := by
    funext item
    rw [sharedWants, sharedWants, howner₃]
  have hcounts : conditionalCounts world player l₃ = conditionalCounts world player l := by
    funext item
    rw [conditionalCounts, conditionalCounts, hshared]
  have hffaWants : ffaWants world player l₂ = ffaWants world player l := by
    funext item
    rw [ffaWants, ffaWants, howner₂]
  refine ⟨l₄, questListed, ffaListed, ⟨hquest.nodup, hquest.wanted, hquest.complete, hffa.nodup, fun index => ?_, ?_,
    fun index => ?_, ?_, fun guid hguid => ?_, ?_⟩, ?_⟩
  · rw [hffa.wanted, hitems₂, hffaWants]
  · rw [hconditional.items, hshared, hitems₃]
  · have hquest₄ : l₄.questItems = l₂.questItems := by rw [hconditional.frame, hffa.frame]
    rw [hquest₄, hquest.questItems]
  · have hcount := hconditional.count
    rw [hcounts, hitems₃] at hcount
    exact (hquest.count.trans hffa.count).trans hcount
  · rw [hconditional.others guid hguid, hffa.frame]
    rw [hquest.frame]
  · have hquest₄ : l₄.questItems = l₂.questItems := by rw [hconditional.frame, hffa.frame]
    rw [hquest₄]
    conv_lhs => rw [hconditional.frame, hffa.frame, hquest.frame]
  · have hffaNone : l₂.playerFFAItems player = none := by
      rw [hquest.frame]
      exact h.ffa
    have hconditionalNone : l₃.playerNonQuestNonFFAConditionalItems player = none := by
      rw [hffa.frame]
      rw [hquest.frame]
      exact h.conditional
    simp only [fillNotNormalLootFor, hallowed, h.quest, Option.isNone_none, if_true, hl₂, hffaNone,
      hl₃, hconditionalNone, hl₄]

end IscServer.Looting
