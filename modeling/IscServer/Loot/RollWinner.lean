import Mathlib.Data.List.MinMax
import Mathlib.Data.Prod.Lex
import IscServer.Library.Run
import IscServer.Loot.LootItems

/-!
# The Winner of a Roll

One roll from its start to its end: the packets of the clients that vote, and the updates of the
loot. What counts is a **ballot**, the first vote of a player who has been asked.

* The scan of `AllPlayerVoted` finds the ballot of highest priority, need before the rest and then
  the number (`allPlayerVoted_winner`).
* `PlayerVote` does not look at the mask that `SendStartRoll` has sent. A client can win with a vote
  that was not offered (`unoffered_won`).

## Main results

* `Counted.run` : the vote map holds exactly the ballots of the run, one for each player.
* `roll_won` : who wins, and that the vote was offered if all ballots were.
-/

namespace IscServer.Looting

open List

open Run

/-! ### The best ballot -/

/-- Need comes first, then the higher number. -/
def priority (ballot : Guid × PlayerRollVote) : ℕ ×ₗ ℕ :=
  toLex (if ballot.2.vote = .need then 1 else 0, ballot.2.rollNumber)

/-- What the scan has found: the first ballot of highest priority. -/
structure Scan.Sound (scan : Scan) : Prop where
  need : scan.isSomeoneNeed = scan.winner.any fun winner => winner.2.vote = .need
  wants : ∀ winner, scan.winner = some winner → winner.2.vote.wants = true

theorem priority_lt_iff {ballot other : Guid × PlayerRollVote} :
    priority other < priority ballot ↔
      ballot.2.vote = .need ∧ other.2.vote ≠ .need ∨
        (ballot.2.vote = .need ↔ other.2.vote = .need) ∧
          other.2.rollNumber < ballot.2.rollNumber := by
  rw [priority, priority, Prod.Lex.toLex_lt_toLex]
  by_cases hballot : ballot.2.vote = .need
  · by_cases hother : other.2.vote = .need
    · simp [hballot]
    · simp [hballot]
  · by_cases hother : other.2.vote = .need
    · simp [hballot]
    · simp [hballot]

variable {entry : Guid × PlayerRollVote}

theorem Scan.visit_need (scan : Scan) (h : entry.2.vote = .need) :
    scan.visit entry =
      if ¬ scan.isSomeoneNeed ∨
          scan.winner.all fun winner => winner.2.rollNumber < entry.2.rollNumber then
        { scan with isSomeoneNeed := true, winner := some entry }
      else scan := by
  rw [Scan.visit, h]

theorem Scan.visit_wants (scan : Scan) (h : entry.2.vote = .greed ∨ entry.2.vote = .disenchant) :
    scan.visit entry =
      if ¬ scan.isSomeoneNeed ∧
          scan.winner.all fun winner => winner.2.rollNumber < entry.2.rollNumber then
        { scan with winner := some entry }
      else scan := by
  rcases h with h | h
  · rw [Scan.visit, h]
  · rw [Scan.visit, h]

/-- One step of the scan keeps the better of two ballots. -/
theorem Scan.Sound.visit {scan : Scan} (h : scan.Sound) (entry : Guid × PlayerRollVote) :
    (scan.visit entry).Sound ∧
      (scan.visit entry).winner =
        if entry.2.vote.wants then
          List.argAux (fun b c => priority c < priority b) scan.winner entry
        else scan.winner := by
  have hneed := h.need
  have hwants := h.wants
  obtain ⟨guid, vote, number⟩ := entry
  obtain ⟨notVoted, isSomeoneNeed, winner⟩ := scan
  dsimp only at hneed hwants
  cases winner with
  | none =>
    subst hneed
    cases vote with
    | need | greed | disenchant => exact ⟨⟨rfl, fun w hw => Option.some.inj hw ▸ rfl⟩, rfl⟩
    | notEmitedYet => exact ⟨⟨rfl, hwants⟩, rfl⟩
    | pass | notValid => exact ⟨h, rfl⟩
  | some winner =>
    rw [Option.any_some] at hneed
    subst hneed
    cases vote with
    | notEmitedYet => exact ⟨⟨rfl, hwants⟩, rfl⟩
    | pass | notValid => exact ⟨h, rfl⟩
    | need =>
      have hiff : priority winner < priority (guid, ⟨.need, number⟩) ↔
          ¬ decide (winner.2.vote = .need) = true ∨
            decide (winner.2.rollNumber < number) = true := by
        rw [priority_lt_iff]
        by_cases hw : winner.2.vote = .need
        · simp [hw]
        · simp [hw]
      rw [Scan.visit_need _ rfl]
      dsimp only [Option.all_some]
      by_cases hlt : priority winner < priority (guid, ⟨.need, number⟩)
      · rw [if_pos (hiff.mp hlt)]
        exact ⟨⟨rfl, fun w hw => Option.some.inj hw ▸ rfl⟩, (if_pos hlt).symm⟩
      · rw [if_neg fun hno => hlt (hiff.mpr hno)]
        exact ⟨h, (if_neg hlt).symm⟩
    | greed | disenchant =>
      have hiff : ∀ vote, vote ≠ RollVote.need →
          (priority winner < priority (guid, ⟨vote, number⟩) ↔
            ¬ decide (winner.2.vote = .need) = true ∧
              decide (winner.2.rollNumber < number) = true) := by
        intro vote hvote
        rw [priority_lt_iff]
        by_cases hw : winner.2.vote = .need
        · simp [hvote]
        · simp [hvote]
      rw [Scan.visit_wants _ (by simp)]
      dsimp only [Option.all_some]
      by_cases hlt : ¬ decide (winner.2.vote = .need) = true ∧
          decide (winner.2.rollNumber < number) = true
      · rw [if_pos hlt]
        refine ⟨⟨?_, fun w hw => Option.some.inj hw ▸ rfl⟩,
          (if_pos ((hiff _ (by decide)).mpr hlt)).symm⟩
        exact Bool.eq_false_iff.mpr hlt.1
      · rw [if_neg hlt]
        exact ⟨h, (if_neg fun hno => hlt ((hiff _ (by decide)).mp hno)).symm⟩

theorem Scan.Sound.foldl {scan : Scan} (h : scan.Sound) (entries : List (Guid × PlayerRollVote)) :
    (entries.foldl Scan.visit scan).winner =
      (entries.filter fun entry => entry.2.vote.wants).foldl
        (List.argAux fun b c => priority c < priority b) scan.winner := by
  induction entries generalizing scan with
  | nil => rfl
  | cons entry entries ih =>
    obtain ⟨hsound, hwinner⟩ := h.visit entry
    rw [foldl_cons, ih hsound, hwinner, filter_cons]
    split_ifs
    · rfl
    · rfl

/-- **The scan finds the best ballot**, the first one of highest priority. -/
theorem allPlayerVoted_winner (roll : LootRoll) :
    roll.allPlayerVoted.2 =
      (roll.rollVoteMap.filter fun entry => entry.2.vote.wants).argmax priority := by
  have hstart : Scan.Sound ⟨0, false, none⟩ := ⟨rfl, fun w hw => by cases hw⟩
  exact hstart.foldl roll.rollVoteMap

/-- The best of the ballots: the highest number among those for need if there are any, else among
all that are for the item. -/
structure Best (cast : List (Guid × PlayerRollVote)) (winner : Guid × PlayerRollVote) : Prop where
  mem : winner ∈ cast
  wants : winner.2.vote.wants = true
  need : (∃ ballot ∈ cast, ballot.2.vote = .need) → winner.2.vote = .need ∧
    ∀ ballot ∈ cast, ballot.2.vote = .need → ballot.2.rollNumber ≤ winner.2.rollNumber
  rest : (∀ ballot ∈ cast, ballot.2.vote ≠ .need) →
    ∀ ballot ∈ cast, ballot.2.vote.wants = true → ballot.2.rollNumber ≤ winner.2.rollNumber

variable {winner : Guid × PlayerRollVote}

theorem Best.of_priority {cast : List (Guid × PlayerRollVote)}
    (hmem : winner ∈ cast) (hwants : winner.2.vote.wants = true)
    (h : ∀ ballot ∈ cast, ballot.2.vote.wants = true → priority ballot ≤ priority winner) :
    Best cast winner := by
  have hneed : ∀ ballot ∈ cast, ballot.2.vote = .need → winner.2.vote = .need := by
    intro ballot hballot hvote
    by_contra hno
    refine absurd (h ballot hballot (by rw [hvote]; rfl)) (not_le.mpr ?_)
    exact priority_lt_iff.mpr (Or.inl ⟨hvote, hno⟩)
  refine ⟨hmem, hwants, ?_, fun hnone ballot hballot hvote => ?_⟩
  · rintro ⟨first, hfirst, hvote⟩
    refine ⟨hneed first hfirst hvote, fun ballot hballot hvote' => ?_⟩
    by_contra hno
    refine absurd (h ballot hballot (by rw [hvote']; rfl)) (not_le.mpr ?_)
    exact priority_lt_iff.mpr (Or.inr ⟨iff_of_true hvote' (hneed first hfirst hvote), not_le.mp hno⟩)
  · by_contra hno
    refine absurd (h ballot hballot hvote) (not_le.mpr ?_)
    exact priority_lt_iff.mpr (Or.inr
      ⟨iff_of_false (hnone ballot hballot) (hnone winner hmem), not_le.mp hno⟩)

/-! ### The run of a roll -/

/-- A roll for an item of the loot, and its winner once it has ended. -/
structure Rolling where
  loot : Loot
  roll : LootRoll
  ended : Option (Option (Guid × PlayerRollVote))

/-- A packet of a client, or an update of the loot. -/
inductive RollEvent
  /-- `HandleLootRoll`, with the number that is drawn -/
  | packet (player : Guid) (rollType rollNumber : ℕ)
  | update (now : ℕ) (connected : Guid → Bool) (canStoreNewItem : Bool)

/-- One event of a roll. -/
def rollStep (world : World) (s : Rolling) : RollEvent → Rolling
  | .packet player rollType rollNumber =>
    match RollVote.ofRollType rollType with
    | none => s
    | some vote =>
      if s.ended.isSome then s
      else { s with roll := (s.roll.playerVote player vote rollNumber).2 }
  | .update now connected canStoreNewItem =>
    match s.roll.updateRoll now with
    | none => s
    | some winner =>
      if s.ended.isSome then s
      else
        { s with
          loot := finish world connected canStoreNewItem s.roll.lootListId winner s.loot
          ended := some winner }

/-- The ballot that an event casts: a vote that counts. -/
def ballot (s : Rolling) : RollEvent → Option (Guid × PlayerRollVote)
  | .packet player rollType rollNumber =>
    match RollVote.ofRollType rollType with
    | none => none
    | some vote =>
      if s.ended.isNone ∧ (s.roll.playerVote player vote rollNumber).1 then
        some (player, ⟨vote, rollNumber⟩)
      else none
  | .update .. => none

/-- The ballots of a run. -/
def ballots (world : World) : Rolling → List RollEvent → List (Guid × PlayerRollVote)
  | _, [] => []
  | s, event :: events => (ballot s event).toList ++ ballots world (rollStep world s event) events

/-- The vote has been offered to the player. -/
def LootRoll.Offers (roll : LootRoll) (ballot : Guid × PlayerRollVote) : Prop :=
  ∃ mask, (ballot.1, mask) ∈ roll.offered ∧ mask &&& ballot.2.vote.flag ≠ 0

/-- A ballot for the item has been offered. -/
def Offered (s : Rolling) (event : RollEvent) : Prop :=
  ∀ cast, ballot s event = some cast → cast.2.vote.wants = true → s.roll.Offers cast

/-- The vote map holds the ballots that have been cast, each player has one at most, and those who
have none can still vote. -/
structure Counted (begun : LootRoll) (cast : List (Guid × PlayerRollVote)) (s : Rolling) : Prop where
  once : (cast.map Prod.fst).Nodup
  players : s.roll.rollVoteMap.map Prod.fst = begun.rollVoteMap.map Prod.fst
  votes : ∀ entry : Guid × PlayerRollVote, entry.2.vote.wants = true →
    (entry ∈ s.roll.rollVoteMap ↔ entry ∈ cast)
  unvoted : ∀ entry ∈ s.roll.rollVoteMap, entry.2.vote = .notEmitedYet →
    entry.1 ∉ cast.map Prod.fst
  lootListId : s.roll.lootListId = begun.lootListId
  offered : s.roll.offered = begun.offered

/-- When the roll has ended, the winner is the one that the scan finds, and the item is free. -/
structure Finished (s : Rolling) : Prop where
  winner : ∀ winner, s.ended = some winner → winner = s.roll.allPlayerVoted.2
  unblocked : ∀ winner, s.ended = some winner →
    ∀ item, s.loot.lootItem (s.loot.entryOf s.roll.lootListId) = some item → item.isBlocked = false

variable {world : World} {begun : LootRoll} {cast : List (Guid × PlayerRollVote)} {s : Rolling}

theorem ofRollType_ne {rollType : ℕ} {vote : RollVote}
    (h : RollVote.ofRollType rollType = some vote) :
    vote ≠ .notEmitedYet := by
  rintro rfl
  match rollType, h with
  | 0, h | 1, h | 2, h | 3, h => cases h

/-- A vote that counts replaces the entry of a player who has not voted. -/
theorem playerVote_cases (player : Guid) (vote : RollVote) (rollNumber : ℕ) (roll : LootRoll) :
    roll.playerVote player vote rollNumber = (false, roll) ∨
      ∃ voter ∈ roll.rollVoteMap, voter.1 = player ∧ voter.2.vote = .notEmitedYet ∧
        roll.playerVote player vote rollNumber =
          (true,
            { roll with
              rollVoteMap := roll.rollVoteMap.map fun entry =>
                if entry.1 = player then
                  (entry.1, ⟨vote, if vote = .pass then entry.2.rollNumber else rollNumber⟩)
                else entry }) := by
  rw [LootRoll.playerVote]
  cases hfind : roll.rollVoteMap.find? fun entry => entry.1 = player with
  | none => exact Or.inl rfl
  | some voter =>
    by_cases hvoted : voter.2.vote ≠ .notEmitedYet
    · exact Or.inl (if_pos hvoted)
    · refine Or.inr ⟨voter, mem_of_find?_eq_some hfind, ?_, not_not.mp hvoted,
        if_neg hvoted⟩
      simpa using List.find?_some hfind

section

variable (h : Counted begun cast s)
include h

theorem Counted.vote {voter : Guid × PlayerRollVote}
    (hvoter : voter ∈ s.roll.rollVoteMap) (hopen : voter.2.vote = .notEmitedYet) {vote : RollVote}
    (hvote : vote ≠ .notEmitedYet) (rollNumber : ℕ) :
    Counted begun (cast ++ [(voter.1, ⟨vote, rollNumber⟩)])
      { s with
        roll :=
          { s.roll with
            rollVoteMap := s.roll.rollVoteMap.map fun entry =>
              if entry.1 = voter.1 then
                (entry.1, ⟨vote, if vote = .pass then entry.2.rollNumber else rollNumber⟩)
              else entry } } := by
  have hnew : voter.1 ∉ cast.map Prod.fst := h.unvoted voter hvoter hopen
  have hkeys : ∀ entry : Guid × PlayerRollVote, (if entry.1 = voter.1 then
      (entry.1, PlayerRollVote.mk vote (if vote = .pass then entry.2.rollNumber else rollNumber))
      else entry).1 = entry.1 := fun entry => by split_ifs <;> rfl
  refine ⟨?_, ?_, fun entry hwants => ?_, fun entry hentry hnone => ?_, h.lootListId, h.offered⟩
  · rw [map_append, map_singleton]
    exact nodup_append.mpr ⟨h.once, pairwise_singleton _ _, fun guid hguid other hother =>
      fun heq => hnew (mem_singleton.mp hother ▸ heq ▸ hguid)⟩
  · rw [← h.players, map_map]
    exact map_congr_left fun entry _ => hkeys entry
  · rw [mem_map, mem_append, mem_singleton]
    constructor
    · rintro ⟨old, hold, rfl⟩
      by_cases hplayer : old.1 = voter.1
      · rw [if_pos hplayer] at hwants ⊢
        have hpass : vote ≠ .pass := by
          rintro rfl
          cases hwants
        exact Or.inr (by rw [hplayer, if_neg hpass])
      · rw [if_neg hplayer] at hwants ⊢
        exact Or.inl ((h.votes old hwants).mp hold)
    · rintro (hcast | rfl)
      · refine ⟨entry, (h.votes entry hwants).mpr hcast, if_neg fun hplayer => ?_⟩
        exact hnew (hplayer ▸ mem_map_of_mem hcast)
      · have hpass : vote ≠ .pass := by
          rintro rfl
          cases hwants
        exact ⟨voter, hvoter, by rw [if_pos rfl, if_neg hpass]⟩
  · rw [map_append, map_singleton, mem_append, mem_singleton]
    obtain ⟨old, hold, rfl⟩ := mem_map.mp hentry
    by_cases hplayer : old.1 = voter.1
    · rw [if_pos hplayer] at hnone
      exact absurd hnone hvote
    · rw [if_neg hplayer] at hnone ⊢
      exact not_or.mpr ⟨h.unvoted old hold hnone, hplayer⟩

/-- **One event** casts a ballot or none, and the vote map holds it. -/
theorem Counted.step (event : RollEvent) :
    Counted begun (cast ++ (ballot s event).toList) (rollStep world s event) := by
  cases event with
  | packet player rollType rollNumber =>
    rw [ballot, rollStep]
    cases hvote : RollVote.ofRollType rollType with
    | none => rwa [Option.toList_none, append_nil]
    | some vote =>
      dsimp only
      by_cases hended : s.ended.isSome = true
      · have hover : ¬ (s.ended.isNone = true ∧
            (s.roll.playerVote player vote rollNumber).1 = true) := by
          rw [Option.isNone_iff_eq_none]
          rintro ⟨hnone, -⟩
          rw [hnone] at hended
          cases hended
        rw [if_pos hended, if_neg hover, Option.toList_none, append_nil]
        exact h
      rw [if_neg hended]
      rcases playerVote_cases player vote rollNumber s.roll with hrefused |
        ⟨voter, hvoter, rfl, hopen, hcounted⟩
      · rw [hrefused, if_neg fun hno => Bool.noConfusion hno.2, Option.toList_none,
          append_nil]
        exact h
      · rw [hcounted, if_pos ⟨by simpa using hended, rfl⟩, Option.toList_some]
        exact h.vote hvoter hopen (ofRollType_ne hvote) rollNumber
  | update now connected canStoreNewItem =>
    rw [ballot, rollStep, Option.toList_none, append_nil]
    cases s.roll.updateRoll now with
    | none => exact h
    | some winner =>
      split_ifs
      · exact h
      · exact ⟨h.once, h.players, h.votes, h.unvoted, h.lootListId, h.offered⟩

/-- **The vote map holds exactly the ballots of the run.** -/
theorem Counted.run (events : List RollEvent) :
    Counted begun (cast ++ ballots world s events) (events.foldl (rollStep world) s) := by
  induction events generalizing cast s with
  | nil => rwa [ballots, append_nil]
  | cons event events ih =>
    rw [ballots, foldl_cons, ← append_assoc]
    exact ih (h.step event)

end

theorem storeLootItem_isBlocked (player : Guid) (lootSlot : ℕ) (canStoreNewItem : Bool) {l : Loot}
    {entry : Entry} (h : ∀ item, l.lootItem entry = some item → item.isBlocked = false) :
    ∀ item, (storeLootItem world player lootSlot canStoreNewItem l).lootItem entry = some item →
      item.isBlocked = false := by
  intro item hitem
  rcases storeLootItem_cases world player lootSlot canStoreNewItem l with hsame |
    ⟨taken, note, old, -, hstored⟩
  · exact h item (hsame ▸ hitem)
  · rw [hstored, lootItem_storeTaken] at hitem
    split_ifs at hitem with hentry
    · obtain ⟨before, hbefore, rfl⟩ := Option.map_eq_some_iff.mp hitem
      rw [take_isBlocked]
      exact h before (hentry ▸ hbefore)
    · exact h item hitem

theorem length_items_storeLootItem (player : Guid) (lootSlot : ℕ) (canStoreNewItem : Bool)
    (l : Loot) :
    (storeLootItem world player lootSlot canStoreNewItem l).items.length = l.items.length := by
  rcases storeLootItem_cases world player lootSlot canStoreNewItem l with hsame |
    ⟨taken, note, old, -, hstored⟩
  · rw [hsame]
  · rw [hstored, length_items_storeTaken]

/-- After `Finish` the item is free. -/
theorem finish_unblocked (connected : Guid → Bool) (canStoreNewItem : Bool) (lootListId : ℕ)
    (winner : Option (Guid × PlayerRollVote)) (l : Loot) :
    (finish world connected canStoreNewItem lootListId winner l).items.length = l.items.length ∧
      ∀ item, (finish world connected canStoreNewItem lootListId winner l).lootItem
        (l.entryOf lootListId) = some item → item.isBlocked = false := by
  have hunblocked : ∀ item, (l.modifyItem (l.entryOf lootListId) (LootItem.block false)).lootItem
      (l.entryOf lootListId) = some item → item.isBlocked = false := by
    intro item hitem
    rw [lootItem_modifyItem, if_pos rfl] at hitem
    obtain ⟨before, -, rfl⟩ := Option.map_eq_some_iff.mp hitem
    rfl
  have hwon : ∀ guid item, ((l.modifyItem (l.entryOf lootListId) (LootItem.block false)).modifyItem
      (l.entryOf lootListId) (LootItem.winBy guid)).lootItem (l.entryOf lootListId) = some item →
        item.isBlocked = false := by
    intro guid item hitem
    rw [lootItem_modifyItem, if_pos rfl] at hitem
    obtain ⟨before, hbefore, rfl⟩ := Option.map_eq_some_iff.mp hitem
    exact hunblocked before hbefore
  rw [finish.eq_def]
  cases winner with
  | none => exact ⟨length_items_modifyItem _ _ _, hunblocked⟩
  | some winner =>
    obtain ⟨guid, vote⟩ := winner
    dsimp only
    by_cases hconnected : connected guid = true
    swap
    · rw [if_pos hconnected]
      exact ⟨by simp, hwon guid⟩
    rw [if_neg (not_not.mpr hconnected)]
    by_cases hvote : vote.vote = .disenchant
    · rw [if_pos hvote]
      refine ⟨?_, fun item hitem => ?_⟩
      · exact (length_items_modifyItem _ _ _).trans (by simp)
      · rw [lootItem_countDown, lootItem_modifyItem, if_pos rfl] at hitem
        obtain ⟨before, hbefore, rfl⟩ := Option.map_eq_some_iff.mp hitem
        exact hwon guid before hbefore
    · rw [if_neg hvote]
      exact ⟨by rw [length_items_storeLootItem]; simp,
        storeLootItem_isBlocked guid _ canStoreNewItem (hwon guid)⟩

theorem Finished.step (h : Finished s) (event : RollEvent) : Finished (rollStep world s event) := by
  cases event with
  | packet player rollType rollNumber =>
    rw [rollStep]
    cases RollVote.ofRollType rollType with
    | none => exact h
    | some vote =>
      dsimp only
      by_cases hended : s.ended.isSome = true
      · rwa [if_pos hended]
      · rw [if_neg hended]
        have hnone : s.ended = none := Option.not_isSome_iff_eq_none.mp hended
        exact ⟨fun winner hno => absurd (hnone.symm.trans hno) (Option.some_ne_none _).symm,
          fun winner hno => absurd (hnone.symm.trans hno) (Option.some_ne_none _).symm⟩
  | update now connected canStoreNewItem =>
    rw [rollStep]
    cases hupdate : s.roll.updateRoll now with
    | none => exact h
    | some winner =>
      dsimp only
      by_cases hended : s.ended.isSome = true
      · rwa [if_pos hended]
      rw [if_neg hended]
      rw [LootRoll.updateRoll] at hupdate
      split_ifs at hupdate
      obtain rfl := Option.some.inj hupdate
      obtain ⟨hlength, hfree⟩ := @finish_unblocked world connected canStoreNewItem
        s.roll.lootListId s.roll.allPlayerVoted.2 s.loot
      refine ⟨fun winner hwinner => (Option.some.inj hwinner).symm, fun winner _ => ?_⟩
      rw [entryOf_congr hlength]
      exact hfree

theorem Finished.run (h : Finished s) (events : List RollEvent) :
    Finished (events.foldl (rollStep world) s) := by
  induction events generalizing s with
  | nil => exact h
  | cons event events ih => exact ih (h.step event)

/-- All ballots of a run have been offered. -/
theorem offers_of_offered {events : List RollEvent} (h : Along (rollStep world) Offered s events)
    (hcast : winner ∈ ballots world s events) (hwants : winner.2.vote.wants = true) : s.roll.Offers winner := by
  induction events generalizing s with
  | nil => cases hcast
  | cons event events ih =>
    obtain ⟨hevent, hevents⟩ := h
    have hsame : (rollStep world s event).roll.offered = s.roll.offered := by
      cases event with
      | packet player rollType rollNumber =>
        rw [rollStep]
        cases RollVote.ofRollType rollType with
        | none => rfl
        | some vote =>
          dsimp only
          split_ifs
          · rfl
          · rcases playerVote_cases player vote rollNumber s.roll with hvote |
              ⟨voter, -, -, -, hvote⟩
            · rw [hvote]
            · rw [hvote]
      | update now connected canStoreNewItem =>
        rw [rollStep]
        cases s.roll.updateRoll now with
        | none => rfl
        | some winner =>
          split_ifs
          · rfl
          · rfl
    rw [ballots, mem_append] at hcast
    rcases hcast with hcast | hcast
    · exact hevent winner (Option.mem_toList.mp hcast) hwants
    · obtain ⟨mask, hmask, hflag⟩ := ih hevents hcast
      exact ⟨mask, hsame ▸ hmask, hflag⟩

/-! ### The winner -/

/-- At the start of a roll nobody has voted for the item. -/
theorem Counted.start {env : Start} {enchantingSkill lootListId : ℕ} {l l' : Loot} {roll : LootRoll}
    (h : tryToStart world env enchantingSkill lootListId l = (some roll, l')) :
    Counted roll [] ⟨l', roll, none⟩ := by
  refine ⟨nodup_nil, rfl, fun entry hwants => ⟨fun hentry => ?_, fun hno => by cases hno⟩,
    fun _ _ _ hno => (not_mem_nil hno).elim, rfl, rfl⟩
  rw [tryToStart] at h
  cases hitem : l.lootItem (l.entryOf lootListId) with
  | none =>
    rw [hitem] at h
    cases h
  | some item =>
    rw [hitem] at h
    dsimp only at h
    cases hproto : world.template item.itemid with
    | none =>
      rw [hproto] at h
      cases h
    | some proto =>
      rw [hproto] at h
      split_ifs at h
      · obtain ⟨hroll, -⟩ := Prod.mk.inj h
        obtain rfl := Option.some.inj hroll
        obtain ⟨guid, -, rfl⟩ := mem_map.mp hentry
        rw [startVote] at hwants
        split_ifs at hwants
        · cases hwants
        · cases hwants
        · cases hwants
      · cases h

/-- **How a roll ends**: there is no winner if and only if nobody has voted for the item; a winner is
a player of the roll who has cast the best of the ballots, and was offered the vote if all ballots
were offered; the item is free. -/
structure Won (world : World) (roll : LootRoll) (l : Loot) (events : List RollEvent)
    (winner : Option (Guid × PlayerRollVote)) : Prop where
  none_iff : winner = none ↔
    ∀ cast ∈ ballots world ⟨l, roll, none⟩ events, cast.2.vote.wants = false
  player : ∀ best, winner = some best → best.1 ∈ roll.rollVoteMap.map Prod.fst
  best : ∀ best, winner = some best → Best (ballots world ⟨l, roll, none⟩ events) best
  offered : Along (rollStep world) Offered ⟨l, roll, none⟩ events →
    ∀ best, winner = some best → roll.Offers best
  unblocked : ∀ item, (events.foldl (rollStep world) ⟨l, roll, none⟩).loot.lootItem
    ((events.foldl (rollStep world) ⟨l, roll, none⟩).loot.entryOf roll.lootListId) = some item →
      item.isBlocked = false

/-- **A roll is won by the best ballot.** Each player casts one at most, and if each ballot was
offered, so was the one that wins. -/
theorem roll_won (world : World) (env : Start) (enchantingSkill lootListId : ℕ) (l l' : Loot)
    (roll : LootRoll) (hstart : tryToStart world env enchantingSkill lootListId l = (some roll, l'))
    (events : List RollEvent) :
    ((ballots world ⟨l', roll, none⟩ events).map Prod.fst).Nodup ∧
      ∀ winner, (events.foldl (rollStep world) ⟨l', roll, none⟩).ended = some winner →
        Won world roll l' events winner := by
  have hcounted : Counted roll (ballots world ⟨l', roll, none⟩ events)
      (events.foldl (rollStep world) ⟨l', roll, none⟩) := (Counted.start hstart).run events
  refine ⟨hcounted.once, fun winner hended => ?_⟩
  have hfinished : Finished (events.foldl (rollStep world) ⟨l', roll, none⟩) :=
    Finished.run ⟨fun winner hno => absurd hno (Option.some_ne_none winner).symm,
      fun winner hno => absurd hno (Option.some_ne_none winner).symm⟩ events
  have hwinner := (hfinished.winner winner hended).trans (allPlayerVoted_winner _)
  generalize hcast : ballots world ⟨l', roll, none⟩ events = cast at hcounted
  generalize hs : events.foldl (rollStep world) ⟨l', roll, none⟩ = s at *
  have hbest : ∀ best, winner = some best → Best cast best := by
    intro best hbest
    have hmem : best ∈ (s.roll.rollVoteMap.filter fun entry => entry.2.vote.wants).argmax priority :=
      hwinner.symm.trans hbest
    obtain ⟨hvoted, hwants⟩ := mem_filter.mp (argmax_mem hmem)
    refine Best.of_priority ((hcounted.votes best hwants).mp hvoted) hwants fun other hother hfor => ?_
    exact le_of_mem_argmax (mem_filter.mpr ⟨(hcounted.votes other hfor).mpr hother, hfor⟩) hmem
  refine ⟨?_, fun best hwin => ?_, hcast ▸ hbest, fun hoffered best hwin => ?_, ?_⟩
  · rw [hcast, hwinner, argmax_eq_none, filter_eq_nil_iff]
    constructor
    · intro hnone ballot hballot
      rw [Bool.eq_false_iff]
      exact fun hwants => hnone ballot ((hcounted.votes ballot hwants).mpr hballot) hwants
    · intro hnone entry hentry hwants
      exact Bool.noConfusion ((hnone entry ((hcounted.votes entry hwants).mp hentry)).symm.trans hwants)
  · have hvoted := (hcounted.votes best (hbest best hwin).wants).mpr (hbest best hwin).mem
    exact hcounted.players ▸ mem_map_of_mem hvoted
  · exact offers_of_offered hoffered (hcast.symm ▸ (hbest best hwin).mem) (hbest best hwin).wants
  · rw [← hcounted.lootListId, hs]
    exact hfinished.unblocked winner hended

/-- Two players in group loot, and items of entry 7 that cannot be disenchanted. -/
def pairWorld : World where
  template := fun itemid =>
    if itemid = 7 then some ⟨20, false, false, 2, false, false, 0, 0⟩ else none
  group := some ⟨[1, 2], .groupLoot, 1, 2, by decide⟩
  meetsConditions := fun _ _ => true
  ownTeam := fun _ _ => true
  canLearn := fun _ _ => true
  questAllows := fun _ _ _ => true
  order := id
  order_perm := fun guids => List.Perm.refl guids

/-- A loot with one item that both players may take. -/
def pairLoot : Loot :=
  { Loot.new 0 with
    items := [⟨7, 0, [], [1, 2], none, 1, false, true, false, false, false, false, true⟩]
    lootMethod := .groupLoot
    allowedLooters := [1, 2] }

/-- Both players are there and do not pass. -/
def pairStart : Start := ⟨fun _ => true, fun _ => false, fun _ => true, 0⟩

/-- The roll of the two players: need and greed are offered. -/
def pairRoll : LootRoll :=
  ⟨[(1, ⟨.notEmitedYet, 0⟩), (2, ⟨.notEmitedYet, 0⟩)], 0, 0x07, 60000, [(1, 0x07), (2, 0x07)]⟩

theorem pairRoll_started :
    tryToStart pairWorld pairStart 0 0 pairLoot = (some pairRoll, pairLoot) := rfl

/-- Need wins over a higher number for greed, and was offered. -/
theorem pairRoll_won :
    pairRoll.Offers (1, ⟨.need, 30⟩) ∧
      Best (ballots pairWorld ⟨pairLoot, pairRoll, none⟩
        [.packet 2 2 80, .packet 1 1 30, .packet 2 0 0, .update 5 (fun _ => true) true])
        (1, ⟨.need, 30⟩) := by
  have hwon := (roll_won pairWorld pairStart 0 0 pairLoot pairLoot pairRoll pairRoll_started
    [.packet 2 2 80, .packet 1 1 30, .packet 2 0 0, .update 5 (fun _ => true) true]).2
    (some (1, ⟨.need, 30⟩)) rfl
  refine ⟨hwon.offered ⟨?_, ?_, ?_, ?_, trivial⟩ _ rfl, hwon.best _ rfl⟩
  · rintro cast hcast -
    obtain rfl := Option.some.inj hcast
    exact ⟨0x07, by decide, by decide⟩
  · rintro cast hcast -
    obtain rfl := Option.some.inj hcast
    exact ⟨0x07, by decide, by decide⟩
  · rintro cast hcast -
    cases hcast
  · rintro cast hcast -
    cases hcast

/-- **A vote that was not offered wins**: player 2 votes to disenchant an item that cannot be
disenchanted. -/
theorem unoffered_won :
    tryToStart pairWorld pairStart 0 0 pairLoot = (some pairRoll, pairLoot) ∧
      ([RollEvent.packet 2 3 80, .packet 1 2 30, .update 5 (fun _ => true) true].foldl
        (rollStep pairWorld) ⟨pairLoot, pairRoll, none⟩).ended =
          some (some (2, ⟨.disenchant, 80⟩)) ∧
      ¬ pairRoll.Offers (2, ⟨.disenchant, 80⟩) := by
  refine ⟨rfl, rfl, ?_⟩
  rintro ⟨mask, hmask, hflag⟩
  simp only [pairRoll, mem_cons, Prod.mk.injEq, not_mem_nil, or_false] at hmask
  obtain ⟨hno, -⟩ | ⟨-, rfl⟩ := hmask
  · exact absurd hno (by decide)
  · exact hflag (by decide)

end IscServer.Looting
