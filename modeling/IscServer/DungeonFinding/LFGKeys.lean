import IscServer.DungeonFinding.LFGQueue

/-!
# Keys, the Cache and the Best Group

The lemmas about the primitive parts of the queue that both the placement of the entries and their
best groups rest on.

* A key is determined by the set of its guids: split at `|` it gives their decimal forms. The
  decimal form of a member is a part of the key, but a part of a key need not be a member.
* What is found in the cache after each function that writes to it.
* The best group of an entry after an update or a search is the old one or a key of the cache.

## Main results

* `mem_splitOn_concatenateGuids` — the members of a key.
* `mem_iff_of_concatenateGuids_eq` — equal keys have equal members.
* `lookup_removeFromCompatibles` — which keys survive the removal of an entry.
* `bestCompatible_findBestCompatible` — where a best group comes from.
-/

namespace IscServer.DungeonFinding

open List

variable {check : List Guid} {guid : Guid}

/-! ### Keys -/

/-- Decimal forms are distinct. -/
theorem sguid_injective : Function.Injective sguid := by
  intro a b h
  have hvalue := congrArg (fun digits => Nat.ofDigitChars 10 digits 0) h
  simpa [sguid] using hvalue

/-- A decimal form is made of digits only. -/
theorem separator_not_mem_sguid (guid : Guid) : '|' ∉ sguid guid := by
  intro h
  have hdigit : Char.isDigit '|' = true := Nat.isDigit_of_mem_toDigits (by decide) (by decide) h
  exact absurd hdigit (by decide)

/-- The guids of a key in their order. -/
theorem mem_sorted : guid ∈ check.dedup.insertionSort (· ≤ ·) ↔ guid ∈ check := by
  rw [mem_insertionSort, mem_dedup]

/-- The parts of a key. -/
theorem splitOn_concatenateGuids (h : check ≠ []) :
    (concatenateGuids check).splitOn '|' =
      (check.dedup.insertionSort (· ≤ ·)).map sguid := by
  refine splitOn_intercalate '|' ?_ ?_
  · intro part hpart
    obtain ⟨guid, -, rfl⟩ := mem_map.mp hpart
    exact separator_not_mem_sguid guid
  · obtain ⟨first, hfirst⟩ := exists_mem_of_ne_nil check h
    exact ne_nil_of_mem (mem_map_of_mem (mem_sorted.mpr hfirst))

/-- **The members of a key** are its parts. -/
theorem mem_splitOn_concatenateGuids (h : check ≠ []) :
    sguid guid ∈ (concatenateGuids check).splitOn '|' ↔ guid ∈ check := by
  rw [splitOn_concatenateGuids h, mem_map_of_injective sguid_injective, mem_sorted]

/-- Every part of a key is a member. -/
theorem exists_of_mem_splitOn (h : check ≠ []) {part : Key}
    (hpart : part ∈ (concatenateGuids check).splitOn '|') : ∃ guid ∈ check, part = sguid guid := by
  rw [splitOn_concatenateGuids h] at hpart
  obtain ⟨guid, hguid, rfl⟩ := mem_map.mp hpart
  exact ⟨guid, mem_sorted.mp hguid, rfl⟩

/-- **Equal keys have equal members.** -/
theorem mem_iff_of_concatenateGuids_eq {other : List Guid} (h : check ≠ []) (h' : other ≠ [])
    (heq : concatenateGuids check = concatenateGuids other) : guid ∈ check ↔ guid ∈ other := by
  rw [← mem_splitOn_concatenateGuids h, heq, mem_splitOn_concatenateGuids h']

/-- A part of a joined list stands in it as a whole. -/
theorem infix_intercalate {sep part : List Char} {parts : List (List Char)} (h : part ∈ parts) :
    part <:+: List.intercalate sep parts := by
  induction parts with
  | nil => exact absurd h not_mem_nil
  | cons first parts ih =>
    cases parts with
    | nil => rw [mem_singleton.mp h, intercalate_singleton]
    | cons second parts =>
      rw [intercalate_cons_cons]
      rcases mem_cons.mp h with rfl | h
      · exact ⟨[], sep ++ List.intercalate sep (second :: parts), by simp⟩
      · exact (ih h).trans (suffix_append _ _).isInfix

/-- The decimal form of a member stands in the key. -/
theorem sguid_infix_concatenateGuids (h : guid ∈ check) : sguid guid <:+: concatenateGuids check :=
  infix_intercalate (mem_map_of_mem (mem_sorted.mpr h))

/-! ### The cache -/

variable {cache : AList (fun _ : Key => LfgCompatibilityData)} {key other : Key}

/-- What is stored is found under its key, every other key is as before. -/
theorem lookup_insert_ite (stored : LfgCompatibilityData) :
    (cache.insert key stored).lookup other =
      if other = key then some stored else cache.lookup other := by
  split_ifs with h
  · rw [h]
    exact AList.lookup_insert cache
  · exact AList.lookup_insert_ne h

/-- The compatibility stored is found under its key, with the roles that were there. -/
theorem lookup_setCompatibles (compatibles : LfgCompatibility) :
    (setCompatibles key compatibles cache).lookup other =
      if other = key then
        some ⟨compatibles, ((cache.lookup key).map LfgCompatibilityData.roles).getD []⟩
      else cache.lookup other :=
  lookup_insert_ite _

/-- Erasing keys one after the other. -/
theorem lookup_foldl_erase (keys : List Key) :
    (keys.foldl (fun cache key => cache.erase key) cache).lookup other =
      if other ∈ keys then none else cache.lookup other := by
  induction keys generalizing cache with
  | nil => simp
  | cons key keys ih =>
    rw [foldl_cons, ih]
    by_cases hkeys : other ∈ keys
    · rw [if_pos hkeys, if_pos (mem_cons_of_mem _ hkeys)]
    · rw [if_neg hkeys]
      by_cases heq : other = key
      · rw [heq, AList.lookup_erase, if_pos mem_cons_self]
      · rw [AList.lookup_erase_ne heq, if_neg]
        exact fun h => (mem_cons.mp h).elim heq hkeys

/-- **The removal of an entry** drops the keys that contain its decimal form and no other. -/
theorem lookup_removeFromCompatibles :
    (removeFromCompatibles guid cache).lookup key =
      if sguid guid <:+: key then none else cache.lookup key := by
  rw [removeFromCompatibles, lookup_foldl_erase]
  by_cases hinfix : sguid guid <:+: key
  · split_ifs with hmem
    · rfl
    · refine AList.lookup_eq_none.mpr fun hkey => hmem ?_
      exact mem_filter.mpr ⟨hkey, by simpa using hinfix⟩
  · rw [if_neg hinfix, if_neg]
    intro hmem
    have hkey := (mem_filter.mp hmem).2
    exact hinfix (by simpa using hkey)

/-- The entries of the cache are its bindings. -/
theorem lookup_of_mem_cacheEntries {entry : Sigma fun _ : Key => LfgCompatibilityData}
    (h : entry ∈ cacheEntries cache) : cache.lookup entry.1 = some entry.2 :=
  AList.mem_lookup_iff.mpr ((mem_insertionSort _).mp h)

/-! ### The best group -/

/-- Taking roles off does not touch the best group. -/
theorem bestCompatible_foldl_takeRole (roles : List ℕ) (data : LfgQueueData) :
    (roles.foldl takeRole data).bestCompatible = data.bestCompatible := by
  induction roles generalizing data with
  | nil => rfl
  | cons role roles ih =>
    rw [foldl_cons, ih, takeRole]
    split_ifs <;> rfl

/-- An update keeps the best group or takes the new key. -/
theorem bestCompatible_updateBestCompatible (key : Key) (roles : LfgRolesMap)
    (data : LfgQueueData) :
    (updateBestCompatible key roles data).bestCompatible = data.bestCompatible ∨
      (updateBestCompatible key roles data).bestCompatible = key := by
  rw [updateBestCompatible]
  split_ifs
  · exact Or.inl rfl
  · exact Or.inr (bestCompatible_foldl_takeRole _ _)

/-- **A search** keeps the best group or takes a key of the cache with less players that contains
the decimal form of the guid. -/
theorem bestCompatible_findBestCompatible (guid : Guid) (data : LfgQueueData) :
    (findBestCompatible cache guid data).bestCompatible = data.bestCompatible ∨
      ∃ stored, cache.lookup (findBestCompatible cache guid data).bestCompatible = some stored ∧
        stored.compatibility = .withLessPlayers ∧
        sguid guid <:+: (findBestCompatible cache guid data).bestCompatible := by
  have hfold : ∀ (entries : List (Sigma fun _ : Key => LfgCompatibilityData))
      (data : LfgQueueData), entries ⊆ cacheEntries cache →
      (entries.foldl (fun data entry =>
        if entry.2.compatibility = .withLessPlayers ∧ sguid guid <:+: entry.1 then
          updateBestCompatible entry.1 entry.2.roles data
        else data) data).bestCompatible = data.bestCompatible ∨
      ∃ entry ∈ cacheEntries cache, entry.2.compatibility = .withLessPlayers ∧
        sguid guid <:+: entry.1 ∧
        (entries.foldl (fun data entry =>
          if entry.2.compatibility = .withLessPlayers ∧ sguid guid <:+: entry.1 then
            updateBestCompatible entry.1 entry.2.roles data
          else data) data).bestCompatible = entry.1 := by
    intro entries
    induction entries with
    | nil => exact fun _ _ => Or.inl rfl
    | cons entry entries ih =>
      intro data hsub
      obtain ⟨hentry, hsub⟩ := cons_subset.mp hsub
      rw [foldl_cons]
      split_ifs with hless
      · rcases ih (updateBestCompatible entry.1 entry.2.roles data) hsub with h | h
        · rw [h]
          rcases bestCompatible_updateBestCompatible entry.1 entry.2.roles data with h | h
          · exact Or.inl h
          · exact Or.inr ⟨entry, hentry, hless.1, hless.2, h⟩
        · exact Or.inr h
      · exact ih data hsub
  refine (hfold (cacheEntries cache) data (List.Subset.refl _)).imp_right ?_
  rintro ⟨entry, hentry, hless, hinfix, hbest⟩
  change (findBestCompatible cache guid data).bestCompatible = entry.1 at hbest
  rw [hbest]
  exact ⟨entry.2, lookup_of_mem_cacheEntries hentry, hless, hinfix⟩

/-! ### What becomes of a combination -/

variable {answers : Answers} {q : LFGQueue}

/-- An entry that is reported missing has no data. -/
theorem countMembers_error {numPlayers numLfgGroups : ℕ}
    (h : countMembers answers q check numPlayers numLfgGroups = .error guid) :
    guid ∈ check ∧ q.queueDataStore guid = none := by
  induction check generalizing numPlayers numLfgGroups with
  | nil => exact absurd h (by simp [countMembers])
  | cons first check ih =>
    rw [countMembers] at h
    by_cases hgo : numLfgGroups < 2 ∧ numPlayers ≤ 5
    swap
    · rw [if_neg hgo] at h
      cases h
    rw [if_pos hgo] at h
    cases hdata : q.queueDataStore first with
    | none =>
      rw [hdata] at h
      obtain rfl : first = guid := Except.error.inj h
      exact ⟨mem_cons_self, hdata⟩
    | some data =>
      rw [hdata] at h
      obtain ⟨hmem, hnone⟩ := ih h
      exact ⟨mem_cons_of_mem _ hmem, hnone⟩

/-- The end of the checks is not reached by entries that are not compatible. -/
theorem conclude_compatible {numPlayers : ℕ} {roles : LfgRolesMap} :
    (∀ guid, conclude answers q check numPlayers roles ≠ .missing guid) ∧
      ∀ compatibles, conclude answers q check numPlayers roles ≠ .incompatible compatibles := by
  rw [conclude]
  split_ifs <;> exact ⟨fun _ => Verdict.noConfusion, fun _ => Verdict.noConfusion⟩

/-- **A missing entry** has no data. -/
theorem judge_missing (h : judge answers q check = .missing guid) :
    guid ∈ check ∧ q.queueDataStore guid = none := by
  rw [judge] at h
  split at h
  case h_1 hcount =>
    cases h
    exact countMembers_error hcount
  case h_2 =>
    split_ifs at h
    · split at h <;> cases h
    · split at h
      · cases h
      · exact absurd h (conclude_compatible.1 guid)
    · exact absurd h (conclude_compatible.1 guid)

/-- **An incompatible combination** is cached with a compatibility that says so. -/
theorem judge_incompatible {compatibles : LfgCompatibility}
    (h : judge answers q check = .incompatible compatibles) : compatibles.compatible = false := by
  rw [judge] at h
  split at h
  case h_1 => cases h
  case h_2 =>
    split_ifs at h
    · cases h; rfl
    · cases h; rfl
    · cases h; rfl
    · split at h <;> (cases h; rfl)
    · split at h
      · cases h; rfl
      · exact absurd h (conclude_compatible.2 compatibles)
    · exact absurd h (conclude_compatible.2 compatibles)

end IscServer.DungeonFinding
