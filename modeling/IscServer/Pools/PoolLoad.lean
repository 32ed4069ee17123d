import IscServer.Pools.PoolMgr

/-!
# Loading Pools

`PoolMgr::LoadFromDB`. The rows of `pool_members` are checked one by one; what passes makes up
the groups and the search maps.

## Main results

* `mem_guids_groupRows`: the groups and the search map of a kind say the same.
* `Forest.ofRows`: the forest of rows whose pools have a rank.
-/

namespace IscServer

open List

namespace Pools

/-- A row of `pool_members`. -/
structure PoolMember where
  kind : Kind
  spawnId : ℕ
  poolSpawnId : ℕ
  chance : ℚ
  deriving DecidableEq

/-- The tables that `LoadFromDB` reads, with their primary keys, and what `ObjectMgr` knows about
the spawns. -/
structure Database where
  templates : List (ℕ × ℕ)
  members : List PoolMember
  hasCreature : ℕ → Bool
  hasLootableGameobject : ℕ → Bool
  members_key : (members.map fun row => (row.kind, row.spawnId)).Nodup
  maxLimit_lt : ∀ t ∈ templates, t.2 < 2 ^ 32

namespace Database

/-- The pool is in `pool_template`. -/
def hasTemplate (db : Database) (poolId : ℕ) : Bool :=
  db.templates.any (·.1 == poolId)

/-- `mPoolTemplate[poolId].MaxLimit`. -/
def maxLimit (db : Database) (poolId : ℕ) : ℕ :=
  ((db.templates.find? (·.1 == poolId)).map (·.2)).getD 0

/-- The checks that a row has to pass. -/
def accepts (db : Database) (row : PoolMember) : Bool :=
  let spawnOk := match row.kind with
    | .creature => db.hasCreature row.spawnId
    | .gameobject => db.hasLootableGameobject row.spawnId
    | .pool => db.hasTemplate row.spawnId && !decide (row.poolSpawnId = row.spawnId)
  spawnOk && db.hasTemplate row.poolSpawnId && decide (0 ≤ row.chance ∧ row.chance ≤ 100)

end Database

/-! ### The groups of a list of rows -/

section Rows

variable (rows : List PoolMember)

/-- The search map of a kind. -/
def searchRows (kind : Kind) (guid : ℕ) : Option ℕ :=
  (rows.find? fun row => row.kind = kind ∧ row.spawnId = guid).map (·.poolSpawnId)

/-- `AddEntry`: only in a pool with the limit `1` a member has a chance of its own. -/
def isExplicit (maxLimit : ℕ → ℕ) (row : PoolMember) : Bool :=
  row.chance ≠ 0 ∧ maxLimit row.poolSpawnId = 1

/-- The group of a kind in a pool. -/
def groupRows (maxLimit : ℕ → ℕ) (kind : Kind) (poolId : ℕ) : PoolGroup :=
  let own := rows.filter fun row => row.kind = kind ∧ row.poolSpawnId = poolId
  { explicitlyChanced := (own.filter (isExplicit maxLimit)).map fun row =>
      ⟨row.spawnId, abs row.chance⟩
    equalChanced := (own.filter fun row => !isExplicit maxLimit row).map fun row =>
      ⟨row.spawnId, abs row.chance⟩ }

variable {rows}

section

variable (hkey : (rows.map fun row => (row.kind, row.spawnId)).Nodup)
include hkey

/-- Rows with the same key are the same. -/
theorem row_unique {row row' : PoolMember} (h : row ∈ rows) (h' : row' ∈ rows)
    (hkind : row.kind = row'.kind) (hspawn : row.spawnId = row'.spawnId) : row = row' :=
  inj_on_of_nodup_map hkey h h' (by rw [hkind, hspawn])

theorem searchRows_eq_some {kind : Kind} {guid poolId : ℕ} :
    searchRows rows kind guid = some poolId ↔
      ∃ row ∈ rows, row.kind = kind ∧ row.spawnId = guid ∧ row.poolSpawnId = poolId := by
  rw [searchRows, Option.map_eq_some_iff]
  constructor
  · rintro ⟨row, hfind, rfl⟩
    obtain ⟨hkind, hspawn⟩ : row.kind = kind ∧ row.spawnId = guid := by
      simpa using List.find?_some hfind
    exact ⟨row, mem_of_find?_eq_some hfind, hkind, hspawn, rfl⟩
  · rintro ⟨row, hmem, rfl, rfl, rfl⟩
    cases hfind : rows.find? fun row' => row'.kind = row.kind ∧ row'.spawnId = row.spawnId with
    | none =>
      have hnot := List.find?_eq_none.mp hfind row hmem
      simp at hnot
    | some row' =>
      obtain ⟨hkind, hspawn⟩ : row'.kind = row.kind ∧ row'.spawnId = row.spawnId := by
        simpa using List.find?_some hfind
      refine ⟨row', rfl, ?_⟩
      rw [row_unique hkey (mem_of_find?_eq_some hfind) hmem hkind hspawn]

end

/-- The members of a group are the spawns of its rows. -/
theorem guids_groupRows_perm (maxLimit : ℕ → ℕ) (kind : Kind) (poolId : ℕ) :
    List.Perm (groupRows rows maxLimit kind poolId).guids
      ((rows.filter fun row => row.kind = kind ∧ row.poolSpawnId = poolId).map (·.spawnId)) := by
  set own := rows.filter fun row => row.kind = kind ∧ row.poolSpawnId = poolId
  have hguids : (groupRows rows maxLimit kind poolId).guids =
      ((own.filter fun row => !isExplicit maxLimit row) ++
        own.filter (isExplicit maxLimit)).map (·.spawnId) := by
    simp only [PoolGroup.guids, PoolGroup.objects, groupRows, map_append, map_map]
    rfl
  rw [hguids]
  refine List.Perm.map _ (perm_append_comm.trans ?_)
  exact filter_append_perm (isExplicit maxLimit) own

section

variable (hkey : (rows.map fun row => (row.kind, row.spawnId)).Nodup)
include hkey

theorem mem_guids_groupRows (maxLimit : ℕ → ℕ) (kind : Kind) (poolId guid : ℕ) :
    guid ∈ (groupRows rows maxLimit kind poolId).guids ↔
      searchRows rows kind guid = some poolId := by
  rw [(guids_groupRows_perm maxLimit kind poolId).mem_iff, mem_map, searchRows_eq_some hkey]
  constructor
  · rintro ⟨row, hrow, rfl⟩
    obtain ⟨hmem, hboth⟩ := mem_filter.mp hrow
    obtain ⟨hkind, hpool⟩ := of_decide_eq_true hboth
    exact ⟨row, hmem, hkind, rfl, hpool⟩
  · rintro ⟨row, hmem, hkind, rfl, hpool⟩
    exact ⟨row, mem_filter.mpr ⟨hmem, decide_eq_true ⟨hkind, hpool⟩⟩, rfl⟩

theorem nodup_guids_groupRows (maxLimit : ℕ → ℕ) (kind : Kind) (poolId : ℕ) :
    (groupRows rows maxLimit kind poolId).guids.Nodup := by
  rw [(guids_groupRows_perm maxLimit kind poolId).nodup_iff]
  refine List.Nodup.map_on ?_ ((List.Nodup.of_map _ hkey).filter _)
  intro row hrow row' hrow' hspawn
  obtain ⟨hmem, hboth⟩ := mem_filter.mp hrow
  obtain ⟨hmem', hboth'⟩ := mem_filter.mp hrow'
  have hkind := (of_decide_eq_true hboth).1.trans (of_decide_eq_true hboth').1.symm
  exact row_unique hkey hmem hmem' hkind hspawn

end

end Rows

namespace Database

theorem maxLimit_lt_two_pow (db : Database) (p : ℕ) : db.maxLimit p < 2 ^ 32 := by
  rw [maxLimit]
  cases hfind : db.templates.find? (·.1 == p) with
  | none => exact Nat.two_pow_pos 32
  | some t => exact db.maxLimit_lt t (mem_of_find?_eq_some hfind)

end Database

/-! ### The loaded forest -/

/-- The forest of a list of rows, for a rank of its pools. -/
def Forest.ofRows (rows : List PoolMember) (maxLimit rank : ℕ → ℕ)
    (hkey : (rows.map fun row => (row.kind, row.spawnId)).Nodup)
    (hlimit : ∀ p, maxLimit p < 2 ^ 32)
    (hrank : ∀ row ∈ rows, row.kind = .pool → rank row.spawnId < rank row.poolSpawnId) :
    Forest where
  maxLimit := maxLimit
  group := groupRows rows maxLimit
  search := searchRows rows
  rank := rank
  mem_guids := mem_guids_groupRows hkey maxLimit
  nodup := nodup_guids_groupRows hkey maxLimit
  rank_lt := by
    intro child mother hsearch
    obtain ⟨row, hrow, hkind, rfl, rfl⟩ := (searchRows_eq_some hkey).mp hsearch
    exact hrank row hrow hkind
  maxLimit_lt := hlimit

end Pools

end IscServer
