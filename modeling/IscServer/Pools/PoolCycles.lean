import IscServer.Library.Links
import IscServer.Pools.PoolLoad
import IscServer.Pools.PoolSpawn

/-!
# Cycles of Mother Pools

The part of `PoolMgr::LoadFromDB` that loads pools of pools. Every accepted row adds a child pool to
the group of its mother and to the search map. Then the chain of mothers is followed from every
pool, in the order of the hash map of the templates, and where it comes back to a pool that it has
visited, the last link is removed from the group and from the search map.

## Main definitions

* `PoolLinks` — the groups and the search map of child pools.
* `Database.loadPoolPools` — the rows and the check for circular references.

## Main results

* `Database.loadPoolPools_spec`: **whatever the order, one link of each cycle is removed and
  nothing else**, and `SpawnPool` and `DespawnPool` come to an end.
-/

namespace IscServer

open List Function

namespace Pools

open Links

/-! ### Groups and search map -/

namespace PoolGroup

/-- `AddEntry`. -/
def addEntry (g : PoolGroup) (poolitem : PoolObject) (maxentries : ℕ) : PoolGroup :=
  if poolitem.chance ≠ 0 ∧ maxentries = 1 then
    { g with explicitlyChanced := g.explicitlyChanced ++ [poolitem] }
  else { g with equalChanced := g.equalChanced ++ [poolitem] }

/-- `RemoveOneRelation`. -/
def removeOneRelation (g : PoolGroup) (childPoolId : ℕ) : PoolGroup where
  explicitlyChanced := g.explicitlyChanced.eraseP (·.guid == childPoolId)
  equalChanced := g.equalChanced.eraseP (·.guid == childPoolId)

theorem guids_addEntry_perm (g : PoolGroup) (o : PoolObject) (maxentries : ℕ) :
    List.Perm (g.addEntry o maxentries).guids (o.guid :: g.guids) := by
  unfold addEntry guids objects
  split_ifs
  · rw [← append_assoc, map_append]
    exact perm_append_singleton _ _
  · refine (List.Perm.map _ ?_ : List.Perm _ ((o :: (g.equalChanced ++ g.explicitlyChanced)).map _))
    rw [append_assoc]
    exact perm_middle

theorem guids_removeOneRelation (g : PoolGroup) (childPoolId : ℕ) :
    (g.removeOneRelation childPoolId).guids =
      (g.equalChanced.map (·.guid)).erase childPoolId ++
        (g.explicitlyChanced.map (·.guid)).erase childPoolId := by
  have herase : ∀ l : List PoolObject, (l.eraseP (·.guid == childPoolId)).map (·.guid) =
      (l.map (·.guid)).erase childPoolId := by
    intro l
    rw [erase_eq_eraseP', eraseP_map]
    rfl
  rw [guids, objects, map_append, removeOneRelation, herase, herase]

theorem mem_guids_removeOneRelation {g : PoolGroup} (hnodup : g.guids.Nodup)
    {childPoolId guid : ℕ} :
    guid ∈ (g.removeOneRelation childPoolId).guids ↔ guid ≠ childPoolId ∧ guid ∈ g.guids := by
  have happend : g.guids = g.equalChanced.map (·.guid) ++ g.explicitlyChanced.map (·.guid) :=
    map_append
  rw [happend] at hnodup ⊢
  rw [guids_removeOneRelation, mem_append, hnodup.of_append_left.mem_erase_iff,
    hnodup.of_append_right.mem_erase_iff, mem_append, and_or_left]

theorem nodup_guids_removeOneRelation {g : PoolGroup} (hnodup : g.guids.Nodup) (childPoolId : ℕ) :
    (g.removeOneRelation childPoolId).guids.Nodup := by
  rw [guids_removeOneRelation]
  rw [guids, objects, map_append] at hnodup
  exact hnodup.sublist (List.Sublist.append erase_sublist erase_sublist)

end PoolGroup

/-- `mPoolPoolGroups` and `mPoolSearchMap`. -/
structure PoolLinks where
  groups : ℕ → PoolGroup
  search : ℕ → Option ℕ

variable {l : PoolLinks}

namespace PoolLinks

/-- The maps before any row. -/
def empty : PoolLinks := ⟨fun _ => {}, fun _ => none⟩

/-- A row that has passed its checks. -/
def addRow (maxLimit : ℕ → ℕ) (l : PoolLinks) (row : PoolMember) : PoolLinks where
  groups := Function.update l.groups row.poolSpawnId
    ((l.groups row.poolSpawnId).addEntry ⟨row.spawnId, |row.chance|⟩ (maxLimit row.poolSpawnId))
  search :=
    -- an entry of the map is not overwritten
    if (l.search row.spawnId).isSome then l.search
    else Function.update l.search row.spawnId (some row.poolSpawnId)

/-- The last link between a child pool and its mother is removed. -/
def removeLink (l : PoolLinks) (child mother : ℕ) : PoolLinks where
  groups := Function.update l.groups mother ((l.groups mother).removeOneRelation child)
  search := cut l.search child

/-- One round of the check for circular references, with fuel for the walk along the mothers. -/
def checkPool (fuel : ℕ) (l : PoolLinks) (poolId : ℕ) : Option PoolLinks :=
  (walk l.search fuel [] poolId).map fun found =>
    match found with
    | none => l
    | some child =>
      match l.search child with
      | none => l
      | some mother => l.removeLink child mother

/-- A child pool is listed once, in the group of the mother that the search map names. -/
structure Listed (l : PoolLinks) : Prop where
  mem_guids : ∀ mother child, child ∈ (l.groups mother).guids ↔ l.search child = some mother
  nodup : ∀ mother, (l.groups mother).guids.Nodup

theorem Listed.addRow (h : Listed l) (maxLimit : ℕ → ℕ) {row : PoolMember}
    (hnew : l.search row.spawnId = none) : Listed (l.addRow maxLimit row) := by
  have hnot : ∀ mother, row.spawnId ∉ (l.groups mother).guids := fun mother hmem =>
    absurd (hnew.symm.trans ((h.mem_guids mother _).mp hmem)) nofun
  have hperm := PoolGroup.guids_addEntry_perm (l.groups row.poolSpawnId)
    ⟨row.spawnId, |row.chance|⟩ (maxLimit row.poolSpawnId)
  constructor
  · intro mother child
    simp only [PoolLinks.addRow, hnew, Option.isSome_none, Bool.false_eq_true, if_false]
    by_cases hmother : mother = row.poolSpawnId
    · subst hmother
      rw [update_self, hperm.mem_iff, mem_cons, h.mem_guids]
      by_cases hchild : child = row.spawnId
      · simp [hchild]
      · simp [hchild]
    · rw [update_of_ne hmother, h.mem_guids]
      by_cases hchild : child = row.spawnId
      · rw [hchild, hnew, update_self]
        simp [Ne.symm hmother]
      · rw [update_of_ne hchild]
  · intro mother
    by_cases hmother : mother = row.poolSpawnId
    · subst hmother
      rw [PoolLinks.addRow]
      dsimp only
      rw [update_self, hperm.nodup_iff]
      exact nodup_cons.mpr ⟨hnot _, h.nodup _⟩
    · rw [PoolLinks.addRow]
      dsimp only
      rw [update_of_ne hmother]
      exact h.nodup mother

theorem Listed.removeLink (h : Listed l) {child mother : ℕ} (hlink : l.search child = some mother) : Listed (l.removeLink child mother) := by
  constructor
  · intro m c
    rw [PoolLinks.removeLink, cut]
    dsimp only
    by_cases hm : m = mother
    · subst hm
      rw [update_self, PoolGroup.mem_guids_removeOneRelation (h.nodup m), h.mem_guids]
      by_cases hc : c = child
      · simp [hc]
      · simp [hc]
    · rw [update_of_ne hm, h.mem_guids]
      by_cases hc : c = child
      · rw [hc, hlink, update_self]
        simp [Ne.symm hm]
      · rw [update_of_ne hc]
  · intro m
    by_cases hm : m = mother
    · subst hm
      rw [PoolLinks.removeLink]
      dsimp only
      rw [update_self]
      exact PoolGroup.nodup_guids_removeOneRelation (h.nodup m) child
    · rw [PoolLinks.removeLink]
      dsimp only
      rw [update_of_ne hm]
      exact h.nodup m

/-! ### The check -/

/-- The maps agree, and links are missing only from cycles of the mothers that the rows give. -/
structure Checked (mother : ℕ → Option ℕ) (l : PoolLinks) : Prop where
  listed : l.Listed
  cuts : Cuts mother l.search

variable {mother : ℕ → Option ℕ}

/-- **A round of the check** comes to an end and leaves the chain of its pool with an end. -/
theorem checkPool_spec (h : Checked mother l)
    {keys : Finset ℕ} (hkeys : ∀ c m, mother c = some m → c ∈ keys) {fuel : ℕ}
    (hfuel : keys.card < fuel) (poolId : ℕ) :
    ∃ l', l.checkPool fuel poolId = some l' ∧ Checked mother l' ∧ Ends l'.search poolId ∧
      ∀ p, Ends l.search p → Ends l'.search p := by
  obtain ⟨found, hfound⟩ := walk_isSome (fun c m hcm => hkeys c m (h.cuts.link hcm))
    nodup_nil (forall_mem_nil _) (a := poolId) not_mem_nil hfuel
  unfold checkPool
  rw [hfound, Option.map_some]
  cases found with
  | none => exact ⟨l, rfl, h, ends_of_walk_none hfound, fun p hp => hp⟩
  | some child =>
    obtain ⟨hcycle, hends⟩ := ends_of_walk_some hfound (forall_mem_nil _)
    obtain ⟨m, hm, -⟩ := id hcycle
    refine ⟨l.removeLink child m, ?_, ⟨h.listed.removeLink hm, h.cuts.cut hcycle⟩, hends, ?_⟩
    · dsimp only
      rw [hm]
    · exact fun p hp => hp.mono fun _ _ => cut_link

/-- **All rounds of the check**. -/
theorem foldlM_checkPool_spec {keys : Finset ℕ} (hkeys : ∀ c m, mother c = some m → c ∈ keys)
    {fuel : ℕ} (hfuel : keys.card < fuel) (order : List ℕ) (h : Checked mother l) :
    ∃ l', order.foldlM (checkPool fuel) l = some l' ∧ Checked mother l' ∧
      (∀ p ∈ order, Ends l'.search p) ∧ ∀ p, Ends l.search p → Ends l'.search p := by
  induction order generalizing l with
  | nil => exact ⟨l, rfl, h, forall_mem_nil _, fun p hp => hp⟩
  | cons poolId order ih =>
    obtain ⟨l₁, hcheck, hchecked₁, hends, hkeep₁⟩ := checkPool_spec h hkeys hfuel poolId
    obtain ⟨l', hfold, hchecked, hall, hkeep⟩ := ih hchecked₁
    refine ⟨l', ?_, hchecked, ?_, fun p hp => hkeep p (hkeep₁ p hp)⟩
    · rw [foldlM_cons, hcheck]
      exact hfold
    · exact forall_mem_cons.mpr ⟨hkeep poolId hends, hall⟩

end PoolLinks

/-! ### Nested calls -/

section Stable

variable {F : Forest} {p : ℕ}

theorem despawnAllObjects_congr {despawn despawn' : ActivePoolData → ℕ → ActivePoolData}
    (h : ∀ d, ∀ child ∈ F.members .pool p, despawn d child = despawn' d child)
    (d : ActivePoolData) (kind : Kind) :
    despawnAllObjects F despawn p d kind = despawnAllObjects F despawn' p d kind := by
  refine foldl_ext _ _ d fun d o ho => ?_
  cases kind with
  | creature | gameobject => rfl
  | pool =>
    rw [despawnObject, despawnObject, despawn1Object, despawn1Object,
      h d o.guid (Forest.mem_members.mpr ⟨o, ho, rfl⟩)]

/-- **`DespawnPool` comes to an end**: more fuel than the rank changes nothing. -/
theorem despawnPool_stable {fuel fuel' : ℕ} (h : F.rank p < fuel) (h' : F.rank p < fuel')
    (d : ActivePoolData) : despawnPool F fuel d p = despawnPool F fuel' d p := by
  induction fuel generalizing fuel' d p with
  | zero => exact absurd h (Nat.not_lt_zero _)
  | succ fuel ih =>
    obtain _ | fuel' := fuel'
    · exact absurd h' (Nat.not_lt_zero _)
    · refine foldl_ext _ _ d fun d kind _ => despawnAllObjects_congr ?_ d kind
      intro d child hchild
      have hlt := F.rank_lt_of_mem hchild
      exact ih (by omega) (by omega) d

theorem spawnCandidates_congr {R : Random} {spawn spawn' : State → ℕ → State}
    (h : ∀ s, ∀ child ∈ F.members .pool p, spawn s child = spawn' s child) (kind : Kind)
    (s : State) : spawnCandidates F R spawn kind p s = spawnCandidates F R spawn' kind p s := by
  unfold spawnCandidates
  dsimp only
  split_ifs with hnone
  · rfl
  · rfl
  · refine foldl_ext _ _ _ fun s' o ho => ?_
    have hpos := Nat.pos_of_ne_zero fun heq => hnone (Or.inl heq)
    have hmem := (rollObjects_spec R _ _ _ hpos).1.subset ho
    cases kind with
    | creature | gameobject => rfl
    | pool => exact h _ _ (mem_candidates hmem).1

/-- **`SpawnPool` comes to an end**: more fuel than the rank changes nothing. -/
theorem spawnPool_stable (R : Random) {fuel fuel' : ℕ} (h : F.rank p < fuel)
    (h' : F.rank p < fuel') (s : State) : spawnPool F R fuel s p = spawnPool F R fuel' s p := by
  induction fuel generalizing fuel' s p with
  | zero => exact absurd h (Nat.not_lt_zero _)
  | succ fuel ih =>
    obtain _ | fuel' := fuel'
    · exact absurd h' (Nat.not_lt_zero _)
    · refine foldl_ext _ _ s fun s kind _ => ?_
      have hcandidates : spawnCandidates F R (spawnPool F R fuel) kind p s =
          spawnCandidates F R (spawnPool F R fuel') kind p s := by
        refine spawnCandidates_congr (fun s child hchild => ?_) kind s
        have hlt := F.rank_lt_of_mem hchild
        exact ih (by omega) (by omega) s
      unfold spawnKind spawnObject
      rw [if_neg (not_not.mpr rfl), if_neg (not_not.mpr rfl), hcandidates]

end Stable

/-! ### Loading -/

namespace Database

variable (db : Database)

/-- The rows of pools that pass their checks. -/
def poolRows : List PoolMember := db.members.filter fun row => row.kind = .pool ∧ db.accepts row

/-- The groups and the search map before the check for circular references. -/
def readPoolPools : PoolLinks := db.poolRows.foldl (PoolLinks.addRow db.maxLimit) PoolLinks.empty

/-- The mother pool in the accepted rows. -/
def motherOf : ℕ → Option ℕ := searchRows db.poolRows .pool

/-- An order of the hash map of the templates. -/
def TemplateOrder : Type := { order : List ℕ // ∀ p, p ∈ order ↔ db.hasTemplate p = true }

/-- **Pools of pools in `LoadFromDB`**, with fuel for each walk. -/
def loadPoolPools (fuel : ℕ) (order : db.TemplateOrder) : Option PoolLinks :=
  order.1.foldlM (PoolLinks.checkPool fuel) db.readPoolPools

theorem poolRows_nodup : (db.poolRows.map (·.spawnId)).Nodup := by
  have hkey := db.members_key.sublist (filter_sublist.map _ : List.Sublist (db.poolRows.map _) _)
  refine List.Nodup.map_on (fun row hrow row' hrow' hspawn => ?_) (List.Nodup.of_map _ hkey)
  have hkind : ∀ r ∈ db.poolRows, r.kind = .pool := fun r hr =>
    (of_decide_eq_true (mem_filter.mp hr).2).1
  exact row_unique hkey hrow hrow' ((hkind row hrow).trans (hkind row' hrow').symm) hspawn

/-- What the rows make of the groups and the search map. -/
theorem readPoolPools_spec : db.readPoolPools.Listed ∧ db.readPoolPools.search = db.motherOf := by
  have hfold : ∀ (rows : List PoolMember) (l : PoolLinks), l.Listed →
      (∀ row ∈ rows, row.kind = .pool) → (rows.map (·.spawnId)).Nodup →
      (∀ row ∈ rows, l.search row.spawnId = none) →
      (rows.foldl (PoolLinks.addRow db.maxLimit) l).Listed ∧
        ∀ c, (rows.foldl (PoolLinks.addRow db.maxLimit) l).search c =
          (l.search c).or (searchRows rows .pool c) := by
    intro rows
    induction rows with
    | nil => exact fun l h _ _ _ => ⟨h, fun c => (Option.or_none).symm⟩
    | cons row rows ih =>
      intro l h hkind hnodup hnew
      obtain ⟨hfirst, hnodup⟩ := nodup_cons.mp hnodup
      obtain ⟨hnone, hnew⟩ := forall_mem_cons.mp hnew
      obtain ⟨hpool, hkind⟩ := forall_mem_cons.mp hkind
      have hsearch : (l.addRow db.maxLimit row).search =
          Function.update l.search row.spawnId (some row.poolSpawnId) := by
        rw [PoolLinks.addRow, hnone]
        rfl
      obtain ⟨hlisted, hfound⟩ := ih _ (h.addRow db.maxLimit hnone) hkind hnodup fun row' hrow' => by
        have hne : row'.spawnId ≠ row.spawnId := fun heq =>
          hfirst (mem_map.mpr ⟨row', hrow', heq⟩)
        rw [hsearch, update_of_ne hne]
        exact hnew row' hrow'
      refine ⟨hlisted, fun c => (hfound c).trans ?_⟩
      have hcons : searchRows (row :: rows) .pool c =
          if row.spawnId = c then some row.poolSpawnId else searchRows rows .pool c := by
        by_cases hc : row.spawnId = c <;> simp [searchRows, hpool, hc]
      rw [hsearch, hcons]
      by_cases hc : c = row.spawnId
      · rw [hc, update_self, if_pos rfl, hnone]
        rfl
      · rw [update_of_ne hc, if_neg (Ne.symm hc)]
  obtain ⟨hlisted, hsearch⟩ := hfold db.poolRows PoolLinks.empty
    ⟨fun _ _ => iff_of_false not_mem_nil (Option.some_ne_none _).symm, fun _ => nodup_nil⟩
    (fun row hrow => (of_decide_eq_true (mem_filter.mp hrow).2).1) db.poolRows_nodup
    fun _ _ => rfl
  exact ⟨hlisted, funext hsearch⟩

/-- The pools with a mother, and that they have a template. -/
theorem motherOf_some {child mother : ℕ} (h : db.motherOf child = some mother) :
    child ∈ (db.poolRows.map (·.spawnId)).toFinset ∧ db.hasTemplate child = true := by
  obtain ⟨row, hfind, -⟩ := Option.map_eq_some_iff.mp h
  have hrow := mem_of_find?_eq_some hfind
  obtain ⟨hpool, rfl⟩ : row.kind = .pool ∧ row.spawnId = child := by
    simpa using List.find?_some hfind
  have haccepts : db.accepts row = true := (of_decide_eq_true (mem_filter.mp hrow).2).2
  rw [accepts, hpool] at haccepts
  simp only [Bool.and_eq_true] at haccepts
  exact ⟨mem_toFinset.mpr (mem_map_of_mem hrow), haccepts.1.1.1⟩

/-- The rows that pass their checks. -/
def acceptedRows : List PoolMember := db.members.filter db.accepts

/-- The maps after loading are those of a pool manager: the groups and search maps of creatures
and gameobjects come from the rows, those of pools from the check. -/
structure Loads (l : PoolLinks) (F : Forest) : Prop where
  maxLimit : F.maxLimit = db.maxLimit
  group_pool : F.group .pool = l.groups
  search_pool : F.search .pool = l.search
  group : ∀ kind ≠ .pool, F.group kind = groupRows db.acceptedRows db.maxLimit kind
  search : ∀ kind ≠ .pool, F.search kind = searchRows db.acceptedRows kind

theorem exists_loads (h : l.Checked db.motherOf) (hends : ∀ p, Ends l.search p) :
    ∃ F, db.Loads l F := by
  obtain ⟨rank, hrank⟩ := exists_rank (fun c m hcm => (db.motherOf_some (h.cuts.link hcm)).1) hends
  have hkey : (db.acceptedRows.map fun row => (row.kind, row.spawnId)).Nodup :=
    db.members_key.sublist (filter_sublist.map _)
  refine ⟨{
    maxLimit := db.maxLimit
    group := fun kind => if kind = .pool then l.groups
      else groupRows db.acceptedRows db.maxLimit kind
    search := fun kind => if kind = .pool then l.search else searchRows db.acceptedRows kind
    rank := rank
    mem_guids := fun kind p guid => ?_
    nodup := fun kind p => ?_
    rank_lt := hrank
    maxLimit_lt := db.maxLimit_lt_two_pow
  }, rfl, rfl, rfl, fun _ hk => if_neg hk, fun _ hk => if_neg hk⟩
  · split_ifs with hk
    · exact h.listed.mem_guids p guid
    · exact mem_guids_groupRows hkey _ _ _ _
  · split_ifs with hk
    · exact h.listed.nodup p
    · exact nodup_guids_groupRows hkey _ _ _

/-- **No cycle of mothers is left**. Whatever the order of the templates, the check comes to an
end; after it every chain of mothers ends. One link of each cycle has been removed and no other
link, and the groups list what the search map says. `SpawnPool` and `DespawnPool` call themselves
only for pools below, and come to an end. -/
theorem loadPoolPools_spec (order : db.TemplateOrder) (more : ℕ) :
    ∃ l, db.loadPoolPools (db.members.length + 1 + more) order = some l ∧
      (∀ p, Ends l.search p) ∧
      (∀ p, OnCycle db.motherOf p → ∃! q, Leads db.motherOf p q ∧ l.search q ≠ db.motherOf q) ∧
      (∀ p, l.search p = db.motherOf p ∨ l.search p = none ∧ OnCycle db.motherOf p) ∧
      (∀ m child, child ∈ (l.groups m).guids ↔ l.search child = some m) ∧
      WellFounded (fun child m => child ∈ (l.groups m).guids) ∧
      ∃ F, db.Loads l F ∧ ∀ p fuel,
        (∀ d, despawnPool F (F.rank p + 1 + fuel) d p = despawnPool F (F.rank p + 1) d p) ∧
          ∀ R s, spawnPool F R (F.rank p + 1 + fuel) s p = spawnPool F R (F.rank p + 1) s p := by
  obtain ⟨hlisted, hsearch⟩ := db.readPoolPools_spec
  have hcard : (db.poolRows.map (·.spawnId)).toFinset.card < db.members.length + 1 + more := by
    have hle := toFinset_card_le (db.poolRows.map (·.spawnId))
    have hrows : db.poolRows.length ≤ db.members.length := length_filter_le _ _
    rw [length_map] at hle
    omega
  obtain ⟨l, hl, hchecked, hall, hkeep⟩ := PoolLinks.foldlM_checkPool_spec
    (fun c m hcm => (db.motherOf_some hcm).1) hcard order.1
    (l := db.readPoolPools) ⟨hlisted, hsearch ▸ Cuts.refl _⟩
  have hends : ∀ p, Ends l.search p := by
    intro p
    by_cases hp : db.hasTemplate p = true
    · exact hall p ((order.2 p).mpr hp)
    · refine hkeep p (.intro p fun m hm => ?_)
      rw [hsearch] at hm
      exact absurd (db.motherOf_some hm).2 hp
  refine ⟨l, hl, hends, fun p hp => hchecked.cuts.existsUnique hends hp, hchecked.cuts.kept,
    hchecked.listed.mem_guids, ?_, ?_⟩
  · obtain ⟨F, hF⟩ := db.exists_loads hchecked hends
    refine Subrelation.wf (fun {child m} hmem => ?_) (InvImage.wf F.rank Nat.lt_wfRel.wf)
    refine F.rank_lt child m ?_
    rw [hF.search_pool]
    exact (hchecked.listed.mem_guids m child).mp hmem
  · obtain ⟨F, hF⟩ := db.exists_loads hchecked hends
    refine ⟨F, hF, fun p fuel => ⟨fun d => ?_, fun R s => ?_⟩⟩
    · exact despawnPool_stable (by omega) (by omega) d
    · exact spawnPool_stable R (by omega) (by omega) s

end Database

end Pools

end IscServer
