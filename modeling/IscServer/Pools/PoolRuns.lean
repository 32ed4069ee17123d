import IscServer.Pools.PoolLoad
import IscServer.Pools.PoolSpawn

/-!
# Runs of the Pool Manager

Pools without a mother are spawned and despawned by the start of the server and by game events;
any member may report at any time that it is ready to respawn. `UpdatePool` then looks one level
up: if the pool of the member has a mother, the mother chooses among its child pools again.

The mother may be a child pool itself, and it may be inactive: the respawn time of a creature is
kept in the map and in the database, and it runs out whether the pools above the creature are
active or not. Then the counter of the mother is made anew, which makes it an active member of
its own mother, uncounted and beyond the limit.

## Main results

* `sound_of_run`: **as long as no respawn is reported below an inactive child pool, the counter of
  every pool is the number of its active members and within the limit, and every `SpawnPool<T>`
  fills its pool**.
* `updatePool_not_good`: a respawn reported below an inactive child pool breaks this.
-/

namespace IscServer

namespace Pools

variable {F : Forest} {R : Random}

/-- The events that occur: pools without a mother are spawned and despawned, and members report
respawns in their own pool. -/
def Op.Legal (F : Forest) : Op → Prop
  | .spawnPool poolId => F.search .pool poolId = none
  | .despawnPool poolId => F.search .pool poolId = none
  | .updatePool kind poolId guid => guid ∈ F.members kind poolId

instance (F : Forest) (op : Op) : Decidable (op.Legal F) :=
  match op with
  | .spawnPool _ => inferInstanceAs (Decidable (_ = _))
  | .despawnPool _ => inferInstanceAs (Decidable (_ = _))
  | .updatePool _ _ _ => inferInstanceAs (Decidable (_ ∈ _))

/-- The condition on a step: the pool that `UpdatePool` spawns from has no mother, or is active,
or has the limit `0`. -/
def SpawnsCounted (F : Forest) (s : State) : Op → Prop
  | .spawnPool _ => True
  | .despawnPool _ => True
  | .updatePool _ poolId _ =>
    Spawnable F s.spawns (F.updated poolId) ∨ F.maxLimit (F.updated poolId) = 0

variable {kind : Kind} {s : State}

/-- `SpawnPool<T>` with the rank of the pool as fuel. -/
theorem spawnKind_rank_spec (hF : F.Countable) {p triggerFrom : ℕ} (h : Good F s)
    (hp : Spawnable F s.spawns p ∨ F.maxLimit p = 0) (htrigger : triggerFrom ∈ F.members kind p) :
    Good F (spawnKind F R (spawnPool F R (F.rank p)) (despawnPool F (F.rank p)) p triggerFrom s
      kind) :=
  (spawnKind_spec (spawnPool_spec R hF _) (despawnPool_spec F _) hF h hp (fun _ => htrigger) rfl).1

theorem updatePool_good (hF : F.Countable) {poolId guid : ℕ} (h : Good F s)
    (hguid : guid ∈ F.members kind poolId)
    (hcounted : SpawnsCounted F s (.updatePool kind poolId guid)) :
    Good F (updatePool F R kind poolId guid s) := by
  rw [SpawnsCounted, Forest.updated] at hcounted
  rw [updatePool]
  by_cases hzero : F.isPartOfAPool .pool poolId ≠ 0
  · rw [if_pos hzero] at hcounted ⊢
    refine spawnKind_rank_spec hF h hcounted ?_
    rw [Forest.isPartOfAPool] at hzero ⊢
    cases hmother : F.search .pool poolId with
    | none =>
      rw [hmother] at hzero
      exact absurd rfl hzero
    | some mother => exact (F.mem_guids .pool mother poolId).mpr hmother
  · rw [if_neg hzero] at hcounted ⊢
    exact spawnKind_rank_spec hF h hcounted hguid

/-- **One step** keeps the bookkeeping right. -/
theorem step_good (R : Random) (hF : F.Countable) (h : Good F s) {op : Op} (hlegal : op.Legal F)
    (hcounted : SpawnsCounted F s op) : Good F (step F R s op) := by
  cases op with
  | spawnPool poolId =>
    exact (spawnPool_spec R hF _ s poolId h (Nat.lt_succ_self _) (Or.inl hlegal)).1
  | despawnPool poolId =>
    obtain ⟨hdespawned, -⟩ := despawnPool_spec F _ s.spawns poolId h.sound (Nat.lt_succ_self _)
    exact ⟨hdespawned.sound, h.full⟩
  | updatePool kind poolId guid => exact updatePool_good hF h hlegal hcounted

theorem good_empty (F : Forest) : Good F {} := by
  refine ⟨⟨?_, fun p => Nat.zero_le _⟩, fun call hcall => absurd hcall List.not_mem_nil⟩
  intro p
  refine (Forest.activeCount_eq_zero ?_).symm
  rintro (_ | _ | _) guid - <;> rfl

/-- **Pool bookkeeping over whole runs.** In a forest whose limits fit into an `int32`, after
every run of legal events with any rolls, in which every `UpdatePool` spawns from a pool that has
no mother or is active or has the limit `0`: the counter of every pool is the number of its
active members and at most its limit, and right after every `SpawnPool<T>` the pool was full or
had no inactive member of that kind. -/
theorem sound_of_run (F : Forest) (R : Random) (hF : F.Countable) (ops : List Op)
    (hlegal : ∀ op ∈ ops, op.Legal F) (hcounted : Run.Along (step F R) (SpawnsCounted F) {} ops) :
    (∀ p, (ops.foldl (step F R) {}).spawns.getActiveObjectCount p =
        F.activeCount (ops.foldl (step F R) {}).spawns p ∧
      (ops.foldl (step F R) {}).spawns.getActiveObjectCount p ≤ F.maxLimit p) ∧
    ∀ call ∈ (ops.foldl (step F R) {}).calls, Full F call := by
  have hgood : ∀ (s : State) (ops : List Op), Good F s → (∀ op ∈ ops, op.Legal F) →
      Run.Along (step F R) (SpawnsCounted F) s ops → Good F (ops.foldl (step F R) s) := by
    intro s ops h
    induction ops generalizing s with
    | nil => exact fun _ _ => h
    | cons op ops ih =>
      rintro hlegal ⟨hop, hrest⟩
      exact ih _ (step_good R hF h (hlegal op List.mem_cons_self) hop)
        (fun op' hop' => hlegal op' (List.mem_cons_of_mem _ hop')) hrest
  obtain ⟨⟨hbalanced, hcapped⟩, hfull⟩ := hgood {} ops (good_empty F) hlegal hcounted
  exact ⟨fun p => ⟨hbalanced p, hcapped p⟩, hfull⟩

/-! ### Nested pools -/

/-- Rolls that always keep the last candidates. -/
def lastRolls : Random where
  randChance _ := 100
  urand _ n := max 1 n
  one_le_urand _ _ := Nat.le_max_left _ _
  urand_le _ _ h := Nat.max_le.mpr ⟨h, Nat.le_refl _⟩

/-- Pool `1` chooses between the pools `2` and `3`, pool `2` has pool `4` as its only member.
The creatures `5` and `6` are in the pools `3` and `4`. -/
def nestedRows : List PoolMember :=
  [⟨.pool, 2, 1, 0⟩, ⟨.pool, 3, 1, 0⟩, ⟨.pool, 4, 2, 0⟩, ⟨.creature, 5, 3, 0⟩,
    ⟨.creature, 6, 4, 0⟩]

/-- These pools, each with the limit `1`. -/
def nestedForest : Forest :=
  Forest.ofRows nestedRows (fun _ => 1) (fun p => if p = 1 then 2 else if p = 2 then 1 else 0)
    (by decide) (fun _ => by decide) (by decide)

theorem nestedForest_countable : nestedForest.Countable :=
  fun _ _ _ => (by decide : 1 < 2 ^ 31)

/-- A spawn of the outer pool, a respawn in the pool that has been chosen, and the end of an
event. -/
theorem sound_of_run_nestedForest :
    let s := [Op.spawnPool 1, .updatePool .creature 3 5, .despawnPool 1].foldl
      (step nestedForest lastRolls) {}
    (∀ p, s.spawns.getActiveObjectCount p = nestedForest.activeCount s.spawns p ∧
        s.spawns.getActiveObjectCount p ≤ nestedForest.maxLimit p) ∧
      ∀ call ∈ s.calls, Full nestedForest call :=
  sound_of_run nestedForest lastRolls nestedForest_countable _ (by decide)
    ⟨trivial, Or.inl (Or.inl (by decide)), trivial, trivial⟩

/-- Pool `3` is active and pool `2` is not when creature `6` reports a respawn in pool `4`: both
child pools of pool `1` are active then, with the limit `1` and the counter `1`. -/
theorem updatePool_not_good : let ops := [Op.spawnPool 1, .updatePool .creature 4 6]
    let s := ops.foldl (step nestedForest lastRolls) {}
    nestedForest.Countable ∧ (∀ op ∈ ops, op.Legal nestedForest) ∧
      s.spawns.getActiveObjectCount 1 = 1 ∧ nestedForest.activeCount s.spawns 1 = 2 ∧
      nestedForest.maxLimit 1 = 1 := by
  refine ⟨nestedForest_countable, by decide, ?_⟩
  decide +kernel

end Pools

end IscServer
