import IscServer.Library.Tally
import IscServer.Pools.PoolMgr

/-!
# The Counters of Spawn Pools

The counter of a pool should be the number of its active members and stay within the limit
(`Sound`). Activating a member of a pool keeps this, provided the pool is allowed to have active
members: it has no mother, or it is active itself (`Spawnable`). Otherwise the counter that is
made for the pool turns it into an active member of its mother, and nobody has counted it there.

Spawning and despawning recurse into child pools. Both change members of pools of small rank
only (`SameAbove`), so that a pool whose children are being spawned sees just the changes that it
makes itself.

## Main results

* `Sound.activateObject`, `Sound.removeObject`: one member becomes active or inactive.
* `despawnPool_spec`: **a despawned pool has no active member left**, and all counters are sound.
-/

namespace IscServer

open List

namespace Pools

open ActivePoolData

variable {F : Forest} {R : Random}

/-! ### Counting active members -/

/-- The number of active members of a pool, of all kinds together. -/
def Forest.activeCount (F : Forest) (d : ActivePoolData) (poolId : ℕ) : ℕ :=
  ([.creature, .gameobject, .pool].map fun kind =>
    (F.members kind poolId).countP (d.isActiveObject kind)).sum

/-- The bookkeeping is right. -/
structure Sound (F : Forest) (d : ActivePoolData) : Prop where
  balanced : ∀ poolId, d.getActiveObjectCount poolId = F.activeCount d poolId
  capped : ∀ poolId, d.getActiveObjectCount poolId ≤ F.maxLimit poolId

/-- A pool that may have active members. -/
def Spawnable (F : Forest) (d : ActivePoolData) (poolId : ℕ) : Prop :=
  F.search .pool poolId = none ∨ d.isActiveObject .pool poolId = true

variable {kind : Kind} {guid p : ℕ}

theorem Forest.pool_unique {q : ℕ} (hp : guid ∈ F.members kind p) (hq : guid ∈ F.members kind q) :
    p = q :=
  Option.some.inj (((F.mem_guids kind p guid).mp hp).symm.trans ((F.mem_guids kind q guid).mp hq))

theorem Forest.rank_lt_of_mem {child : ℕ} (h : child ∈ F.members .pool p) :
    F.rank child < F.rank p :=
  F.rank_lt child p ((F.mem_guids .pool p child).mp h)

/-- One member of one kind changes from inactive to active, all others stay as they are. -/
structure TurnsOn (F : Forest) (d d' : ActivePoolData) (kind : Kind) (guid : ℕ) : Prop where
  was : d.isActiveObject kind guid = false
  now : d'.isActiveObject kind guid = true
  others : ∀ kind' p guid', guid' ∈ F.members kind' p → (kind', guid') ≠ (kind, guid) →
    d'.isActiveObject kind' guid' = d.isActiveObject kind' guid'

variable {d d' : ActivePoolData}

theorem TurnsOn.countP (h : TurnsOn F d d' kind guid) (hguid : guid ∈ F.members kind p)
    (kind' : Kind) (q : ℕ) :
    (F.members kind' q).countP (d'.isActiveObject kind') =
      (F.members kind' q).countP (d.isActiveObject kind') +
        if kind' = kind ∧ q = p then 1 else 0 := by
  split_ifs with heq
  · obtain ⟨rfl, rfl⟩ := heq
    refine (Tally.countP_switch_off (F.nodup _ _) hguid h.now h.was ?_).symm
    intro x hx hne
    exact (h.others kind' q x hx fun heq => hne (Prod.mk.inj heq).2).symm
  · refine countP_congr ?_
    intro x hx
    rw [h.others kind' q x hx]
    rintro ⟨rfl, rfl⟩
    exact heq ⟨rfl, F.pool_unique hx hguid⟩

/-- The active members of the pool of the changed member are one more. -/
theorem TurnsOn.activeCount (h : TurnsOn F d d' kind guid) (hguid : guid ∈ F.members kind p) (q : ℕ) :
    F.activeCount d' q = F.activeCount d q + if q = p then 1 else 0 := by
  simp only [Forest.activeCount, map_cons, map_nil, sum_cons, h.countP hguid]
  cases kind <;> simp only [reduceCtorEq, false_and, true_and, if_false] <;> omega

/-! ### Activating and removing one member -/

section

variable (d : ActivePoolData)

theorem isActiveObject_setCount (p n : ℕ) (kind : Kind) (guid : ℕ) :
    (d.setCount p n).isActiveObject kind guid =
      (d.isActiveObject kind guid || decide (kind = .pool ∧ guid = p)) := by
  cases kind with
  | creature => exact (Bool.or_false _).symm
  | gameobject => exact (Bool.or_false _).symm
  | pool =>
    by_cases h : guid = p
    · simp [setCount, isActiveObject, h]
    · simp [setCount, isActiveObject, h]

theorem isActiveObject_insertObject (kind kind' : Kind) (guid guid' : ℕ) :
    (d.insertObject kind guid).isActiveObject kind' guid' =
      (d.isActiveObject kind' guid' || decide ((kind', guid') = (kind, guid))) := by
  by_cases h : guid' = guid <;> cases kind <;> cases kind' <;>
    simp [insertObject, isActiveObject, h] <;> rfl

theorem isActiveObject_eraseObject (kind kind' : Kind) (guid guid' : ℕ) :
    (d.eraseObject kind guid).isActiveObject kind' guid' =
      (d.isActiveObject kind' guid' && !decide ((kind', guid') = (kind, guid))) := by
  by_cases h : guid' = guid <;> cases kind <;> cases kind' <;>
    simp [eraseObject, isActiveObject, h] <;> rfl

theorem getActiveObjectCount_setCount (p n q : ℕ) :
    (d.setCount p n).getActiveObjectCount q = if q = p then n else d.getActiveObjectCount q := by
  simp only [getActiveObjectCount, setCount, Function.update_apply]
  split_ifs <;> rfl

theorem getActiveObjectCount_insertObject (kind : Kind) (guid q : ℕ) :
    (d.insertObject kind guid).getActiveObjectCount q =
      if kind = .pool ∧ q = guid then 0 else d.getActiveObjectCount q := by
  cases kind with
  | creature => simp [insertObject, getActiveObjectCount]
  | gameobject => simp [insertObject, getActiveObjectCount]
  | pool =>
    simp only [insertObject, getActiveObjectCount, Function.update_apply, true_and]
    split_ifs <;> rfl

theorem getActiveObjectCount_eraseObject (kind : Kind) (guid q : ℕ) :
    (d.eraseObject kind guid).getActiveObjectCount q =
      if kind = .pool ∧ q = guid then 0 else d.getActiveObjectCount q := by
  cases kind with
  | creature => simp [eraseObject, getActiveObjectCount]
  | gameobject => simp [eraseObject, getActiveObjectCount]
  | pool =>
    simp only [eraseObject, getActiveObjectCount, Function.update_apply, true_and]
    split_ifs <;> rfl

end

/-- An inactive pool has the counter `0`. -/
theorem getActiveObjectCount_of_inactive (h : d.isActiveObject .pool p = false) :
    d.getActiveObjectCount p = 0 := by
  have hnone : d.spawnedPools p = none :=
    Option.isNone_iff_eq_none.mp (Option.isSome_eq_false_iff.mp h)
  rw [getActiveObjectCount, hnone]
  rfl

/-- A pool with a positive counter has an entry. -/
theorem isActiveObject_of_count_pos (h : 0 < d.getActiveObjectCount p) :
    d.isActiveObject .pool p = true := by
  by_contra hne
  have hzero := getActiveObjectCount_of_inactive (Bool.eq_false_of_not_eq_true hne)
  omega

/-- The entry of a pool that is spawnable anyway is no change for its mother. -/
theorem Spawnable.eq_of_mem {q : ℕ} (h : Spawnable F d p) (hmem : guid ∈ F.members kind q)
    (heq : kind = .pool ∧ guid = p) : d.isActiveObject kind guid = true := by
  obtain ⟨rfl, rfl⟩ := heq
  rcases h with hnone | hactive
  · rw [(F.mem_guids .pool q guid).mp hmem] at hnone
    exact absurd hnone (Option.some_ne_none _)
  · exact hactive

theorem TurnsOn.activateObject (hp : Spawnable F d p)
    (hinactive : d.isActiveObject kind guid = false) :
    TurnsOn F d (d.activateObject kind guid p) kind guid := by
  refine ⟨hinactive, ?_, ?_⟩
  · simp [ActivePoolData.activateObject, isActiveObject_setCount, isActiveObject_insertObject]
  · intro kind' q guid' hmem hne
    rw [ActivePoolData.activateObject, isActiveObject_setCount, isActiveObject_insertObject,
      decide_eq_false hne, Bool.or_false]
    by_cases heq : kind' = .pool ∧ guid' = p
    · rw [hp.eq_of_mem hmem heq, Bool.true_or]
    · rw [decide_eq_false heq, Bool.or_false]

/-- **Activating** an inactive member of a spawnable pool with a free slot. -/
theorem Sound.activateObject (h : Sound F d) (hp : Spawnable F d p)
    (hguid : guid ∈ F.members kind p) (hinactive : d.isActiveObject kind guid = false)
    (hfree : d.getActiveObjectCount p < F.maxLimit p) :
    Sound F (d.activateObject kind guid p) ∧
      (d.activateObject kind guid p).getActiveObjectCount p = d.getActiveObjectCount p + 1 := by
  have hturns := TurnsOn.activateObject hp hinactive
  have hself : ¬ (kind = .pool ∧ p = guid) := by
    rintro ⟨rfl, rfl⟩
    exact absurd (F.rank_lt_of_mem hguid) (Nat.lt_irrefl _)
  have hcount : ∀ q, (d.activateObject kind guid p).getActiveObjectCount q =
      d.getActiveObjectCount q + if q = p then 1 else 0 := by
    intro q
    rw [ActivePoolData.activateObject, getActiveObjectCount_setCount,
      getActiveObjectCount_insertObject, getActiveObjectCount_insertObject, if_neg hself]
    by_cases hq : q = p
    · rw [if_pos hq, if_pos hq, hq]
    · split_ifs with hchild
      · obtain ⟨rfl, rfl⟩ := hchild
        exact (getActiveObjectCount_of_inactive hinactive).symm
      · rfl
  refine ⟨⟨?_, ?_⟩, ?_⟩
  · intro q
    rw [hcount, hturns.activeCount hguid, h.balanced]
  · intro q
    have hcapped := h.capped q
    rw [hcount]
    split_ifs with hq
    · subst hq
      exact hfree
    · exact hcapped
  · rw [hcount, if_pos rfl]

section

variable (h : Sound F d) (hguid : guid ∈ F.members kind p)
  (hactive : d.isActiveObject kind guid = true)
include h hguid hactive

/-- An active member is counted. -/
theorem Sound.count_pos : 0 < d.getActiveObjectCount p := by
  have hpos : 0 < (F.members kind p).countP (d.isActiveObject kind) :=
    countP_pos_iff.mpr ⟨guid, hguid, hactive⟩
  rw [h.balanced, Forest.activeCount]
  cases kind <;> simp only [map_cons, sum_cons] <;> omega

/-- **Removing** an active member that has no active members itself. -/
theorem Sound.removeObject (hempty : kind = .pool → d.getActiveObjectCount guid = 0) :
    Sound F (d.removeObject kind guid p) ∧
      TurnsOn F (d.removeObject kind guid p) d kind guid := by
  have hpos := h.count_pos hguid hactive
  have hself : ¬ (kind = .pool ∧ p = guid) := by
    rintro ⟨rfl, rfl⟩
    exact absurd (F.rank_lt_of_mem hguid) (Nat.lt_irrefl _)
  have hturns : TurnsOn F (d.removeObject kind guid p) d kind guid := by
    refine ⟨?_, hactive, ?_⟩
    · have hself' : ¬ (kind = .pool ∧ guid = p) := fun heq => hself ⟨heq.1, heq.2.symm⟩
      simp [ActivePoolData.removeObject, isActiveObject_setCount, isActiveObject_eraseObject, hself']
    · intro kind' q guid' hmem hne
      rw [ActivePoolData.removeObject, isActiveObject_setCount, isActiveObject_eraseObject,
        decide_eq_false hne, Bool.not_false, Bool.and_true]
      by_cases heq : kind' = .pool ∧ guid' = p
      · have hentry := isActiveObject_of_count_pos hpos
        rw [heq.1, heq.2, hentry, Bool.true_or]
      · rw [decide_eq_false heq, Bool.or_false]
  have hcount : ∀ q, (d.removeObject kind guid p).getActiveObjectCount q =
      d.getActiveObjectCount q - if q = p then 1 else 0 := by
    intro q
    rw [ActivePoolData.removeObject, getActiveObjectCount_setCount,
      getActiveObjectCount_eraseObject, getActiveObjectCount_eraseObject, if_neg hself]
    by_cases hq : q = p
    · rw [if_pos hq, if_pos hq, hq]
    · split_ifs with hchild
      · rw [hchild.2, hempty hchild.1]
      · rfl
  refine ⟨⟨?_, ?_⟩, hturns⟩
  · intro q
    have hactiveCount := hturns.activeCount hguid q
    have hbalanced := h.balanced q
    rw [hcount]
    omega
  · intro q
    have hcapped := h.capped q
    rw [hcount]
    omega

end

/-! ### Despawning -/

/-- The members of the pools of rank above `n` are active in both states or in none. -/
def SameAbove (F : Forest) (n : ℕ) (d d' : ActivePoolData) : Prop :=
  ∀ kind p guid, guid ∈ F.members kind p → n < F.rank p →
    d'.isActiveObject kind guid = d.isActiveObject kind guid

theorem SameAbove.refl (n : ℕ) (d : ActivePoolData) : SameAbove F n d d :=
  fun _ _ _ _ _ => rfl

variable {n : ℕ} {d'' : ActivePoolData}

theorem SameAbove.trans (h : SameAbove F n d d') (h' : SameAbove F n d' d'') :
    SameAbove F n d d'' := by
  intro kind p guid hmem hrank
  rw [h' kind p guid hmem hrank, h kind p guid hmem hrank]

theorem SameAbove.mono {m : ℕ} (hmn : m ≤ n) (h : SameAbove F m d d') : SameAbove F n d d' :=
  fun kind p guid hmem hrank => h kind p guid hmem (Nat.lt_of_le_of_lt hmn hrank)

/-- A change of one member of `p` is none above the rank of `p`. -/
theorem TurnsOn.sameAbove (h : TurnsOn F d d' kind guid) (hguid : guid ∈ F.members kind p) :
    SameAbove F (F.rank p) d d' := by
  intro kind' q guid' hmem hrank
  refine h.others kind' q guid' hmem ?_
  intro heq
  obtain ⟨rfl, rfl⟩ := Prod.mk.inj heq
  rw [F.pool_unique hmem hguid] at hrank
  exact Nat.lt_irrefl _ hrank

theorem SameAbove.symm (h : SameAbove F n d d') : SameAbove F n d' d :=
  fun kind p guid hmem hrank => (h kind p guid hmem hrank).symm

/-- A pool of rank at most `n` is spawnable in both states or in none. -/
theorem SameAbove.spawnable (h : SameAbove F n d d') (hp : n ≤ F.rank p) (hspawn : Spawnable F d p) :
    Spawnable F d' p := by
  cases hmother : F.search .pool p with
  | none => exact Or.inl hmother
  | some mother =>
    have hmem : p ∈ F.members .pool mother := (F.mem_guids _ _ _).mpr hmother
    have hrank := F.rank_lt_of_mem hmem
    rcases hspawn with hnone | hactive
    · rw [hmother] at hnone
      exact absurd hnone (Option.some_ne_none _)
    · exact Or.inr ((h .pool mother p hmem (Nat.lt_of_le_of_lt hp hrank)).trans hactive)

/-- What despawning may do to the state: members of pools up to rank `n` become inactive. -/
structure Despawned (F : Forest) (n : ℕ) (d d' : ActivePoolData) : Prop where
  sound : Sound F d'
  shrinks : ∀ kind p guid, guid ∈ F.members kind p → d'.isActiveObject kind guid = true →
    d.isActiveObject kind guid = true
  same : SameAbove F n d d'

theorem Despawned.trans (h : Despawned F n d d') (h' : Despawned F n d' d'') :
    Despawned F n d d'' :=
  ⟨h'.sound, fun kind p guid hmem hactive =>
    h.shrinks kind p guid hmem (h'.shrinks kind p guid hmem hactive), h.same.trans h'.same⟩

theorem Despawned.refl (h : Sound F d) : Despawned F n d d :=
  ⟨h, fun _ _ _ _ hactive => hactive, SameAbove.refl n d⟩

/-- What a pool needs from the despawning of its children. -/
def DespawnsBelow (F : Forest) (n : ℕ) (despawn : ActivePoolData → ℕ → ActivePoolData) : Prop :=
  ∀ d child, Sound F d → F.rank child < n →
    Despawned F (F.rank child) d (despawn d child) ∧ F.activeCount (despawn d child) child = 0

variable {despawn : ActivePoolData → ℕ → ActivePoolData}

/-- Despawning one member. -/
theorem despawnObject_spec (hdespawn : DespawnsBelow F (F.rank p) despawn) (h : Sound F d)
    (hguid : guid ∈ F.members kind p) :
    Despawned F (F.rank p) d (despawnObject despawn kind p d guid) ∧
      (despawnObject despawn kind p d guid).isActiveObject kind guid = false := by
  rw [despawnObject]
  split_ifs with hactive
  · have hinner : Despawned F (F.rank p) d (despawn1Object despawn kind d guid) ∧
        (despawn1Object despawn kind d guid).isActiveObject kind guid = true ∧
        (kind = .pool → (despawn1Object despawn kind d guid).getActiveObjectCount guid = 0) := by
      cases kind with
      | creature => exact ⟨Despawned.refl h, hactive, fun heq => Kind.noConfusion heq⟩
      | gameobject => exact ⟨Despawned.refl h, hactive, fun heq => Kind.noConfusion heq⟩
      | pool =>
        have hrank := F.rank_lt_of_mem hguid
        obtain ⟨hchild, hempty⟩ := hdespawn d guid h hrank
        refine ⟨⟨hchild.sound, hchild.shrinks, hchild.same.mono hrank.le⟩, ?_, ?_⟩
        · exact (hchild.same .pool p guid hguid hrank).trans hactive
        · intro _
          exact (hchild.sound.balanced guid).trans hempty
    obtain ⟨hdespawned, hstill, hempty⟩ := hinner
    obtain ⟨hsound, hturns⟩ := hdespawned.sound.removeObject hguid hstill hempty
    refine ⟨hdespawned.trans ⟨hsound, ?_, (hturns.sameAbove hguid).symm⟩, hturns.was⟩
    intro kind' q guid' hmem hactive'
    by_cases heq : (kind', guid') = (kind, guid)
    · obtain ⟨rfl, rfl⟩ := Prod.mk.inj heq
      exact hstill
    · rw [hturns.others kind' q guid' hmem heq]
      exact hactive'
  · exact ⟨Despawned.refl h, Bool.eq_false_of_not_eq_true hactive⟩

/-- Despawning a list of members. -/
theorem foldl_despawnObject_spec (hdespawn : DespawnsBelow F (F.rank p) despawn)
    {objects : List PoolObject} (hobjects : ∀ o ∈ objects, o.guid ∈ F.members kind p)
    (h : Sound F d) (hd' : d' = objects.foldl (fun d o => despawnObject despawn kind p d o.guid) d) :
    Despawned F (F.rank p) d d' ∧ ∀ o ∈ objects, d'.isActiveObject kind o.guid = false := by
  induction objects generalizing d with
  | nil =>
    rw [hd']
    exact ⟨Despawned.refl h, fun o ho => absurd ho not_mem_nil⟩
  | cons o objects ih =>
    have ho := hobjects o mem_cons_self
    obtain ⟨hfirst, hinactive⟩ := despawnObject_spec hdespawn h ho
    obtain ⟨hrest, hothers⟩ := ih (fun o' ho' => hobjects o' (mem_cons_of_mem _ ho'))
      hfirst.sound hd'
    refine ⟨hfirst.trans hrest, ?_⟩
    intro o' ho'
    rcases mem_cons.mp ho' with rfl | ho'
    · by_contra hne
      have hback := hrest.shrinks kind p o'.guid ho (Bool.eq_true_of_not_eq_false hne)
      rw [hinactive] at hback
      exact Bool.false_ne_true hback
    · exact hothers o' ho'

theorem Forest.mem_members :
    guid ∈ F.members kind p ↔ ∃ o ∈ (F.group kind p).objects, o.guid = guid :=
  mem_map

theorem despawnAllObjects_spec (hdespawn : DespawnsBelow F (F.rank p) despawn) (h : Sound F d)
    (kind : Kind) :
    Despawned F (F.rank p) d (despawnAllObjects F despawn p d kind) ∧
      ∀ guid ∈ F.members kind p,
        (despawnAllObjects F despawn p d kind).isActiveObject kind guid = false := by
  obtain ⟨hdespawned, hinactive⟩ := foldl_despawnObject_spec hdespawn
    (fun o ho => Forest.mem_members.mpr ⟨o, ho, rfl⟩) h rfl
  refine ⟨hdespawned, ?_⟩
  intro guid hguid
  obtain ⟨o, ho, rfl⟩ := Forest.mem_members.mp hguid
  exact hinactive o ho

/-- Members that are inactive stay so. -/
theorem Despawned.inactive (h : Despawned F n d d')
    (hinactive : ∀ guid ∈ F.members kind p, d.isActiveObject kind guid = false) :
    ∀ guid ∈ F.members kind p, d'.isActiveObject kind guid = false := by
  intro guid hguid
  by_contra hne
  have hback := h.shrinks kind p guid hguid (Bool.eq_true_of_not_eq_false hne)
  rw [hinactive guid hguid] at hback
  exact Bool.false_ne_true hback

theorem Forest.activeCount_eq_zero
    (h : ∀ kind, ∀ guid ∈ F.members kind p, d.isActiveObject kind guid = false) :
    F.activeCount d p = 0 := by
  have hzero : ∀ kind, (F.members kind p).countP (d.isActiveObject kind) = 0 := by
    intro kind
    rw [countP_eq_zero]
    intro guid hguid
    rw [h kind guid hguid]
    exact Bool.false_ne_true
  simp only [Forest.activeCount, map_cons, map_nil, sum_cons, sum_nil, hzero, Nat.add_zero]

/-- **A despawned pool** has no active member left, and nothing above it has changed. -/
theorem despawnPool_spec (F : Forest) (fuel : ℕ) : DespawnsBelow F fuel (despawnPool F fuel) := by
  induction fuel with
  | zero => exact fun d child h hrank => absurd hrank (Nat.not_lt_zero _)
  | succ fuel ih =>
    intro d p h hrank
    have hbelow : DespawnsBelow F (F.rank p) (despawnPool F fuel) := by
      intro d' child h' hchild
      exact ih d' child h' (Nat.lt_of_lt_of_le hchild (Nat.le_of_lt_succ hrank))
    obtain ⟨hcreature, hcreatures⟩ := despawnAllObjects_spec hbelow h .creature
    obtain ⟨hgameobject, hgameobjects⟩ := despawnAllObjects_spec hbelow hcreature.sound .gameobject
    obtain ⟨hpool, hpools⟩ := despawnAllObjects_spec hbelow hgameobject.sound .pool
    refine ⟨hcreature.trans (hgameobject.trans hpool), ?_⟩
    refine Forest.activeCount_eq_zero fun kind => ?_
    cases kind with
    | creature => exact (hgameobject.trans hpool).inactive hcreatures
    | gameobject => exact hpool.inactive hgameobjects
    | pool => exact hpools

end Pools

end IscServer
