import IscServer.Pools.PoolSound

/-!
# Spawning Pools

`SpawnObject` rolls for one chanced candidate, takes it out of the list of candidates by swapping
it with the last one, and fills the remaining slots with a random selection of the rest. Whatever
the rolls are, it activates as many distinct inactive members as there are free slots, or all of
them (`rollObjects_spec`).

## Main results

* `spawnPool_spec`: a spawn keeps all counters sound, and right after each `SpawnPool<T>` the
  pool is full or has no inactive member of that kind (`Full`).
-/

namespace IscServer

open List

namespace Pools

open ActivePoolData

open scoped List

variable {F : Forest} {R : Random}

/-! ### Choosing members -/

variable {candidates : List PoolObject}

theorem rollChanced_lt {roll : ℚ} {i : ℕ} (h : rollChanced roll candidates = some i) : i < candidates.length := by
  induction candidates generalizing roll i with
  | nil => exact absurd h (Option.some_ne_none _).symm
  | cons candidate candidates ih =>
    have hlater : ∀ {roll' : ℚ}, (rollChanced roll' candidates).map (· + 1) = some i →
        i < (candidate :: candidates).length := by
      intro roll' hmap
      obtain ⟨j, hj, rfl⟩ := Option.map_eq_some_iff.mp hmap
      exact Nat.succ_lt_succ (ih hj)
    rw [rollChanced] at h
    split_ifs at h
    · obtain rfl := Option.some.inj h
      exact Nat.succ_pos _
    · exact hlater h
    · exact hlater h

/-- Swapping an element with the last one and dropping it there takes it out of the list. -/
theorem swapPop_perm {i : ℕ} (hi : i < candidates.length) :
    candidates[i] :: swapPop candidates i ~ candidates := by
  obtain ⟨init, last, rfl⟩ : ∃ init last, candidates = init ++ [last] := by
    rcases eq_nil_or_concat candidates with rfl | ⟨init, last, heq⟩
    · exact absurd hi (Nat.not_lt_zero _)
    · exact ⟨init, last, by rw [heq, concat_eq_append]⟩
  have hlast : (init ++ [last]).getLastD ⟨0, 0⟩ = last := by simp
  rw [swapPop, hlast]
  rw [length_append, length_singleton] at hi
  by_cases heq : i = init.length
  · subst heq
    simp only [getElem_concat_length, set_append_right _ _ (Nat.le_refl _),
      Nat.sub_self, set_cons_zero, dropLast_concat]
    exact (perm_append_singleton last init).symm
  · have hlt : i < init.length := by omega
    rw [set_append_left _ _ hlt, dropLast_concat, getElem_append_left hlt,
      set_eq_take_append_cons_drop, if_pos hlt]
    have hsplit : init.take i ++ init[i] :: init.drop (i + 1) = init := by simp
    calc init[i] :: (init.take i ++ last :: init.drop (i + 1))
        ~ init[i] :: last :: (init.take i ++ init.drop (i + 1)) := perm_middle.cons _
      _ ~ last :: init[i] :: (init.take i ++ init.drop (i + 1)) := List.Perm.swap _ _ _
      _ ~ last :: (init.take i ++ init[i] :: init.drop (i + 1)) := perm_middle.symm.cons _
      _ ~ init ++ [last] := by
          rw [hsplit]
          exact (perm_append_singleton last init).symm

/-- The roll for a chanced object splits the candidates. -/
theorem takeChanced_perm (roll : ℚ) (candidates : List PoolObject) :
    (takeChanced roll candidates).1 ++ (takeChanced roll candidates).2 ~ candidates ∧
      (takeChanced roll candidates).1.length ≤ 1 := by
  rw [takeChanced]
  cases hroll : rollChanced roll candidates with
  | none => exact ⟨List.Perm.refl _, Nat.zero_le _⟩
  | some i =>
    have hi := rollChanced_lt hroll
    simp only [List.getElem?_eq_getElem hi]
    exact ⟨swapPop_perm hi, Nat.le_refl _⟩

/-- `RandomResize` keeps exactly the requested number of elements. -/
theorem randomResize_spec (R : Random) (draw : ℕ) (objects : List PoolObject) {keep : ℕ}
    (hkeep : keep ≤ objects.length) :
    randomResize R draw objects keep <+ objects ∧
      (randomResize R draw objects keep).length = keep := by
  induction objects generalizing draw keep with
  | nil =>
    obtain rfl : keep = 0 := Nat.le_zero.mp hkeep
    exact ⟨List.Sublist.refl _, rfl⟩
  | cons o objects ih =>
    have hone := R.one_le_urand draw (objects.length + 1)
    have hle := R.urand_le draw (objects.length + 1) (Nat.succ_pos _)
    rw [length_cons] at hkeep
    rw [randomResize]
    split_ifs with hdraw
    · obtain ⟨hsub, hlength⟩ := ih (draw + 1) (by omega : keep - 1 ≤ objects.length)
      refine ⟨hsub.cons_cons o, ?_⟩
      rw [length_cons, hlength]
      omega
    · obtain ⟨hsub, hlength⟩ := ih (draw + 1) (by omega : keep ≤ objects.length)
      exact ⟨hsub.cons o, hlength⟩

theorem fillSlots_spec (R : Random) (draw : ℕ) (candidates : List PoolObject) (count : ℕ) :
    (fillSlots R draw candidates count).1 <+ candidates ∧
      (fillSlots R draw candidates count).1.length = min count candidates.length := by
  rw [fillSlots]
  split_ifs with hfill hmany
  · obtain ⟨hsub, hlength⟩ := randomResize_spec R draw candidates hmany.le
    exact ⟨hsub, by rw [hlength, Nat.min_eq_left hmany.le]⟩
  · exact ⟨List.Sublist.refl _, by rw [Nat.min_eq_right (Nat.le_of_not_lt hmany)]⟩
  · refine ⟨nil_sublist _, ?_⟩
    by_cases hnil : candidates = []
    · rw [hnil, length_nil, Nat.min_zero]
    · have hzero : count = 0 := by
        by_contra hne
        exact hfill ⟨Nat.pos_of_ne_zero hne, hnil⟩
      rw [hzero, Nat.zero_min, length_nil]

/-- **The choice of the objects to spawn**, whatever the rolls are: distinct candidates, as many
as there are slots or candidates. -/
theorem rollObjects_spec (R : Random) (draw : ℕ) (group : PoolGroup)
    (candidates : List PoolObject) {count : ℕ} (hcount : 0 < count) :
    (rollObjects R draw group candidates count).1 <+~ candidates ∧
      (rollObjects R draw group candidates count).1.length = min count candidates.length := by
  rw [rollObjects]
  set chanced := if group.explicitlyChanced.isEmpty = true then ([], candidates)
    else takeChanced (R.randChance draw) candidates with heq
  have hchanced : chanced.1 ++ chanced.2 ~ candidates ∧ chanced.1.length ≤ 1 := by
    split_ifs at heq
    · rw [heq]
      exact ⟨List.Perm.refl _, Nat.zero_le _⟩
    · rw [heq]
      exact takeChanced_perm _ _
  obtain ⟨hperm, hone⟩ := hchanced
  set draw' := if group.explicitlyChanced.isEmpty = true then draw else draw + 1
  obtain ⟨hsub, hlength⟩ := fillSlots_spec R draw' chanced.2 (count - chanced.1.length)
  have hall := hperm.length_eq
  rw [length_append] at hall
  constructor
  · exact ((List.Sublist.refl chanced.1).append hsub).subperm.trans hperm.subperm
  · rw [length_append, hlength]
    omega

/-! ### Spawning -/

/-- What should hold right after `SpawnPool<T>` on a pool: the pool is full, or it has no
inactive member of that kind. -/
def Full (F : Forest) (call : Kind × ℕ × ActivePoolData) : Prop :=
  F.activeCount call.2.2 call.2.1 = F.maxLimit call.2.1 ∨
    ∀ guid ∈ F.members call.1 call.2.1, call.2.2.isActiveObject call.1 guid = true

/-- All counters are right, and every `SpawnPool<T>` so far has filled its pool. -/
structure Good (F : Forest) (s : State) : Prop where
  sound : Sound F s.spawns
  full : ∀ call ∈ s.calls, Full F call

/-- What a pool needs from the spawning of its children. -/
def SpawnsBelow (F : Forest) (n : ℕ) (spawn : State → ℕ → State) : Prop :=
  ∀ s child, Good F s → F.rank child < n → Spawnable F s.spawns child →
    Good F (spawn s child) ∧ SameAbove F (F.rank child) s.spawns (spawn s child).spawns

/-- Pools whose limit fits into the `int32` that counts the free slots. -/
def Forest.Countable (F : Forest) : Prop :=
  ∀ kind p, F.members kind p ≠ [] → F.maxLimit p < 2 ^ 31

theorem SameAbove.activeCount {n p : ℕ} {d d' : ActivePoolData} (h : SameAbove F n d d')
    (hp : n < F.rank p) : F.activeCount d' p = F.activeCount d p := by
  have hcount : ∀ kind, (F.members kind p).countP (d'.isActiveObject kind) =
      (F.members kind p).countP (d.isActiveObject kind) := by
    intro kind
    refine countP_congr ?_
    intro guid hguid
    rw [h kind p guid hguid hp]
  simp only [Forest.activeCount, hcount]

variable {spawn : State → ℕ → State} {p : ℕ} {s s' : State}

variable {kind : Kind}

/-- Activating one member and spawning it: among the members of the pool only this one has
changed. -/
theorem activateAndSpawn_spec (hspawn : SpawnsBelow F (F.rank p) spawn) (h : Good F s)
    (hp : Spawnable F s.spawns p) {o : PoolObject} (ho : o.guid ∈ F.members kind p)
    (hinactive : s.spawns.isActiveObject kind o.guid = false)
    (hfree : s.spawns.getActiveObjectCount p < F.maxLimit p)
    (hs' : s' = activateAndSpawn spawn kind p s o) :
    Good F s' ∧ SameAbove F (F.rank p) s.spawns s'.spawns ∧
      s'.spawns.getActiveObjectCount p = s.spawns.getActiveObjectCount p + 1 ∧
      s'.spawns.isActiveObject kind o.guid = true ∧
      ∀ guid ∈ F.members kind p, guid ≠ o.guid →
        s'.spawns.isActiveObject kind guid = s.spawns.isActiveObject kind guid := by
  obtain ⟨hsound, hcount⟩ := h.sound.activateObject hp ho hinactive hfree
  have hturns := TurnsOn.activateObject hp hinactive
  have hsame := hturns.sameAbove ho
  have hothers : ∀ guid ∈ F.members kind p, guid ≠ o.guid →
      (s.spawns.activateObject kind o.guid p).isActiveObject kind guid =
        s.spawns.isActiveObject kind guid :=
    fun guid hguid hne => hturns.others kind p guid hguid fun heq => hne (Prod.mk.inj heq).2
  have hleaf : Good F { s with spawns := s.spawns.activateObject kind o.guid p } := ⟨hsound, h.full⟩
  subst hs'
  cases kind with
  | creature => exact ⟨hleaf, hsame, hcount, hturns.now, hothers⟩
  | gameobject => exact ⟨hleaf, hsame, hcount, hturns.now, hothers⟩
  | pool =>
    have hrank := F.rank_lt_of_mem ho
    obtain ⟨hgood, hchild⟩ := hspawn _ o.guid hleaf hrank (Or.inr hturns.now)
    have hinner : ∀ guid ∈ F.members .pool p,
        (spawn { s with spawns := s.spawns.activateObject .pool o.guid p }
          o.guid).spawns.isActiveObject .pool guid =
        (s.spawns.activateObject .pool o.guid p).isActiveObject .pool guid :=
      fun guid hguid => hchild .pool p guid hguid hrank
    refine ⟨hgood, hsame.trans (hchild.mono hrank.le), ?_, ?_, ?_⟩
    · rw [← hcount, hsound.balanced, ← hchild.activeCount hrank]
      exact hgood.sound.balanced p
    · exact (hinner o.guid ho).trans hturns.now
    · intro guid hguid hne
      exact (hinner guid hguid).trans (hothers guid hguid hne)

/-- Activating a list of distinct inactive members for which there are slots. -/
theorem foldl_activateAndSpawn_spec {spawn : State → ℕ → State} {p : ℕ}
    (hspawn : SpawnsBelow F (F.rank p) spawn) {objects : List PoolObject}
    (hnodup : (objects.map (·.guid)).Nodup) {s s' : State} (h : Good F s)
    (hp : Spawnable F s.spawns p)
    (hobjects : ∀ o ∈ objects, o.guid ∈ F.members kind p ∧
      s.spawns.isActiveObject kind o.guid = false)
    (hfree : s.spawns.getActiveObjectCount p + objects.length ≤ F.maxLimit p)
    (hs' : s' = objects.foldl (activateAndSpawn spawn kind p) s) :
    Good F s' ∧ SameAbove F (F.rank p) s.spawns s'.spawns ∧
      s'.spawns.getActiveObjectCount p = s.spawns.getActiveObjectCount p + objects.length ∧
      (∀ o ∈ objects, s'.spawns.isActiveObject kind o.guid = true) ∧
      ∀ guid ∈ F.members kind p, s.spawns.isActiveObject kind guid = true →
        s'.spawns.isActiveObject kind guid = true := by
  induction objects generalizing s with
  | nil =>
    rw [hs']
    exact ⟨h, SameAbove.refl _ _, rfl, fun o ho => absurd ho not_mem_nil,
      fun guid _ hactive => hactive⟩
  | cons o objects ih =>
    rw [length_cons] at hfree
    obtain ⟨hmem, hinactive⟩ := hobjects o mem_cons_self
    obtain ⟨hgood, hsame, hcount, hnow, hothers⟩ :=
      activateAndSpawn_spec hspawn h hp hmem hinactive (by omega) rfl
    have hfresh : ∀ o' ∈ objects, o'.guid ≠ o.guid := by
      intro o' ho' heq
      exact (nodup_cons.mp hnodup).1 (mem_map.mpr ⟨o', ho', heq⟩)
    obtain ⟨hgood', hsame', hcount', hall, hkeeps⟩ :=
      ih (nodup_cons.mp hnodup).2 hgood (hsame.spawnable (Nat.le_refl _) hp)
        (fun o' ho' => by
          obtain ⟨hmem', hinactive'⟩ := hobjects o' (mem_cons_of_mem _ ho')
          exact ⟨hmem', (hothers _ hmem' (hfresh o' ho')).trans hinactive'⟩)
        (by omega) hs'
    refine ⟨hgood', hsame.trans hsame', ?_, ?_, ?_⟩
    · rw [hcount', hcount, length_cons]
      omega
    · intro o' ho'
      rcases mem_cons.mp ho' with rfl | ho'
      · exact hkeeps _ hmem hnow
      · exact hall o' ho'
    · intro guid hguid hactive
      refine hkeeps guid hguid ?_
      by_cases heq : guid = o.guid
      · rw [heq]
        exact hnow
      · rw [hothers guid hguid heq]
        exact hactive

/-- The candidates of a kind are its inactive members. -/
theorem mem_candidates {p : ℕ} {d : ActivePoolData} {o : PoolObject}
    (ho : o ∈ (F.group kind p).objects.filter fun o => !d.isActiveObject kind o.guid) :
    o.guid ∈ F.members kind p ∧ d.isActiveObject kind o.guid = false := by
  obtain ⟨hmem, hinactive⟩ := mem_filter.mp ho
  exact ⟨Forest.mem_members.mpr ⟨o, hmem, rfl⟩, by simpa using hinactive⟩

/-- **Filling a pool** with members of one kind. -/
theorem spawnCandidates_spec (hspawn : SpawnsBelow F (F.rank p) spawn)
    (hlimit : F.maxLimit p < 2 ^ 31) (h : Good F s) (hp : Spawnable F s.spawns p ∨ F.maxLimit p = 0)
    (hs' : s' = spawnCandidates F R spawn kind p s) :
    Good F s' ∧ SameAbove F (F.rank p) s.spawns s'.spawns ∧ Full F (kind, p, s'.spawns) := by
  have hcapped := h.sound.capped p
  simp only [spawnCandidates] at hs'
  set count := (F.maxLimit p + 2 ^ 32 - s.spawns.getActiveObjectCount p) % 2 ^ 32
  split_ifs at hs' with hnone hempty
  · rw [hs']
    refine ⟨h, SameAbove.refl _ _, Or.inl ?_⟩
    have hbalanced := h.sound.balanced p
    dsimp only
    omega
  · rw [hs']
    refine ⟨h, SameAbove.refl _ _, Or.inr ?_⟩
    intro guid hguid
    obtain ⟨o, ho, rfl⟩ := Forest.mem_members.mp hguid
    by_contra hinactive
    have hmem : o ∈ (F.group kind p).objects.filter
        fun o => !s.spawns.isActiveObject kind o.guid :=
      mem_filter.mpr ⟨ho, by simpa using hinactive⟩
    rw [hempty] at hmem
    exact absurd hmem not_mem_nil
  · set candidates := (F.group kind p).objects.filter
      fun o => !s.spawns.isActiveObject kind o.guid
    obtain ⟨hsub, hlength⟩ := rollObjects_spec R s.draws (F.group kind p) candidates
      (Nat.pos_of_ne_zero fun heq => hnone (Or.inl heq))
    set rolled := rollObjects R s.draws (F.group kind p) candidates count
    have hnodup : (candidates.map (·.guid)).Nodup := (F.nodup kind p).sublist (filter_sublist.map _)
    have hdistinct : (rolled.1.map (·.guid)).Nodup := by
      obtain ⟨l, hperm, hl⟩ := hsub
      exact (hperm.map _).nodup_iff.mp (hnodup.sublist (hl.map _))
    have hspawnable : Spawnable F s.spawns p := by
      rcases hp with hp | hzero
      · exact hp
      · exact absurd (Or.inl (by omega)) hnone
    have hstart : Good F { s with draws := rolled.2 } := ⟨h.sound, h.full⟩
    obtain ⟨hgood, hsame, hfilled, hall, hkeeps⟩ := foldl_activateAndSpawn_spec hspawn
      hdistinct hstart hspawnable
      (fun o ho => mem_candidates (hsub.subset ho))
      (by dsimp only; omega) hs'
    refine ⟨hgood, hsame, ?_⟩
    by_cases hmany : count ≤ candidates.length
    · -- as many objects as slots have been activated
      refine Or.inl ?_
      rw [← hgood.sound.balanced, hfilled]
      dsimp only
      omega
    · -- all candidates have been activated
      refine Or.inr ?_
      have hperm : rolled.1 ~ candidates := hsub.perm_of_length_le (by omega)
      intro guid hguid
      obtain ⟨o, ho, rfl⟩ := Forest.mem_members.mp hguid
      by_cases hactive : s.spawns.isActiveObject kind o.guid = true
      · exact hkeeps _ hguid hactive
      · exact hall o (hperm.mem_iff.mpr (mem_filter.mpr ⟨ho, by simpa using hactive⟩))

/-- What a pool needs in order to be spawned is not lost by a change below it. -/
theorem SameAbove.spawnable_or {d d' : ActivePoolData} (h : SameAbove F (F.rank p) d d')
    (hp : Spawnable F d p ∨ F.maxLimit p = 0) : Spawnable F d' p ∨ F.maxLimit p = 0 :=
  hp.imp_left (h.spawnable (Nat.le_refl _))

/-- **`SpawnPool<T>`**, with or without a member that triggers the respawn. -/
theorem spawnKind_spec {despawn : ActivePoolData → ℕ → ActivePoolData} {triggerFrom : ℕ}
    (hspawn : SpawnsBelow F (F.rank p) spawn) (hdespawn : DespawnsBelow F (F.rank p) despawn)
    (hF : F.Countable) (h : Good F s) (hp : Spawnable F s.spawns p ∨ F.maxLimit p = 0)
    (htrigger : triggerFrom ≠ 0 → triggerFrom ∈ F.members kind p)
    (hs' : s' = spawnKind F R spawn despawn p triggerFrom s kind) :
    Good F s' ∧ SameAbove F (F.rank p) s.spawns s'.spawns := by
  have hrecord : ∀ s₁ : State, Good F s₁ → Full F (kind, p, s₁.spawns) →
      Good F { s₁ with calls := s₁.calls ++ [(kind, p, s₁.spawns)] } := by
    intro s₁ hs₁ hfull
    refine ⟨hs₁.sound, ?_⟩
    intro call hcall
    rcases mem_append.mp hcall with hcall | hcall
    · exact hs₁.full call hcall
    · rw [mem_singleton.mp hcall]
      exact hfull
  rw [spawnKind] at hs'
  by_cases hempty : (F.group kind p).isEmpty = true
  · rw [if_pos hempty] at hs'
    rw [hs']
    refine ⟨hrecord s h (Or.inr ?_), SameAbove.refl _ _⟩
    intro guid hguid
    obtain ⟨o, ho, rfl⟩ := Forest.mem_members.mp hguid
    obtain ⟨hexplicit, hequal⟩ : (F.group kind p).explicitlyChanced = [] ∧
        (F.group kind p).equalChanced = [] := by
      simpa [PoolGroup.isEmpty] using hempty
    rw [PoolGroup.objects, hexplicit, hequal] at ho
    exact absurd ho not_mem_nil
  · rw [if_neg hempty, spawnObject] at hs'
    have hmembers : F.members kind p ≠ [] := by
      intro hnil
      refine hempty ?_
      have hobjects : (F.group kind p).objects = [] := map_eq_nil_iff.mp hnil
      obtain ⟨hequal, hexplicit⟩ := append_eq_nil_iff.mp hobjects
      rw [PoolGroup.isEmpty, hequal, hexplicit]
      rfl
    set s₀ := if triggerFrom ≠ 0 then
      { s with spawns := despawnObject despawn kind p s.spawns triggerFrom } else s with hs₀
    have hcleared : Good F s₀ ∧ SameAbove F (F.rank p) s.spawns s₀.spawns := by
      split_ifs at hs₀ with htrig
      · obtain ⟨hdespawned, -⟩ := despawnObject_spec hdespawn h.sound (htrigger htrig)
        rw [hs₀]
        exact ⟨⟨hdespawned.sound, h.full⟩, hdespawned.same⟩
      · rw [hs₀]
        exact ⟨h, SameAbove.refl _ _⟩
    obtain ⟨hgood₀, hsame₀⟩ := hcleared
    obtain ⟨s₁, hs₁⟩ : ∃ s₁, s₁ = spawnCandidates F R spawn kind p s₀ := ⟨_, rfl⟩
    obtain ⟨hgood, hsame, hfull⟩ := spawnCandidates_spec hspawn (hF kind p hmembers)
      hgood₀ (hsame₀.spawnable_or hp) hs₁
    rw [← hs₁] at hs'
    rw [hs']
    exact ⟨hrecord s₁ hgood hfull, hsame₀.trans hsame⟩

/-- **Spawning a pool** keeps all counters sound, fills the pools it spawns, and changes nothing
above. -/
theorem spawnPool_spec (R : Random) (hF : F.Countable) (fuel : ℕ) :
    SpawnsBelow F fuel (spawnPool F R fuel) := by
  induction fuel with
  | zero => exact fun s child h hrank => absurd hrank (Nat.not_lt_zero _)
  | succ fuel ih =>
    intro s p h hrank hp
    have hle : F.rank p ≤ fuel := Nat.le_of_lt_succ hrank
    have hspawn : SpawnsBelow F (F.rank p) (spawnPool F R fuel) :=
      fun s' child h' hchild => ih s' child h' (Nat.lt_of_lt_of_le hchild hle)
    have hdespawn : DespawnsBelow F (F.rank p) (despawnPool F fuel) :=
      fun d child h' hchild => despawnPool_spec F fuel d child h' (Nat.lt_of_lt_of_le hchild hle)
    have hkind : ∀ (s' : State) (kind : Kind), Good F s' → SameAbove F (F.rank p) s.spawns s'.spawns →
        Good F (spawnKind F R (spawnPool F R fuel) (despawnPool F fuel) p 0 s' kind) ∧
          SameAbove F (F.rank p) s.spawns
            (spawnKind F R (spawnPool F R fuel) (despawnPool F fuel) p 0 s' kind).spawns := by
      intro s' kind h' hsame'
      obtain ⟨hgood, hsame⟩ := spawnKind_spec (R := R) hspawn hdespawn hF h'
        (hsame'.spawnable_or (Or.inl hp)) (fun hne => absurd rfl hne) rfl
      exact ⟨hgood, hsame'.trans hsame⟩
    obtain ⟨hgood₁, hsame₁⟩ := hkind s .pool h (SameAbove.refl _ _)
    obtain ⟨hgood₂, hsame₂⟩ := hkind _ .gameobject hgood₁ hsame₁
    exact hkind _ .creature hgood₂ hsame₂

end Pools

end IscServer
