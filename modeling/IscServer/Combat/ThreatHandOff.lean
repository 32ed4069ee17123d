import IscServer.Combat.ThreatSound

/-!
# Threat and the AI

A call of `JustStartedThreateningMe` comes out of `ProcessAIUpdates` when an entry has gone online.
`Wakes` says when this happens in `UpdateVictim`, and `HandsOver` when it happens in `ClearThreat`,
which selects a new victim once the current one is gone. In both cases the AI sees the world that
the function leaves.

## Main results

* `updateVictim_spec`: `UpdateVictim` is quiet and leaves no update behind.
* `clearThreat_spec`: `ClearThreat` frees one reference and hands over as `HandsOver` says.
-/

set_option linter.unusedSectionVars false

namespace IscServer

open List Function Option

namespace Combat

variable {U : Type} [DecidableEq U] (E : Env U)

namespace World

/-! ### Entries that wake up -/

/-- The unit that `UpdateOffline` registers for an AI update of `o`. -/
def wakesFor (t : ℕ) (w : World U) (o : U) (id : ℕ) : Option U :=
  (w.threatRefs id).bind fun r =>
    if r.owner = o ∧ r.isOffline ∧ !E.shouldBeOffline t r.owner r.victim then some
      r.victim else none

/-- An AI hears of `UpdateVictim`: an entry of its unit that was offline no longer has to be. -/
def Wakes (t : ℕ) (w : World U) (o : U) : Prop :=
  E.hasAI t o = true ∧ ∃ v id r, (w.threat o).myThreatListEntries v = some id ∧
    w.threatRefs id = some r ∧ r.isOffline = true ∧ E.shouldBeOffline t o v = false

variable (t : ℕ)

theorem needsAIUpdate_updateOffline (w : World U) (id : ℕ) (o : U) :
    ((w.updateOffline E t id).threat o).needsAIUpdate =
      (w.threat o).needsAIUpdate ++ (w.wakesFor E t o id).toList := by
  rw [updateOffline, wakesFor]
  cases hr : w.threatRefs id with
  | none => simp
  | some r =>
    cases hoff : r.isOffline <;> cases hshould : E.shouldBeOffline t r.owner r.victim <;>
      simp [hshould, hoff, touch, heapNotify, setThreatRef, registerForAIUpdate, setThreat]
    by_cases ho : o = r.owner
    · subst ho
      simp
    · simp [ho, Ne.symm ho]

variable {w : World U} {id : ℕ}

theorem threatRefs_updateOffline {t : ℕ} {id' : ℕ} (hid : id' ≠ id) :
    (w.updateOffline E t id).threatRefs id' = w.threatRefs id' := by
  rw [updateOffline]
  split
  · rfl
  · split_ifs
    · rfl
    all_goals exact update_of_ne hid _ _

/-- The units registered by the loop of `ReselectVictim`. -/
theorem needsAIUpdate_foldl (w : World U) {ids : List ℕ} (hids : ids.Nodup) (o : U) :
    ((ids.foldl (updateOffline E t) w).threat o).needsAIUpdate =
      (w.threat o).needsAIUpdate ++ ids.filterMap (w.wakesFor E t o) := by
  induction ids generalizing w with
  | nil => simp
  | cons id ids ih =>
    obtain ⟨hnot, hids⟩ := nodup_cons.mp hids
    have hsame : ids.filterMap ((w.updateOffline E t id).wakesFor E t o) =
        ids.filterMap (w.wakesFor E t o) := by
      refine filterMap_congr fun id' hmem => ?_
      have hne : id' ≠ id := fun heq => hnot (heq ▸ hmem)
      rw [wakesFor, wakesFor, threatRefs_updateOffline E hne]
    rw [foldl_cons, ih _ hids, needsAIUpdate_updateOffline, hsame, filterMap_cons]
    cases w.wakesFor E t o id <;> simp

/-- The entries of a unit, each once. -/
theorem ThreatSound.nodup_entriesOf (h : ThreatSound w) (t : ℕ) (o : U) :
    (entriesOf (E.order t) (w.threat o).myThreatListEntries).Nodup := by
  have hnodup : (E.order t).Nodup := (E.order_perm t).nodup_iff.mpr E.nodup_units
  refine List.Nodup.filterMap (fun v v' id hv hv' => ?_) hnodup
  have hkey := (h.entries o v id).mp hv
  rw [(h.entries o v' id).mp hv'] at hkey
  exact (Prod.mk.inj (Option.some.inj hkey)).2.symm

theorem ThreatSound.mem_entriesOf_iff {w : World U} (h : ThreatSound w) (t : ℕ) (o : U) (id : ℕ) :
    id ∈ entriesOf (E.order t) (w.threat o).myThreatListEntries ↔
      ∃ v, w.threatKey id = some (o, v) := by
  constructor
  · intro hmem
    obtain ⟨v, hv⟩ := mem_entriesOf hmem
    exact ⟨v, (h.entries o v id).mp hv⟩
  · rintro ⟨v, hv⟩
    have hmem : v ∈ E.order t := (E.order_perm t).mem_iff.mpr (E.mem_units v)
    exact mem_filterMap.mpr ⟨v, hmem, (h.entries o v id).mpr hv⟩

variable {o : U}

section

variable (h : ThreatSound w)
include h

/-- An entry of the map is an object. -/
theorem ThreatSound.isSome_entry {v : U} :
    (((w.threat o).myThreatListEntries v).bind w.threatRefs).isSome ↔
      ∃ id, w.threatKey id = some (o, v) := by
  rw [isSome_iff_exists]
  constructor
  · rintro ⟨r, hr⟩
    obtain ⟨id, hid, -⟩ := bind_eq_some_iff.mp hr
    exact ⟨id, (h.entries _ _ _).mp hid⟩
  · rintro ⟨id, hid⟩
    obtain ⟨r, hr, -, -⟩ := threatKey_eq_some.mp hid
    exact ⟨r, bind_eq_some_iff.mpr ⟨id, (h.entries _ _ _).mpr hid, hr⟩⟩

/-- Some entry wakes up. -/
theorem ThreatSound.exists_wakesFor_iff (t : ℕ) (o : U) :
    (∃ guid ∈ (entriesOf (E.order t) (w.threat o).myThreatListEntries).filterMap (w.wakesFor E t o),
        ∃ id, w.threatKey id = some (o, guid)) ↔
      ∃ v id r, (w.threat o).myThreatListEntries v = some id ∧ w.threatRefs id = some r ∧
        r.isOffline = true ∧ E.shouldBeOffline t o v = false := by
  constructor
  · rintro ⟨guid, hmem, -⟩
    obtain ⟨id, -, hwakes⟩ := mem_filterMap.mp hmem
    obtain ⟨r, hr, hif⟩ := bind_eq_some_iff.mp hwakes
    obtain ⟨⟨rfl, hoffline, hshould⟩, -⟩ := ite_none_right_eq_some.mp hif
    refine ⟨r.victim, id, r, ?_, hr, hoffline, ?_⟩
    · exact (h.entries _ _ _).mpr (threatKey_eq_some.mpr ⟨r, hr, rfl, rfl⟩)
    · simpa using hshould
  · rintro ⟨v, id, r, hentry, hr, hoffline, hshould⟩
    have hkey := (h.entries _ _ _).mp hentry
    obtain ⟨r', hr', rfl, rfl⟩ := threatKey_eq_some.mp hkey
    obtain rfl : r = r' := Option.some.inj (hr.symm.trans hr')
    refine ⟨r.victim, mem_filterMap.mpr ⟨id, ?_, ?_⟩, id, hkey⟩
    · exact (h.mem_entriesOf_iff E t _ id).mpr ⟨_, hkey⟩
    · simp [wakesFor, hr, hoffline, hshould]

/-- The AI updates that `UpdateVictim` leaves to `ProcessAIUpdates`. -/
theorem ThreatSound.needsAIUpdate_updateVictim (t : ℕ) (o u : U) :
    ((w.updateVictim E t o).threat u).needsAIUpdate =
      (w.threat u).needsAIUpdate ++
        (entriesOf (E.order t) (w.threat o).myThreatListEntries).filterMap (w.wakesFor E t u) := by
  have hset : ((w.updateVictim E t o).threat u).needsAIUpdate =
      ((w.reselectVictim E t o).2.threat u).needsAIUpdate := by
    rw [updateVictim]
    simp only [setThreat, update_apply]
    split_ifs with hu
    · rw [hu]
    · rfl
  rw [hset, reselectVictim]
  split_ifs with hempty
  · have hnil : entriesOf (E.order t) (w.threat o).myThreatListEntries = [] := by
      rw [eq_nil_iff_forall_not_mem]
      intro id hmem
      have hsorted := (h.sorted o id).mpr ((h.mem_entriesOf_iff E t o id).mp hmem)
      rw [hempty] at hsorted
      exact absurd hsorted not_mem_nil
    simp [hnil]
  · exact needsAIUpdate_foldl E t w (h.nodup_entriesOf E t o) u

/-- The loop of `ReselectVictim` registers updates for its own unit only. -/
theorem ThreatSound.settledBut_updateVictim (hsettled : SettledBut o w) (t : ℕ) :
    SettledBut o (w.updateVictim E t o) := by
  intro u hu
  have hnil : (entriesOf (E.order t) (w.threat o).myThreatListEntries).filterMap
    (w.wakesFor E t u) = [] := by
    rw [filterMap_eq_nil_iff]
    intro id hmem
    obtain ⟨v, hv⟩ := (h.mem_entriesOf_iff E t o id).mp hmem
    obtain ⟨r, hr, rfl, -⟩ := threatKey_eq_some.mp hv
    simp [wakesFor, hr, Ne.symm hu]
  rw [h.needsAIUpdate_updateVictim, hnil, append_nil]
  exact hsettled u hu

end

/-! ### Clearing threat -/

/-- Threat references are freed, and nothing else happens to the references. -/
structure Shrinks (w w' : World U) : Prop where
  combatRefs : w'.combatRefs = w.combatRefs
  combat : w'.combat = w.combat
  inCombat : w'.inCombat = w.inCombat
  nextRef : w'.nextRef = w.nextRef
  keys : ∀ id k, w'.threatKey id = some k → w.threatKey id = some k
  sound : ThreatSound w'
  settled : Settled w'

theorem Shrinks.refl (h : ThreatSound w) (hsettled : Settled w) : Shrinks w w :=
  ⟨rfl, rfl, rfl, rfl, fun _ _ hk => hk, h, hsettled⟩

variable {w' w'' : World U}

theorem Shrinks.trans (h : Shrinks w w') (h' : Shrinks w' w'') :
    Shrinks w w'' where
  combatRefs := h'.combatRefs.trans h.combatRefs
  combat := h'.combat.trans h.combat
  inCombat := h'.inCombat.trans h.inCombat
  nextRef := h'.nextRef.trans h.nextRef
  keys id k hk := h.keys id k (h'.keys id k hk)
  sound := h'.sound
  settled := h'.settled

theorem Shrinks.of_quiet (h : ThreatSound w) (hq : Quiet w w') (hsettled : Settled w') :
    Shrinks w w' where
  combatRefs := hq.combatRefs
  combat := hq.combat
  inCombat := hq.inCombat
  nextRef := hq.nextRef
  keys id k hk := by rw [← hq.key, hk]
  sound := h.quiet hq
  settled := hsettled

theorem settled_unregisterAndFree (h : ThreatSound w) (hsettled : Settled w) (id : ℕ) :
    Settled (w.unregisterAndFree id) := by
  cases hr : w.threatRefs id with
  | none =>
    have heq : w.unregisterAndFree id = w := by
      rw [unregisterAndFree, hr]
    rwa [heq]
  | some r =>
    intro o
    obtain ⟨-, -, -, -, -, hneeds⟩ := unregisterAndFree_threat h hr o
    rw [hneeds, hsettled o]

theorem shrinks_unregisterAndFree (h : ThreatSound w) (hsettled : Settled w) (id : ℕ) :
    Shrinks w (w.unregisterAndFree id) := by
  obtain ⟨-, hcombatRefs, hcombat, hin, hnext⟩ := w.unregisterAndFree_frame id
  refine ⟨hcombatRefs, hcombat, hin, hnext, ?_, h.unregisterAndFree id,
    settled_unregisterAndFree h hsettled id⟩
  intro id' k hk
  rw [threatKey_unregisterAndFree] at hk
  split_ifs at hk
  exact hk

/-- `ClearThreat` hands over to the AI of its unit: the target was on the threat list and the
current victim, if there was one, and another entry that was offline no longer has to be. -/
def HandsOver (t : ℕ) (w : World U) (o target : U) : Prop :=
  E.hasAI t o = true ∧
    (∃ id, (w.threat o).myThreatListEntries target = some id ∧
      ((w.threat o).currentVictimRef = none ∨ (w.threat o).currentVictimRef = some id)) ∧
    ∃ v id r, v ≠ target ∧ (w.threat o).myThreatListEntries v = some id ∧ w.threatRefs id = some r ∧
      r.isOffline = true ∧ E.shouldBeOffline t o v = false

variable {target : U}

theorem wakes_unregisterAndFree_iff (h : ThreatSound w) (t : ℕ)
    (hentry : (w.threat o).myThreatListEntries target = some id) :
    Wakes E t (w.unregisterAndFree id) o ↔ E.hasAI t o = true ∧
      ∃ v id r, v ≠ target ∧ (w.threat o).myThreatListEntries v = some id ∧
        w.threatRefs id = some r ∧ r.isOffline = true ∧ E.shouldBeOffline t o v = false := by
  obtain ⟨r, hr, rfl, rfl⟩ := threatKey_eq_some.mp ((h.entries _ _ _).mp hentry)
  obtain ⟨hentries, -⟩ := unregisterAndFree_threat h hr r.owner
  rw [if_pos rfl] at hentries
  rw [Wakes, hentries, (w.unregisterAndFree_frame id).1]
  refine and_congr_right fun _ => exists_congr fun v => ?_
  by_cases hv : v = r.victim
  · subst hv
    simp
  · have hne : ∀ id', (w.threat r.owner).myThreatListEntries v = some id' → id' ≠ id := by
      rintro id' hid' rfl
      have hkey := (h.entries _ _ _).mp hid'
      rw [(h.entries _ _ _).mp hentry] at hkey
      exact hv (Prod.mk.inj (Option.some.inj hkey)).2.symm
    rw [update_of_ne hv]
    refine exists_congr fun id' => exists_congr fun r' => ?_
    constructor
    · rintro ⟨hid', hr', hrest⟩
      rw [update_of_ne (hne id' hid')] at hr'
      exact ⟨hv, hid', hr', hrest⟩
    · rintro ⟨-, hid', hr', hrest⟩
      rw [update_of_ne (hne id' hid')]
      exact ⟨hid', hr', hrest⟩

/-- Only the threat list of a unit changes: the entries and the victims of the others stay. -/
structure Elsewhere (o : U) (w w' : World U) : Prop where
  entries : ∀ u, u ≠ o → (w'.threat u).myThreatListEntries = (w.threat u).myThreatListEntries
  victims : ∀ u, u ≠ o → (w'.threat u).currentVictimRef = (w.threat u).currentVictimRef
  refs : ∀ id u v, u ≠ o → w.threatKey id = some (u, v) → w'.threatRefs id = w.threatRefs id

theorem Elsewhere.refl (o : U) (w : World U) : Elsewhere o w w :=
  ⟨fun _ _ => rfl, fun _ _ => rfl, fun _ _ _ _ _ => rfl⟩

theorem Elsewhere.trans (h : Elsewhere o w w') (h' : Elsewhere o w' w'') :
    Elsewhere o w w'' where
  entries u hu := (h'.entries u hu).trans (h.entries u hu)
  victims u hu := (h'.victims u hu).trans (h.victims u hu)
  refs id u v hu hk := by
    have hrefs := h.refs id u v hu hk
    refine (h'.refs id u v hu ?_).trans hrefs
    rw [threatKey, hrefs]
    exact hk

theorem elsewhere_setThreat (o : U) (w : World U) (f : ThreatManager U → ThreatManager U) :
    Elsewhere o w (w.setThreat o f) where
  entries u hu := by simp [setThreat, hu]
  victims u hu := by simp [setThreat, hu]
  refs _ _ _ _ _ := rfl

theorem elsewhere_unregisterAndFree (h : ThreatSound w) {r : ThreatReference U}
    (hr : w.threatRefs id = some r) : Elsewhere r.owner w (w.unregisterAndFree id) where
  entries u hu := by rw [(unregisterAndFree_threat h hr u).1, if_neg hu]
  victims u hu := by
    obtain ⟨-, -, -, hvictim, -, -⟩ := unregisterAndFree_threat h hr u
    rw [hvictim, if_neg (fun hc => hu hc.1)]
  refs id' u v hu hk := by
    rw [(w.unregisterAndFree_frame id).1, update_of_ne]
    rintro rfl
    obtain ⟨r', hr', rfl, -⟩ := threatKey_eq_some.mp hk
    exact hu (congrArg ThreatReference.owner (Option.some.inj (hr'.symm.trans hr)))

theorem elsewhere_updateOffline {v : U} (hk : w.threatKey id = some (o, v)) :
    Elsewhere o w (w.updateOffline E t id) := by
  obtain ⟨r, hr, rfl, rfl⟩ := threatKey_eq_some.mp hk
  have hrefs : ∀ id' u v, u ≠ r.owner → w.threatKey id' = some (u, v) →
      (w.updateOffline E t id).threatRefs id' = w.threatRefs id' := by
    intro id' u v hu hk'
    refine threatRefs_updateOffline E ?_
    rintro rfl
    rw [hk] at hk'
    exact hu (Prod.mk.inj (Option.some.inj hk')).1.symm
  have hmanagers : ∀ u, u ≠ r.owner → (w.updateOffline E t id).threat u = w.threat u := by
    intro u hu
    rw [updateOffline, hr]
    dsimp only
    split_ifs
    all_goals simp [registerForAIUpdate, setThreat, hu, touch, heapNotify, setThreatRef]
  exact ⟨fun u hu => by rw [hmanagers u hu], fun u hu => by rw [hmanagers u hu], hrefs⟩

theorem elsewhere_updateVictim (h : ThreatSound w) (t : ℕ) (o : U) :
    Elsewhere o w (w.updateVictim E t o) := by
  have hloop : ∀ (ids : List ℕ) (w : World U), (∀ id ∈ ids, ∃ v, w.threatKey id = some (o, v)) →
      Elsewhere o w (ids.foldl (updateOffline E t) w) := by
    intro ids
    induction ids with
    | nil => exact fun w _ => Elsewhere.refl o w
    | cons id ids ih =>
      intro w hids
      obtain ⟨v, hv⟩ := hids id mem_cons_self
      refine (elsewhere_updateOffline E t hv).trans (ih _ fun id' hmem => ?_)
      obtain ⟨v', hv'⟩ := hids id' (mem_cons_of_mem _ hmem)
      exact ⟨v', by rw [(quiet_updateOffline E t w id).key, hv']⟩
  have hreselect : Elsewhere o w (w.reselectVictim E t o).2 := by
    rw [reselectVictim]
    split_ifs
    · exact Elsewhere.refl o w
    · exact hloop _ w fun id hmem => (h.mem_entriesOf_iff E t o id).mp hmem
  rw [World.updateVictim]
  exact hreselect.trans (elsewhere_setThreat o _ _)

/-- What one unit clears does not change what another one hands over. -/
theorem Elsewhere.handsOver_iff {u : U} (h : Elsewhere o w w') (hsound : ThreatSound w) (hu : u ≠ o)
    (t : ℕ) : HandsOver E t w' u target ↔ HandsOver E t w u target := by
  rw [HandsOver, HandsOver, h.entries u hu, h.victims u hu]
  refine and_congr_right fun _ => and_congr_right fun _ => ?_
  refine exists_congr fun v => exists_congr fun id => exists_congr fun r =>
    and_congr_right fun _ => ?_
  refine and_congr_right fun hentry => ?_
  rw [h.refs id u v hu ((hsound.entries _ _ _).mp hentry)]

end World

namespace Execution

open World

/-! ### Hand-offs -/

/-- The calls into an AI that an execution has added to another one. -/
def Logs (e e' : Execution U) (calls : List (HandOff U × World U)) : Prop :=
  e'.handOffs = e.handOffs ++ calls

variable {e : Execution U}

theorem Logs.trans {e' e'' : Execution U} {calls calls' : List (HandOff U × World U)}
    (h : Logs e e' calls) (h' : Logs e' e'' calls') : Logs e e'' (calls ++ calls') := by
  rw [Logs] at *
  rw [h', h, append_assoc]

theorem logs_update (e : Execution U) (f : World U → World U) : Logs e (e.update f) [] :=
  (append_nil _).symm

/-- The calls of the loop of `ProcessAIUpdates`. -/
theorem foldl_processAIUpdate (o : U) (pending : List U) (e : Execution U) :
    (pending.foldl (processAIUpdate o) e).world = e.world ∧
      Logs e (pending.foldl (processAIUpdate o) e) (pending.filterMap fun guid =>
        (((e.world.threat o).myThreatListEntries guid).bind e.world.threatRefs).map fun r =>
          (.justStartedThreateningMe o r.victim, e.world)) := by
  induction pending generalizing e with
  | nil => exact ⟨rfl, logs_update e id⟩
  | cons guid pending ih =>
    have hround : (processAIUpdate o e guid).world = e.world ∧
        Logs e (processAIUpdate o e guid)
          ((((e.world.threat o).myThreatListEntries guid).bind e.world.threatRefs).map fun r =>
            (.justStartedThreateningMe o r.victim, e.world)).toList := by
      rw [processAIUpdate]
      cases ((e.world.threat o).myThreatListEntries guid).bind e.world.threatRefs with
      | none => exact ⟨rfl, logs_update e id⟩
      | some r => exact ⟨rfl, rfl⟩
    obtain ⟨hworld, hlogs⟩ := hround
    obtain ⟨hworld', hlogs'⟩ := ih (processAIUpdate o e guid)
    rw [hworld] at hworld' hlogs'
    refine ⟨hworld', ?_⟩
    have htrans := hlogs.trans hlogs'
    rw [foldl_cons, filterMap_cons]
    cases hmap : (((e.world.threat o).myThreatListEntries guid).bind e.world.threatRefs).map
        fun r => (HandOff.justStartedThreateningMe o r.victim, e.world) with
    | none => simpa [hmap] using htrans
    | some call => simpa [hmap] using htrans

/-- `ProcessAIUpdates` changes nothing but the pending updates, and every call that it makes sees
the world that it leaves. -/
theorem processAIUpdates_spec (e : Execution U) (o : U) :
    (e.processAIUpdates E o).world =
        e.world.setThreat o (fun m => { m with needsAIUpdate := [] }) ∧
      ∃ calls, Logs e (e.processAIUpdates E o) calls ∧
        (∀ c ∈ calls, c.2 = (e.processAIUpdates E o).world) ∧
        (calls ≠ [] ↔ E.hasAI e.tick o = true ∧ ∃ guid ∈ (e.world.threat o).needsAIUpdate,
          (((e.world.threat o).myThreatListEntries guid).bind e.world.threatRefs).isSome) := by
  have hentries : ((e.world.setThreat o fun m => { m with needsAIUpdate := [] }).threat
      o).myThreatListEntries = (e.world.threat o).myThreatListEntries := by
    simp [setThreat]
  rw [processAIUpdates]
  set e₁ := e.update fun w => w.setThreat o fun m => { m with needsAIUpdate := [] } with he₁
  cases hai : E.hasAI e.tick o with
  | false =>
    have hai' : (!E.hasAI e₁.tick o) = true := by
      rw [he₁, update, hai]
      rfl
    rw [if_pos hai']
    exact ⟨rfl, [], logs_update e _, fun _ h => absurd h not_mem_nil, by simp⟩
  | true =>
    have hai' : ¬ (!E.hasAI e₁.tick o) = true := by
      rw [he₁, update, hai]
      exact Bool.false_ne_true
    rw [if_neg hai']
    obtain ⟨hworld, hlogs⟩ := foldl_processAIUpdate o (e.world.threat o).needsAIUpdate e₁
    refine ⟨hworld, _, (logs_update e _).trans hlogs, ?_, ?_⟩
    · intro c hc
      obtain ⟨guid, -, hguid⟩ := mem_filterMap.mp hc
      obtain ⟨r, -, rfl⟩ := map_eq_some_iff.mp hguid
      exact hworld.symm
    · rw [nil_append, Ne, filterMap_eq_nil_iff]
      simp only [map_eq_none_iff, not_forall, true_and]
      have hsame : ∀ guid,
        ((e₁.world.threat o).myThreatListEntries guid).bind e₁.world.threatRefs =
          ((e.world.threat o).myThreatListEntries guid).bind e.world.threatRefs := by
        intro guid
        rw [he₁, update, hentries]
        rfl
      simp only [hsame, exists_prop, isSome_iff_ne_none]

/-- `ProcessAIUpdates` is quiet, and it settles the updates of its unit. -/
theorem processAIUpdates_settles {o : U} (hsettled : SettledBut o e.world) :
    Quiet e.world (e.processAIUpdates E o).world ∧ Settled (e.processAIUpdates E o).world := by
  rw [(e.processAIUpdates_spec E o).1]
  refine ⟨quiet_setThreat _ o rfl rfl rfl (fun _ h => Or.inl h) fun _ h => Or.inr (Or.inl h), ?_⟩
  intro u
  simp only [setThreat, update_apply]
  split_ifs with hu
  · rfl
  · exact hsettled u hu

/-- **`UpdateVictim`** is quiet and leaves no update behind. Its calls see the world after it; if no
update was left over before, there are calls exactly when an entry wakes up. -/
theorem updateVictim_spec (h : ThreatSound e.world) {o : U} (hsettled : SettledBut o e.world) :
    Quiet e.world (e.updateVictim E o).world ∧ Settled (e.updateVictim E o).world ∧
      ∃ calls, Logs e (e.updateVictim E o) calls ∧ (∀ c ∈ calls, c.2 = (e.updateVictim E o).world) ∧
        ((e.world.threat o).needsAIUpdate = [] → (calls ≠ [] ↔ Wakes E e.tick e.world o)) := by
  set e₁ := e.update fun w => w.updateVictim E e.tick o with he₁
  have hquiet₁ : Quiet e.world e₁.world := e.world.quiet_updateVictim E e.tick o
  obtain ⟨hquiet, hsettled'⟩ := processAIUpdates_settles E (e := e₁)
    (h.settledBut_updateVictim E hsettled e.tick)
  obtain ⟨-, calls, hlogs, hsees, hcalls⟩ := e₁.processAIUpdates_spec E o
  refine ⟨hquiet₁.trans hquiet, hsettled', calls, (logs_update e _).trans hlogs, hsees,
    fun hnone => ?_⟩
  have htick : e₁.tick = e.tick := rfl
  have hneeds : (e₁.world.threat o).needsAIUpdate =
      (entriesOf (E.order e.tick) (e.world.threat o).myThreatListEntries).filterMap
        (e.world.wakesFor E e.tick o) := by
    rw [he₁, update, h.needsAIUpdate_updateVictim, hnone, nil_append]
  have hsome : ∀ guid,
    (((e₁.world.threat o).myThreatListEntries guid).bind e₁.world.threatRefs).isSome ↔
      ∃ id, e.world.threatKey id = some (o, guid) := by
    intro guid
    rw [(h.quiet hquiet₁).isSome_entry, exists_congr fun id => by rw [hquiet₁.key]]
  rw [hcalls, htick, Wakes, hneeds]
  simp only [hsome]
  exact and_congr_right fun _ => h.exists_wakesFor_iff E e.tick o

/-! ### Clearing threat of a target -/

theorem clearThreat_elsewhere (h : ThreatSound e.world) (o target : U) :
    Elsewhere o e.world (e.clearThreat E o target).world := by
  rw [clearThreat]
  cases hentry : (e.world.threat o).myThreatListEntries target with
  | none => exact Elsewhere.refl o _
  | some id =>
    obtain ⟨r, hr, rfl, -⟩ := threatKey_eq_some.mp ((h.entries _ _ _).mp hentry)
    have hfree := elsewhere_unregisterAndFree h hr
    dsimp only
    rw [clearThreatRef]
    split_ifs
    · refine hfree.trans
        ((elsewhere_updateVictim E (h.unregisterAndFree id) e.tick r.owner).trans ?_)
      rw [updateVictim, (processAIUpdates_spec E _ r.owner).1]
      exact elsewhere_setThreat r.owner _ _
    · exact hfree

/-- `ProcessAIUpdates` takes no time. -/
theorem processAIUpdates_frame (e : Execution U) (o : U) :
    (e.processAIUpdates E o).tick = e.tick ∧ (e.processAIUpdates E o).outOfDepth =
      e.outOfDepth := by
  have hloop : ∀ (pending : List U) (e : Execution U),
      (pending.foldl (processAIUpdate o) e).tick = e.tick ∧
        (pending.foldl (processAIUpdate o) e).outOfDepth = e.outOfDepth := by
    intro pending
    induction pending with
    | nil => exact fun _ => ⟨rfl, rfl⟩
    | cons guid pending ih =>
      intro e
      obtain ⟨htick, hdepth⟩ := ih (processAIUpdate o e guid)
      rw [foldl_cons, htick, hdepth, processAIUpdate]
      split <;> exact ⟨rfl, rfl⟩
  rw [processAIUpdates]
  split_ifs
  · exact ⟨rfl, rfl⟩
  · exact hloop _ _

theorem tick_clearThreat (e : Execution U) (o target : U) :
    (e.clearThreat E o target).tick = e.tick := by
  rw [clearThreat]
  split
  · rfl
  · rw [clearThreatRef]
    split_ifs
    · exact (processAIUpdates_frame E _ o).1
    · rfl

/-- **`ClearThreat`** frees the reference, if there is one. An AI hears of it exactly when it hands
over, and then it sees the world after it. -/
theorem clearThreat_spec (h : ThreatSound e.world) (hsettled : Settled e.world) (o target : U) :
    Shrinks e.world (e.clearThreat E o target).world ∧
      (∀ id, (e.clearThreat E o target).world.threatKey id ≠ some (o, target)) ∧
      ∃ calls, Logs e (e.clearThreat E o target) calls ∧
        (∀ c ∈ calls, c.2 = (e.clearThreat E o target).world) ∧
        (calls ≠ [] ↔ HandsOver E e.tick e.world o target) := by
  rw [clearThreat]
  cases hentry : (e.world.threat o).myThreatListEntries target with
  | none =>
    refine ⟨Shrinks.refl h hsettled, ?_, [], logs_update e id, fun _ hc =>
      absurd hc not_mem_nil, ?_⟩
    · intro id hid
      rw [(h.entries _ _ _).mpr hid] at hentry
      exact absurd hentry (some_ne_none _)
    · simp [HandsOver, hentry]
  | some id =>
    have hkey := (h.entries _ _ _).mp hentry
    have hfree := shrinks_unregisterAndFree h hsettled id
    set e₁ := e.update fun w => w.unregisterAndFree id with he₁
    have hgone : ∀ {w'}, Shrinks e₁.world w' → ∀ id', w'.threatKey id' ≠ some (o, target) := by
      intro w' hshrinks id' hid'
      have hid := hshrinks.keys _ _ hid'
      rw [he₁, update, threatKey_unregisterAndFree] at hid
      split_ifs at hid with heq
      exact heq (Option.some.inj (((h.entries _ _ _).mpr hid).symm.trans hentry))
    have hcurrent : (e₁.world.threat o).currentVictimRef = none ↔
        (e.world.threat o).currentVictimRef = none ∨ (e.world.threat o).currentVictimRef =
          some id := by
      obtain ⟨r, hr, rfl, -⟩ := threatKey_eq_some.mp hkey
      obtain ⟨-, -, -, hvictim, -, -⟩ := unregisterAndFree_threat h hr r.owner
      rw [he₁, update, hvictim]
      by_cases hc : (e.world.threat r.owner).currentVictimRef = some id
      · simp [hc]
      · simp [hc]
    have hhands : HandsOver E e.tick e.world o target ↔
        (e₁.world.threat o).currentVictimRef = none ∧ Wakes E e₁.tick e₁.world o := by
      rw [hcurrent, he₁, update, wakes_unregisterAndFree_iff E h e.tick hentry, HandsOver]
      simp only [hentry, Option.some.injEq, exists_eq_left']
      exact and_left_comm
    have heq : e.clearThreatRef E o id =
        if (e₁.world.threat o).currentVictimRef = none then e₁.updateVictim E o else e₁ := rfl
    dsimp only
    rw [heq, hhands]
    by_cases hc : (e₁.world.threat o).currentVictimRef = none
    · rw [if_pos hc, and_iff_right hc]
      obtain ⟨hquiet, hsettled', calls, hlogs, hsees, hcalls⟩ :=
        updateVictim_spec E (e := e₁) hfree.sound (hfree.settled.but o)
      have hshrinks := Shrinks.of_quiet hfree.sound hquiet hsettled'
      exact ⟨hfree.trans hshrinks, hgone hshrinks, calls, (logs_update e _).trans hlogs, hsees,
        hcalls (hfree.settled o)⟩
    · rw [if_neg hc]
      refine ⟨hfree, hgone (Shrinks.refl hfree.sound hfree.settled), [], logs_update e _,
        fun _ h => absurd h not_mem_nil, ?_⟩
      simp [hc]

end Execution

end Combat

end IscServer
