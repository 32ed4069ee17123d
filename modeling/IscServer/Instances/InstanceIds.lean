import IscServer.Instances.InstanceSaveMgr

/-!
# Resets of Single Instances

An `InstResetEvent` keeps the id of its instance in 16 bits, and events are compared by it. The queue is
compared with one whose events keep the whole id.

## Main results

* `resets_update_scheduled` — what the update resets after a reset is scheduled.
* `resetsRight_iff` — for which ids the events reset the instances they were scheduled for.
-/

namespace IscServer.Instances

open List

variable (maps : Maps)

/-- What one round of the loop of `Update` gives to `_ResetInstance`. -/
def InstanceSaveManager.resetOnce (now : ℤ) (manager : InstanceSaveManager) : List (ℕ × ℕ) :=
  match manager.resetTimeQueue with
  | [] => []
  | (t, event) :: _ =>
    if ¬ now ≤ t ∧ event.type = 0 then [(event.mapid, event.instanceId)] else []

/-- What the rounds of the loop give to `_ResetInstance`. -/
def InstanceSaveManager.resetRounds (now : ℤ) : ℕ → InstanceSaveManager → List (ℕ × ℕ)
  | 0, _ => []
  | fuel + 1, manager =>
    manager.resetOnce now ++
      match manager.updateOnce maps now with
      | none => []
      | some manager => resetRounds now fuel manager

/-- The instances that an operation resets, with their maps. -/
def resets (manager : InstanceSaveManager) : Request → List (ℕ × ℕ)
  | .update now =>
    InstanceSaveManager.resetRounds maps now (manager.resetTimeQueue.behind now) manager
  | _ => []

/-- One operation on a queue whose events keep the whole id of their instance. -/
def stepKeeping (manager : InstanceSaveManager) : Request → InstanceSaveManager
  | .scheduleReset add time mapid difficulty instanceId =>
    manager.scheduleReset add time ⟨0, difficulty, mapid % 2 ^ 16, instanceId⟩
  | request => step maps manager request

/-- A step of either kind that records what is reset. -/
def recordResets (next : InstanceSaveManager → Request → InstanceSaveManager)
    (state : InstanceSaveManager × List (ℕ × ℕ)) (request : Request) :
    InstanceSaveManager × List (ℕ × ℕ) :=
  (next state.1 request, state.2 ++ resets maps state.1 request)

/-- The operation is not about an instance other than those of the set. -/
def Request.Within (ids : Set ℕ) : Request → Prop
  | .scheduleReset _ _ _ _ instanceId => instanceId ∈ ids
  | _ => True

/-- **The right resets**: whatever operations there are for the instances of the set, the queue holds the
events, and the updates reset the instances, of the queue that keeps the ids. -/
def ResetsRight (ids : Set ℕ) : Prop :=
  ∀ manager (requests : List Request), (∀ request ∈ requests, request.Within ids) →
    requests.foldl (recordResets maps (step maps)) (manager, []) =
      requests.foldl (recordResets maps (stepKeeping maps)) (manager, [])

variable {maps} {ids : Set ℕ}

/-- An id of 16 bits is kept. -/
theorem step_eq_stepKeeping (hids : ∀ id ∈ ids, id < 2 ^ 16) {request : Request}
    (h : request.Within ids) (manager : InstanceSaveManager) :
    step maps manager request = stepKeeping maps manager request := by
  cases request with
  | scheduleReset add time mapid difficulty instanceId =>
    rw [step, stepKeeping, InstResetEvent.new, Nat.mod_eq_of_lt (hids instanceId h)]
  | update now => rfl
  | forceGlobalReset now mapId difficulty => rfl

/-- Runs over ids of 16 bits. -/
theorem foldl_recordResets_eq (hids : ∀ id ∈ ids, id < 2 ^ 16) {requests : List Request}
    (h : ∀ request ∈ requests, request.Within ids) (state : InstanceSaveManager × List (ℕ × ℕ)) :
    requests.foldl (recordResets maps (step maps)) state =
      requests.foldl (recordResets maps (stepKeeping maps)) state := by
  induction requests generalizing state with
  | nil => rfl
  | cons request requests ih =>
    obtain ⟨hfirst, hrest⟩ := forall_mem_cons.mp h
    rw [foldl_cons, foldl_cons, ih hrest, recordResets, recordResets, step_eq_stepKeeping hids hfirst]

/-- **The update after a reset is scheduled** resets the instance that the event names. -/
theorem resets_update_scheduled (event : InstResetEvent) (htype : event.type = 0) :
    resets maps (InstanceSaveManager.new.scheduleReset true 0 event) (.update 1) =
      [(event.mapid, event.instanceId)] := by
  have hqueue : (InstanceSaveManager.new.scheduleReset true 0 event).resetTimeQueue = [(0, event)] := rfl
  have hbehind : ResetTimeQueue.behind [(0, event)] (1 : ℕ) = 1 := rfl
  rw [resets, hqueue, hbehind, InstanceSaveManager.resetRounds, InstanceSaveManager.resetOnce, hqueue]
  dsimp only
  rw [if_pos ⟨by decide, htype⟩]
  cases InstanceSaveManager.updateOnce maps _ _ <;> rfl

/-- Right resets need ids of 16 bits. -/
theorem ResetsRight.lt {id : ℕ} (h : ResetsRight maps ids) (hid : id ∈ ids) : id < 2 ^ 16 := by
  have hruns := h .new [.scheduleReset true 0 0 0 id, .update 1]
    (forall_mem_cons.mpr ⟨hid, forall_mem_singleton.mpr trivial⟩)
  have hcode := @resets_update_scheduled maps (.new 0 0 0 id) rfl
  have hkept := @resets_update_scheduled maps ⟨0, 0, 0, id⟩ rfl
  have hlogs : resets maps (InstanceSaveManager.new.scheduleReset true 0 (.new 0 0 0 id)) (.update 1) =
      resets maps (InstanceSaveManager.new.scheduleReset true 0 ⟨0, 0, 0, id⟩) (.update 1) :=
    congrArg Prod.snd hruns
  rw [hcode, hkept] at hlogs
  have hsame : id % 2 ^ 16 = id := congrArg Prod.snd (cons.inj hlogs).1
  omega

/-- **The events reset the instances they were scheduled for** exactly if the ids fit into 16 bits. -/
theorem resetsRight_iff (maps : Maps) (ids : Set ℕ) :
    ResetsRight maps ids ↔ ∀ id ∈ ids, id < 2 ^ 16 :=
  ⟨fun h _ hid => h.lt hid, fun hids manager _ h => foldl_recordResets_eq hids h (manager, [])⟩

/-- No maps. -/
def noMaps : Maps where
  mapDifficulty := []
  instanceable := fun _ => false
  subsequent := fun _ _ t => t + DAY
  keys := nodup_nil
  narrow := nofun
  raid := nofun
  later := fun _ _ _ => Nat.le_refl _

/-- The event of instance 65541 resets instance 5. -/
theorem not_resetsRight_large :
    resets noMaps (step noMaps .new (.scheduleReset true 0 0 0 65541)) (.update 1) = [(0, 5)] ∧
      ¬ ResetsRight noMaps {65541} :=
  ⟨resets_update_scheduled _ rfl, fun h => absurd (h.lt rfl) (by decide)⟩

end IscServer.Instances
