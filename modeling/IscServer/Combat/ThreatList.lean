import IscServer.Combat.CombatWorld

/-!
# Threat Lists

The part of `ThreatManager` (`game/Combat/ThreatManager.cpp`) that works on threat references that
exist: changing, purging and choosing among them. The functions that create them need the combat
manager and follow in `ThreatManager`.

A function that only changes the contents of threat references and the choice of victims is
`Quiet`: the references stay where they are. `UpdateVictim` is one of these.
-/

set_option linter.unusedSectionVars false

namespace IscServer

open Option

namespace Combat

variable {U : Type} [DecidableEq U] (E : Env U)

namespace World

/-! ### Threat references -/

/-- `HeapNotifyIncreased` and `HeapNotifyDecreased`. -/
def heapNotify (w : World U) (id : ℕ) (increased : Bool) : World U :=
  { w with notified := w.notified ++ [(id, increased)] }

/-- Change a threat reference and notify the heap. -/
def touch (w : World U) (id : ℕ) (r : ThreatReference U) (increased : Bool) : World U :=
  (w.setThreatRef id r).heapNotify id increased

/-- `ThreatReference::AddThreat`. -/
def addRefThreat (amount : ℚ) (w : World U) (id : ℕ) : World U :=
  match w.threatRefs id with
  | none => w
  | some r =>
    if amount = 0 then w
    else w.touch id { r with baseAmount := max (r.baseAmount + amount) 0 } (0 < amount)

/-- `ThreatReference::ScaleThreat`. -/
def scaleRefThreat (factor : ℚ) (w : World U) (id : ℕ) : World U :=
  match w.threatRefs id with
  | none => w
  | some r =>
    if factor = 1 then w else w.touch id { r with baseAmount := r.baseAmount * factor }
      (1 < factor)

/-- `ShouldBeSuppressed`: a taunting victim can never be suppressed. -/
def shouldBeSuppressed (t : ℕ) (r : ThreatReference U) : Bool :=
  !r.isTaunting && E.shouldBeSuppressed t r.owner r.victim

/-- `RegisterForAIUpdate`. -/
def registerForAIUpdate (w : World U) (o guid : U) : World U :=
  w.setThreat o fun m => { m with needsAIUpdate := m.needsAIUpdate ++ [guid] }

/-- `UpdateOffline`. -/
def updateOffline (t : ℕ) (w : World U) (id : ℕ) : World U :=
  match w.threatRefs id with
  | none => w
  | some r =>
    if E.shouldBeOffline t r.owner r.victim = r.isOffline then w
    else if E.shouldBeOffline t r.owner r.victim then w.touch id
      { r with online := .offline } false
    else
      let state := if shouldBeSuppressed E t r then OnlineState.suppressed else .online
      (w.touch id { r with online := state } true).registerForAIUpdate r.owner r.victim

/-- `UpdateTauntState`. -/
def updateTauntState (t : ℕ) (w : World U) (id state : ℕ) : World U :=
  match w.threatRefs id with
  | none => w
  | some r =>
    let state := if state < ThreatReference.tauntStateTaunt ∧ E.hasDetaunt t r.victim r.owner then
      ThreatReference.tauntStateDetaunt else state
    if state = r.taunted then w
    else w.touch id { r with taunted := state } (¬ state < r.taunted)

/-- One round of `EvaluateSuppressed`. -/
def evaluateSuppressedRef (t : ℕ) (canExpire : Bool) (w : World U) (id : ℕ) : World U :=
  match w.threatRefs id with
  | none => w
  | some r =>
    if r.online = .online ∧ shouldBeSuppressed E t r then
      w.touch id { r with online := .suppressed } false
    else if canExpire ∧ r.online = .suppressed ∧ !shouldBeSuppressed E t r then
      w.touch id { r with online := .online } true
    else w

/-! ### Purging -/

/-- `PurgeThreatListRef`. -/
def purgeThreatListRef (w : World U) (o v : U) : World U :=
  match (w.threat o).myThreatListEntries v with
  | none => w
  | some id =>
    w.setThreat o fun m => { m with
      myThreatListEntries := Function.update m.myThreatListEntries v none
      sortedThreatList := m.sortedThreatList.erase id
      fixateRef := if m.fixateRef = some id then none else m.fixateRef
      currentVictimRef := if m.currentVictimRef = some id then none else m.currentVictimRef }

/-- `PurgeThreatenedByMeRef`. -/
def purgeThreatenedByMeRef (w : World U) (v o : U) : World U :=
  w.setThreat v fun m => { m with threatenedByMe := Function.update m.threatenedByMe o none }

/-- `UnregisterAndFree`. -/
def unregisterAndFree (w : World U) (id : ℕ) : World U :=
  match w.threatRefs id with
  | none => w
  | some r =>
    let w := (w.purgeThreatListRef r.owner r.victim).purgeThreatenedByMeRef r.victim r.owner
    { w with threatRefs := Function.update w.threatRefs id none }

/-! ### Victims -/

/-- A reference with its address. -/
def lookup (w : World U) (id : ℕ) : Option (ℕ × ThreatReference U) :=
  (w.threatRefs id).map fun r => (id, r)

/-- The threat list of a unit, from the highest entry on. -/
def threatList (t : ℕ) (w : World U) (o : U) : List (ℕ × ThreatReference U) :=
  (E.heapOrder t (w.threat o).sortedThreatList).filterMap w.lookup

/-- The search of `ReselectVictim` for an entry in melee range. At the end of the list, where the
source aborts, the current victim has not been found. -/
def searchVictim (melee : U → Bool) (old : ℕ × ThreatReference U) :
    List (ℕ × ThreatReference U) → Option ℕ
  | [] => none
  | next :: rest =>
    if next.1 = old.1 then some next.1
    else if !old.2.compareReferencesLT next.2 (11 / 10) then some old.1
    else if melee next.2.victim then some next.1
    else searchVictim melee old rest

/-- The choice of `ReselectVictim`, after the update of the online states. -/
def selectVictim (melee : U → Bool) (fixate current : Option (ℕ × ThreatReference U))
    (ordered : List (ℕ × ThreatReference U)) : Option ℕ :=
  match fixate.filter fun f => f.2.isAvailable with
  | some f => some f.1
  | none =>
    match ordered with
    | [] => none
    | highest :: _ =>
      if !highest.2.isAvailable then none
      else
        match current.filter fun c => !c.2.isOffline with
        | none => some highest.1
        | some old =>
          if highest.1 = old.1 then some highest.1
          else if !old.2.compareReferencesLT highest.2 (11 / 10) then some old.1
          else if old.2.compareReferencesLT highest.2 (13 / 10) then some highest.1
          else if melee highest.2.victim then some highest.1
          else searchVictim melee old ordered

/-- `ReselectVictim`. -/
def reselectVictim (t : ℕ) (w : World U) (o : U) : Option ℕ × World U :=
  if (w.threat o).sortedThreatList = [] then (none, w)
  else
    let w := (entriesOf (E.order t) (w.threat o).myThreatListEntries).foldl (updateOffline E t) w
    let m := w.threat o
    (selectVictim (E.isWithinMeleeRange t o) (m.fixateRef.bind w.lookup)
      (m.currentVictimRef.bind w.lookup) (w.threatList E t o), w)

/-- `UpdateVictim`, up to the AI updates. -/
def updateVictim (t : ℕ) (w : World U) (o : U) : World U :=
  let r := w.reselectVictim E t o
  r.2.setThreat o fun m => { m with currentVictimRef := r.1 }

end World

namespace Execution

/-- One round of `ProcessAIUpdates`. -/
def processAIUpdate (o : U) (e : Execution U) (guid : U) : Execution U :=
  match ((e.world.threat o).myThreatListEntries guid).bind e.world.threatRefs with
  | none => e
  | some r => e.handOff (.justStartedThreateningMe o r.victim)

/-- `ProcessAIUpdates`. -/
def processAIUpdates (e : Execution U) (o : U) : Execution U :=
  let pending := (e.world.threat o).needsAIUpdate
  let e := e.update fun w => w.setThreat o fun m => { m with needsAIUpdate := [] }
  if !E.hasAI e.tick o then e else pending.foldl (processAIUpdate o) e

/-- `UpdateVictim`. -/
def updateVictim (e : Execution U) (o : U) : Execution U :=
  (e.update fun w => w.updateVictim E e.tick o).processAIUpdates E o

/-- `ClearThreat` of a reference. -/
def clearThreatRef (e : Execution U) (o : U) (id : ℕ) : Execution U :=
  let e := e.update fun w => w.unregisterAndFree id
  if (e.world.threat o).currentVictimRef = none then e.updateVictim E o else e

/-- `ClearThreat` of a target. -/
def clearThreat (e : Execution U) (o target : U) : Execution U :=
  match (e.world.threat o).myThreatListEntries target with
  | none => e
  | some id => e.clearThreatRef E o id

/-- `ClearAllThreat`. -/
def clearAllThreat (e : Execution U) (o : U) : Execution U :=
  e.update fun w =>
    (World.entriesOf (E.order e.tick) (w.threat o).myThreatListEntries).foldl
      World.unregisterAndFree w

/-- `RemoveMeFromThreatLists`. -/
def removeMeFromThreatLists (e : Execution U) (a : U) (filter : U → Bool) : Execution U :=
  let owners := (World.entriesOf (E.order e.tick) (e.world.threat a).threatenedByMe).filterMap
    fun id => (e.world.threatRefs id).map fun r => r.owner
  (owners.filter filter).foldl (fun e o => e.clearThreat E o a) e

/-! ### Changes of existing entries -/

/-- `ScaleThreat`. -/
def scaleThreat (e : Execution U) (o target : U) (factor : ℚ) : Execution U :=
  e.update fun w =>
    match (w.threat o).myThreatListEntries target with
    | none => w
    | some id => w.scaleRefThreat (max factor 0) id

/-- `ResetAllThreat`. -/
def resetAllThreat (e : Execution U) (o : U) : Execution U :=
  e.update fun w =>
    (World.entriesOf (E.order e.tick) (w.threat o).myThreatListEntries).foldl
    (World.scaleRefThreat 0) w

/-- `EvaluateSuppressed`. -/
def evaluateSuppressed (e : Execution U) (a : U) (canExpire : Bool) : Execution U :=
  e.update fun w => (World.entriesOf (E.order e.tick) (w.threat a).threatenedByMe).foldl
    (World.evaluateSuppressedRef E e.tick canExpire) w

/-- The taunt states that `TauntUpdate` gives to the casters of the taunts: that of the last taunt
of each of them. -/
def tauntState (casters : List U) (v : U) : Option ℕ :=
  casters.zipIdx.foldl (fun state c =>
    if c.1 = v then some (ThreatReference.tauntStateTaunt + c.2) else state) none

/-- `TauntUpdate`. -/
def tauntUpdate (e : Execution U) (o : U) : Execution U :=
  let casters := E.tauntCasters e.tick o
  let e := e.update fun w => (E.order e.tick).foldl (fun w v =>
    match (w.threat o).myThreatListEntries v with
    | none => w
    | some id => w.updateTauntState E e.tick id
        ((tauntState casters v).getD ThreatReference.tauntStateNone)) w
  e.evaluateSuppressed E o true

/-- `UpdateMyTempModifiers`: the first reference decides how the heaps are notified. -/
def updateMyTempModifiers (e : Execution U) (a : U) : Execution U :=
  let mod := E.totalThreatModifier e.tick a
  e.update fun w =>
    let refs := World.entriesOf (E.order e.tick) (w.threat a).threatenedByMe
    let isIncrease := (refs.head?.bind w.threatRefs).any fun r => r.tempModifier < mod
    refs.foldl (fun w id =>
      match w.threatRefs id with
      | none => w
      | some r => w.touch id { r with tempModifier := mod } isIncrease) w

/-- `FixateTarget`. -/
def fixateTarget (e : Execution U) (o : U) (target : Option U) : Execution U :=
  e.update fun w => w.setThreat o fun m => { m with fixateRef := target.bind m.myThreatListEntries }

/-- `Update`. -/
def threatUpdate (e : Execution U) (o : U) (tdiff : ℕ) : Execution U :=
  let m := e.world.threat o
  if !m.ownerCanHaveThreatList ∨ m.sortedThreatList = [] then e
  else if m.updateTimer ≤ tdiff then
    (e.updateVictim E o).update fun w =>
      w.setThreat o fun m => { m with updateTimer := threatUpdateInterval }
  else e.update fun w => w.setThreat o fun m => { m with updateTimer := m.updateTimer - tdiff }

/-- `GetCurrentVictim`, without the answer. -/
def getCurrentVictim (e : Execution U) (o : U) : Execution U :=
  match (e.world.threat o).currentVictimRef.bind e.world.threatRefs with
  | none => e.next.updateVictim E o
  | some r => if E.shouldBeOffline e.tick r.owner r.victim then e.next.updateVictim E o else e

end Execution

/-! ### Quiet changes -/

namespace World

/-- Owner and victim of a threat reference. -/
def threatKey (w : World U) (id : ℕ) : Option (U × U) :=
  (w.threatRefs id).map fun r => (r.owner, r.victim)

/-- The threat manager of a unit points to a reference. -/
def Refers (w : World U) (o : U) (id : ℕ) : Prop :=
  (w.threat o).currentVictimRef = some id ∨ (w.threat o).fixateRef = some id ∨
    id ∈ (w.threat o).sortedThreatList ∨ ∃ v, (w.threat o).myThreatListEntries v = some id

/-- Only the contents of threat references and the choice of victims change. -/
structure Quiet (w w' : World U) : Prop where
  combatRefs : w'.combatRefs = w.combatRefs
  combat : w'.combat = w.combat
  inCombat : w'.inCombat = w.inCombat
  nextRef : w'.nextRef = w.nextRef
  key : ∀ id, w'.threatKey id = w.threatKey id
  entries : ∀ o, (w'.threat o).myThreatListEntries = (w.threat o).myThreatListEntries
  threatenedByMe : ∀ o, (w'.threat o).threatenedByMe = (w.threat o).threatenedByMe
  sorted : ∀ o, (w'.threat o).sortedThreatList = (w.threat o).sortedThreatList
  refers : ∀ o id, w'.Refers o id → w.Refers o id

variable (w : World U)

@[refl] theorem Quiet.refl : Quiet w w :=
  ⟨rfl, rfl, rfl, rfl, fun _ => rfl, fun _ => rfl, fun _ => rfl, fun _ => rfl, fun _ _ h => h⟩

variable {w' w'' : World U}

theorem Quiet.trans {w : World U} (h : Quiet w w') (h' : Quiet w' w'') : Quiet w w'' where
  combatRefs := h'.combatRefs.trans h.combatRefs
  combat := h'.combat.trans h.combat
  inCombat := h'.inCombat.trans h.inCombat
  nextRef := h'.nextRef.trans h.nextRef
  key id := (h'.key id).trans (h.key id)
  entries o := (h'.entries o).trans (h.entries o)
  threatenedByMe o := (h'.threatenedByMe o).trans (h.threatenedByMe o)
  sorted o := (h'.sorted o).trans (h.sorted o)
  refers o id hr := h.refers o id (h'.refers o id hr)

/-- A loop of quiet changes. -/
theorem quiet_foldl {α : Type} {f : World U → α → World U} (hf : ∀ w a, Quiet w (f w a))
    (l : List α) (w : World U) : Quiet w (l.foldl f w) := by
  induction l generalizing w with
  | nil => exact Quiet.refl w
  | cons a l ih => exact (hf w a).trans (ih (f w a))

/-- Only the contents of threat references change. -/
structure Mild (w w' : World U) : Prop extends Quiet w w' where
  threat : w'.threat = w.threat

theorem Mild.refl : Mild w w :=
  ⟨Quiet.refl w, rfl⟩

theorem Mild.trans {w : World U} (h : Mild w w') (h' : Mild w' w'') : Mild w w'' :=
  ⟨h.toQuiet.trans h'.toQuiet, h'.threat.trans h.threat⟩

theorem mild_foldl {α : Type} {f : World U → α → World U} (hf : ∀ w a, Mild w (f w a)) (l : List α)
    (w : World U) : Mild w (l.foldl f w) := by
  induction l generalizing w with
  | nil => exact Mild.refl w
  | cons a l ih => exact (hf w a).trans (ih (f w a))

variable {id : ℕ}

/-- Writing to a threat reference that stays between its units. -/
theorem mild_touch {w : World U} {r : ThreatReference U} (h : w.threatRefs id = some r)
    (r' : ThreatReference U) (howner : r'.owner = r.owner) (hvictim : r'.victim = r.victim)
    (increased : Bool) : Mild w (w.touch id r' increased) where
  combatRefs := rfl
  combat := rfl
  inCombat := rfl
  nextRef := rfl
  key id' := by
    by_cases hid : id' = id
    · subst hid
      simp [threatKey, touch, heapNotify, setThreatRef, h, howner, hvictim]
    · simp [threatKey, touch, heapNotify, setThreatRef, hid]
  entries _ := rfl
  threatenedByMe _ := rfl
  sorted _ := rfl
  refers _ _ hr := hr
  threat := rfl

/-- Changing a threat manager so that it points to nothing new. -/
theorem quiet_setThreat (o : U) {f : ThreatManager U → ThreatManager U}
    (hentries : (f (w.threat o)).myThreatListEntries = (w.threat o).myThreatListEntries)
    (hthreatened : (f (w.threat o)).threatenedByMe = (w.threat o).threatenedByMe)
    (hsorted : (f (w.threat o)).sortedThreatList = (w.threat o).sortedThreatList)
    (hvictim : ∀ id, (f (w.threat o)).currentVictimRef = some id → w.Refers o id)
    (hfixate : ∀ id, (f (w.threat o)).fixateRef = some id → w.Refers o id) :
    Quiet w (w.setThreat o f) := by
  have hthreat : ∀ o',
    (w.setThreat o f).threat o' = if o' = o then f (w.threat o) else w.threat o' := by
    simp [setThreat, Function.update_apply]
  refine ⟨rfl, rfl, rfl, rfl, fun _ => rfl, ?_, ?_, ?_, ?_⟩
  · intro o'
    rw [hthreat]
    split_ifs with ho
    · rw [ho, hentries]
    · rfl
  · intro o'
    rw [hthreat]
    split_ifs with ho
    · rw [ho, hthreatened]
    · rfl
  · intro o'
    rw [hthreat]
    split_ifs with ho
    · rw [ho, hsorted]
    · rfl
  · intro o' id hr
    rw [Refers, hthreat] at hr
    split_ifs at hr with ho
    · subst ho
      rcases hr with hr | hr | hr | hr
      · exact hvictim id hr
      · exact hfixate id hr
      · exact Or.inr (Or.inr (Or.inl (hsorted ▸ hr)))
      · exact Or.inr (Or.inr (Or.inr (hentries ▸ hr)))
    · exact hr

theorem mild_addRefThreat (amount : ℚ) (w : World U) (id : ℕ) :
    Mild w (w.addRefThreat amount id) := by
  rw [addRefThreat]
  split
  · exact Mild.refl w
  · next r hr =>
      split_ifs
      · exact Mild.refl w
      · apply mild_touch hr <;> rfl

theorem mild_scaleRefThreat (factor : ℚ) (w : World U) (id : ℕ) :
    Mild w (w.scaleRefThreat factor id) := by
  rw [scaleRefThreat]
  split
  · exact Mild.refl w
  · next r hr =>
      split_ifs
      · exact Mild.refl w
      · apply mild_touch hr <;> rfl

theorem quiet_registerForAIUpdate (o guid : U) : Quiet w (w.registerForAIUpdate o guid) :=
  quiet_setThreat w o rfl rfl rfl (fun _ h => Or.inl h) fun _ h => Or.inr (Or.inl h)

variable (t : ℕ)

theorem quiet_updateOffline (w : World U) (id : ℕ) : Quiet w (w.updateOffline E t id) := by
  rw [updateOffline]
  split
  · exact Quiet.refl w
  · next r hr =>
      split_ifs
      · exact Quiet.refl w
      · refine Mild.toQuiet ?_
        apply mild_touch hr <;> rfl
      all_goals
        refine Quiet.trans (Mild.toQuiet ?_) (quiet_registerForAIUpdate _ _ _)
        apply mild_touch hr <;> rfl

theorem mild_updateTauntState (w : World U) (id state : ℕ) :
    Mild w (w.updateTauntState E t id state) := by
  rw [updateTauntState]
  split
  · exact Mild.refl w
  · next r hr =>
      dsimp only
      split_ifs <;> first
        | exact Mild.refl w
        | (apply mild_touch hr <;> rfl)

theorem mild_evaluateSuppressedRef (canExpire : Bool) (w : World U) (id : ℕ) :
    Mild w (w.evaluateSuppressedRef E t canExpire id) := by
  rw [evaluateSuppressedRef]
  split
  · exact Mild.refl w
  · next r hr =>
      split_ifs
      · apply mild_touch hr <;> rfl
      · apply mild_touch hr <;> rfl
      · exact Mild.refl w

/-! ### Choosing a victim -/

variable {melee : U → Bool}

theorem searchVictim_mem {old : ℕ × ThreatReference U} {list : List (ℕ × ThreatReference U)}
    (h : searchVictim melee old list = some id) : id = old.1 ∨ id ∈ list.map Prod.fst := by
  induction list with
  | nil => exact absurd h (some_ne_none _).symm
  | cons next rest ih =>
    rw [searchVictim] at h
    split_ifs at h with heq hlt hmelee
    · exact Or.inl ((Option.some.inj h).symm.trans heq)
    · exact Or.inl (Option.some.inj h).symm
    · exact Or.inr (List.mem_cons.mpr (Or.inl (Option.some.inj h).symm))
    · rcases ih h with hold | hmem
      · exact Or.inl hold
      · exact Or.inr (List.mem_cons_of_mem _ hmem)

/-- The chosen victim is the fixated one, the current one, or one of the list. -/
theorem selectVictim_mem {fixate current : Option (ℕ × ThreatReference U)}
    {ordered : List (ℕ × ThreatReference U)}
    (h : selectVictim melee fixate current ordered = some id) :
    (∃ f, fixate = some f ∧ id = f.1) ∨ (∃ c, current = some c ∧ id = c.1) ∨
      id ∈ ordered.map Prod.fst := by
  unfold selectVictim at h
  split at h
  · next f hf => exact Or.inl ⟨f, (filter_eq_some_iff.mp hf).1, (Option.some.inj h).symm⟩
  · cases ordered with
    | nil => exact absurd h (some_ne_none _).symm
    | cons highest rest =>
      have hhighest : ∀ {i}, some highest.1 = some i → i ∈ (highest :: rest).map Prod.fst :=
        fun hi => List.mem_cons.mpr (Or.inl (Option.some.inj hi).symm)
      dsimp only at h
      by_cases havailable : (!highest.2.isAvailable) = true
      · rw [if_pos havailable] at h
        exact absurd h (some_ne_none _).symm
      rw [if_neg havailable] at h
      split at h
      · exact Or.inr (Or.inr (hhighest h))
      · next old hold =>
          have hcurrent := (filter_eq_some_iff.mp hold).1
          split_ifs at h
          · exact Or.inr (Or.inr (hhighest h))
          · exact Or.inr (Or.inl ⟨old, hcurrent, (Option.some.inj h).symm⟩)
          · exact Or.inr (Or.inr (hhighest h))
          · exact Or.inr (Or.inr (hhighest h))
          · rcases searchVictim_mem h with hid | hmem
            · exact Or.inr (Or.inl ⟨old, hcurrent, hid⟩)
            · exact Or.inr (Or.inr hmem)

theorem fst_of_lookup {w : World U} {p : ℕ × ThreatReference U} (h : w.lookup id = some p) :
    p.1 = id := by
  obtain ⟨r, -, rfl⟩ := map_eq_some_iff.mp h
  rfl

/-- `ReselectVictim` is quiet, and it chooses among the references that the manager points to. -/
theorem reselectVictim_spec (w : World U) (o : U) :
    Quiet w (w.reselectVictim E t o).2 ∧
      ∀ id, (w.reselectVictim E t o).1 = some id → (w.reselectVictim E t o).2.Refers o id := by
  rw [reselectVictim]
  split_ifs with hempty
  · exact ⟨Quiet.refl w, fun _ h => by simp at h⟩
  · set w' := (entriesOf (E.order t) (w.threat o).myThreatListEntries).foldl (updateOffline E t) w
    have hquiet : Quiet w w' := quiet_foldl (quiet_updateOffline E t) _ w
    refine ⟨hquiet, fun id h => ?_⟩
    rcases selectVictim_mem h with ⟨f, hf, rfl⟩ | ⟨c, hc, rfl⟩ | hmem
    · obtain ⟨i, hi, hlookup⟩ := bind_eq_some_iff.mp hf
      rw [fst_of_lookup hlookup]
      exact Or.inr (Or.inl hi)
    · obtain ⟨i, hi, hlookup⟩ := bind_eq_some_iff.mp hc
      rw [fst_of_lookup hlookup]
      exact Or.inl hi
    · obtain ⟨p, hp, rfl⟩ := List.mem_map.mp hmem
      obtain ⟨i, hi, hlookup⟩ := List.mem_filterMap.mp hp
      rw [fst_of_lookup hlookup]
      exact Or.inr (Or.inr (Or.inl ((E.heapOrder_perm t _).mem_iff.mp hi)))

theorem quiet_updateVictim (w : World U) (o : U) : Quiet w (w.updateVictim E t o) := by
  obtain ⟨hquiet, hmem⟩ := w.reselectVictim_spec E t o
  refine hquiet.trans ?_
  rw [updateVictim]
  apply quiet_setThreat
  · rfl
  · rfl
  · rfl
  · exact hmem
  · exact fun _ h => Or.inr (Or.inl h)

end World

end Combat

end IscServer
