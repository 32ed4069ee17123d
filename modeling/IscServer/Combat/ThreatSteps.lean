import IscServer.Combat.CombatSteps

/-!
# The Operations of the Threat Manager

The operations of the threat manager lead from sound worlds to sound ones, and their calls into an
AI see consistent worlds. `AddThreat` puts the units in combat before it creates a threat reference,
so that threat always comes with combat; this goes by induction on the nesting of its calls.

## Main results

* `addThreat_calm`: adding threat, along vehicles, private objects and redirections.
* `step_outcome`: the outcome of every operation of both managers.
-/

set_option linter.unusedSectionVars false

namespace IscServer

namespace Combat

variable {U : Type} [DecidableEq U] (E : Env U)

namespace Execution

open World

/-! ### Entries that change -/

variable {e : Execution U}

section

variable (h : Sound e.world)
include h

theorem calm_of_mild {f : World U → World U} (hf : Mild e.world (f e.world)) :
    Calm e (e.update f) :=
  calm_update (sound_of_mild h hf)

theorem scaleThreat_calm (o target : U) (factor : ℚ) : Calm e (e.scaleThreat o target factor) := by
  refine calm_of_mild h ?_
  split
  · exact Mild.refl _
  · exact mild_scaleRefThreat _ _ _

theorem resetAllThreat_calm (o : U) : Calm e (e.resetAllThreat E o) :=
  calm_of_mild h (mild_foldl (mild_scaleRefThreat 0) _ _)

theorem evaluateSuppressed_calm (a : U) (canExpire : Bool) :
    Calm e (e.evaluateSuppressed E a canExpire) :=
  calm_of_mild h (mild_foldl (mild_evaluateSuppressedRef E e.tick canExpire) _ _)

theorem tauntStates_calm (o : U) : Calm e (e.update fun w => (E.order e.tick).foldl (fun w v =>
    match (w.threat o).myThreatListEntries v with
    | none => w
    | some id => w.updateTauntState E e.tick id
        ((tauntState (E.tauntCasters e.tick o) v).getD ThreatReference.tauntStateNone)) w) := by
  refine calm_of_mild h (mild_foldl (fun w v => ?_) _ _)
  split
  · exact Mild.refl w
  · exact mild_updateTauntState E _ _ _ _

theorem tauntUpdate_calm (o : U) : Calm e (e.tauntUpdate E o) := by
  have hstates := tauntStates_calm E h o
  exact hstates.trans (evaluateSuppressed_calm E hstates.sound o true)

theorem updateMyTempModifiers_calm (a : U) : Calm e (e.updateMyTempModifiers E a) := by
  rw [updateMyTempModifiers]
  refine calm_of_mild h ?_
  refine mild_foldl (fun w id => ?_) _ _
  split
  · exact Mild.refl w
  · next r hr => apply mild_touch hr <;> rfl

/-- A change of a threat manager that keeps its entries and points to nothing new. -/
theorem setThreat_calm (o : U) {f : ThreatManager U → ThreatManager U}
    (hentries : ∀ m, (f m).myThreatListEntries = m.myThreatListEntries)
    (hthreatened : ∀ m, (f m).threatenedByMe = m.threatenedByMe)
    (hsorted : ∀ m, (f m).sortedThreatList = m.sortedThreatList)
    (hneeds : ∀ m, (f m).needsAIUpdate = m.needsAIUpdate)
    (hvictim : ∀ m, (f m).currentVictimRef = m.currentVictimRef)
    (hfixate : ∀ id, (f (e.world.threat o)).fixateRef = some id → e.world.Refers o id) :
    Calm e (e.update fun w => w.setThreat o f) := by
  refine calm_update (sound_of_quiet h
    (quiet_setThreat _ o (hentries _) (hthreatened _) (hsorted _) ?_ hfixate) ?_)
  · intro id hid
    exact Or.inl ((hvictim _).symm.trans hid)
  · intro u
    simp only [setThreat, Function.update_apply]
    split_ifs with hu
    · rw [hneeds]
      exact h.settled o
    · exact h.settled u

theorem fixateTarget_calm (o : U) (target : Option U) : Calm e (e.fixateTarget o target) := by
  apply setThreat_calm h o
  · exact fun _ => rfl
  · exact fun _ => rfl
  · exact fun _ => rfl
  · exact fun _ => rfl
  · exact fun _ => rfl
  · intro id hid
    obtain ⟨v, -, hv⟩ := Option.bind_eq_some_iff.mp hid
    exact Or.inr (Or.inr (Or.inr ⟨v, hv⟩))

theorem setRedirectInfo_calm (a : U) (redirectInfo : List (U × ℕ)) :
    Calm e (e.setRedirectInfo a redirectInfo) := by
  apply setThreat_calm h a <;> try exact fun _ => rfl
  exact fun id hid => Or.inr (Or.inl hid)

theorem threatUpdate_calm (o : U) (tdiff : ℕ) : Calm e (e.threatUpdate E o tdiff) := by
  have htimer : ∀ {e : Execution U}, Sound e.world → ∀ f : ThreatManager U → ℕ,
      Calm e (e.update fun w => w.setThreat o fun m => { m with updateTimer := f m }) := by
    intro e h f
    apply setThreat_calm h o <;> try exact fun _ => rfl
    exact fun id hid => Or.inr (Or.inl hid)
  rw [threatUpdate]
  split_ifs
  · exact calm_refl h
  · have hvictim := updateVictim_calm E h o
    exact hvictim.trans (htimer hvictim.sound fun _ => threatUpdateInterval)
  · exact htimer h fun m => m.updateTimer - tdiff

end

theorem getCurrentVictim_calm {e : Execution U} (h : Sound e.world) (o : U) :
    Calm e (e.getCurrentVictim E o) := by
  have hnext := calm_next h
  rw [getCurrentVictim]
  split
  · exact hnext.trans (updateVictim_calm E hnext.sound o)
  · split_ifs
    · exact hnext.trans (updateVictim_calm E hnext.sound o)
    · exact calm_refl h

/-! ### Adding threat -/

variable {o : U}

variable {w : World U} {v : U}

/-- A new threat reference for units that are in combat. -/
theorem sound_newThreatRef (h : Sound w) (hnone : (w.threat o).myThreatListEntries v = none)
    (hin : w.isInCombatWith o v = true) : Sound (w.newThreatRef o v) := by
  refine ⟨⟨h.toCombatSound.congr rfl rfl (Nat.le_succ _), h.toThreatSound.newThreatRef hnone, ?_,
    ?_⟩, h.flags⟩
  · intro id o' v' hk
    rw [(w.newThreatRef_frame o v id).1] at hk
    split_ifs at hk
    · obtain ⟨rfl, rfl⟩ := Prod.mk.inj (Option.some.inj hk)
      exact hin
    · exact h.linked id o' v' hk
  · intro u
    obtain ⟨-, -, -, -, -, hneeds⟩ := w.newThreatRef_threat o v u
    rw [hneeds]
    exact h.settled u

theorem mild_increaseThreat (t : ℕ) (amount : ℚ) (w : World U) (id : ℕ) :
    Mild w (w.increaseThreat E t amount id) := by
  rw [increaseThreat]
  cases hr : w.threatRefs id with
  | none => exact Mild.refl w
  | some r =>
    dsimp only
    set w' := if r.online = .suppressed ∧ (!shouldBeSuppressed E t r) = true then
      w.touch id { r with online := .online } true else w with hw'
    have hwakes : Mild w w' := by
      rw [hw']
      split_ifs
      · apply mild_touch hr <;> rfl
      · exact Mild.refl w
    by_cases hadd : (r.online = .suppressed ∧ (!shouldBeSuppressed E t r) = true) ∨
      r.online = .online
    · rw [if_pos hadd]
      exact hwakes.trans (mild_addRefThreat amount w' id)
    · rw [if_neg hadd]
      exact hwakes

/-- The threat of a new entry; only its owner may have an update left over. -/
theorem startThreat_spec (h : Settled w) (t : ℕ) (amount : ℚ) {id : ℕ}
    (hk : w.threatKey id = some (o, v)) :
    Quiet w (w.startThreat E t amount id) ∧ SettledBut o (w.startThreat E t amount id) := by
  have hoffline := quiet_updateOffline E t w id
  have hsettled : SettledBut o (w.updateOffline E t id) := by
    intro u hu
    obtain ⟨r, hr, rfl, -⟩ := threatKey_eq_some.mp hk
    rw [needsAIUpdate_updateOffline, h u]
    simp [wakesFor, hr, Ne.symm hu]
  rw [startThreat]
  split_ifs
  · have hadd := mild_addRefThreat amount (w.updateOffline E t id) id
    refine ⟨hoffline.trans hadd.toQuiet, ?_⟩
    rw [SettledBut, hadd.threat]
    exact hsettled
  · exact ⟨hoffline, hsettled⟩

/-- **The end of `AddThreat`**, for units that are in combat. -/
theorem applyThreat_calm (h : Sound e.world) {target : U}
    (hin : e.world.isInCombatWith o target = true) (amount : ℚ) :
    Calm e (e.applyThreat E o target amount) := by
  rw [applyThreat]
  cases hentry : (e.world.threat o).myThreatListEntries target with
  | some id => exact calm_of_mild h (mild_increaseThreat E e.tick amount _ id)
  | none =>
    have hnew := sound_newThreatRef h hentry hin
    have hkey : (e.world.newThreatRef o target).threatKey e.world.nextRef = some (o, target) := by
      rw [(e.world.newThreatRef_frame o target _).1, if_pos rfl]
    obtain ⟨hquiet, hsettled⟩ := startThreat_spec E hnew.settled e.tick amount hkey
    dsimp only
    set e₁ := (e.update fun w =>
      (w.newThreatRef o target).startThreat E e.tick amount e.world.nextRef).next
    have hend : ∀ {e₂ : Execution U} {calls : List (HandOff U × World U)},
      Quiet e₁.world e₂.world →
        Settled e₂.world → Logs e₁ e₂ calls → (∀ c ∈ calls, c.2 = e₂.world) → Calm e e₂ := by
      intro e₂ calls hquiet₂ hsettled₂ hlogs hsees
      have hsound := sound_of_quiet hnew (hquiet.trans hquiet₂) hsettled₂
      refine calm_of_logs hsound hlogs fun c hc => ?_
      rw [hsees c hc]
      exact hsound.consistent
    split_ifs
    · obtain ⟨hquiet₂, hsettled₂, calls, hlogs, hsees, -⟩ :=
        updateVictim_spec E (e := e₁) (hnew.toThreatSound.quiet hquiet) hsettled
      exact hend hquiet₂ hsettled₂ hlogs hsees
    · obtain ⟨hquiet₂, hsettled₂⟩ := processAIUpdates_settles E (e := e₁) hsettled
      obtain ⟨-, calls, hlogs, hsees, -⟩ := e₁.processAIUpdates_spec E o
      exact hend hquiet₂ hsettled₂ hlogs hsees

theorem engageOnly_calm {e : Execution U} (h : Sound e.world) (o target : U) :
    Calm e (e.engageOnly E o target) := by
  obtain ⟨hset, -⟩ := setInCombatWith_spec E h o target false
  rw [engageOnly]
  dsimp only
  split_ifs
  · exact hset
  · refine hset.trans (calm_foldl (fun e pair h => ?_) _ hset.sound)
    have hnext := calm_next h
    split_ifs
    · exact hnext.trans (setInCombatWith_spec E hnext.sound o pair.1 false).1
    · exact hnext

variable {add : Execution U → U → ℚ → Execution U}

theorem foldl_redirectThreat_calm
    (hadd : ∀ (e : Execution U) v n, Sound e.world → Calm e (add e v n)) (o : U) (origAmount : ℚ)
    (info : List (U × ℕ)) (h : Sound e.world) (amount : ℚ) :
    Calm e (info.foldl (fun (e, amount) pair =>
      let e := e.next
      match e.redirectTarget E o pair.1 with
      | none => (e, amount)
      | some redirTarget =>
        let amountRedirected := origAmount * pair.2 / 100
        (add e redirTarget amountRedirected, amount - amountRedirected)) (e, amount)).1 := by
  induction info generalizing e amount with
  | nil => exact calm_refl h
  | cons pair info ih =>
    have hnext := calm_next h
    rw [List.foldl_cons]
    dsimp only
    cases e.next.redirectTarget E o pair.1 with
    | none => exact hnext.trans (ih hnext.sound amount)
    | some v =>
      have hnested := hadd e.next v (origAmount * pair.2 / 100) hnext.sound
      exact (hnext.trans hnested).trans (ih hnested.sound _)

/-- The redirections, when the nested call is calm. -/
theorem redirectThreat_calm (hadd : ∀ (e : Execution U) v n, Sound e.world → Calm e (add e v n))
    (h : Sound e.world) (o : U) (origAmount : ℚ) (info : List (U × ℕ)) :
    Calm e (redirectThreat E add o origAmount info e).1 :=
  foldl_redirectThreat_calm E hadd o origAmount info h origAmount

/-- Both branches are calm. -/
theorem calm_ite {c : Prop} [Decidable c] {e₁ e₂ : Execution U} (h₁ : Calm e e₁) (h₂ : Calm e e₂) :
    Calm e (if c then e₁ else e₂) := by
  split_ifs
  · exact h₁
  · exact h₂

/-- **`AddThreat`**, along vehicles, private objects and redirections. -/
theorem addThreat_calm (depth : ℕ) (h : Sound e.world) (o target : U) (amount : ℚ)
    (spell : Option SpellInfo) (ignoreModifiers ignoreRedirects : Bool) :
    Calm e (addThreat E depth e o target amount spell ignoreModifiers ignoreRedirects) := by
  induction depth generalizing e target amount ignoreModifiers ignoreRedirects with
  | zero =>
    exact calm_of_logs h (logs_update e id) fun _ hx => absurd hx List.not_mem_nil
  | succ depth ih =>
    rw [addThreat]
    extract_lets vehicle owner amount info redirected r
    have hnext := calm_next h
    have hvehicle : Calm e vehicle.1 := by
      simp only [vehicle]
      cases E.vehicleBase e.next.tick target with
      | none => exact hnext
      | some base => exact hnext.trans (ih hnext.sound base _ _ _)
    have howner : Calm e owner.1 := by
      rw [apply_ite Prod.fst]
      exact calm_ite (hvehicle.trans (ih hvehicle.sound _ _ _ _)) hvehicle
    have hredirected : Calm e redirected.1 := by
      rw [apply_ite Prod.fst]
      refine calm_ite (howner.trans (redirectThreat_calm E ?_ howner.sound o _ info)) howner
      exact fun e v n h => ih h v n true true
    obtain ⟨hset, hin⟩ := setInCombatWith_spec E hredirected.sound o target false
    have hcombat : Calm e r.2 := hredirected.trans hset
    refine calm_ite hnext (calm_ite hvehicle (calm_ite ?_ ?_))
    · exact howner.trans (engageOnly_calm E howner.sound o target)
    · split_ifs with hr
      · exact hcombat
      · have hyes : r.1 = true := by simpa using hr
        exact hcombat.trans (applyThreat_calm E hcombat.sound (hin hyes) redirected.2)

theorem matchUnitThreatToHighestThreat_calm (h : Sound e.world) (o target : U) :
    Calm e (e.matchUnitThreatToHighestThreat E o target) := by
  rw [matchUnitThreatToHighestThreat]
  split
  · exact calm_refl h
  · exact calm_ite (calm_refl h) (addThreat_calm E E.depth h o target _ none true true)

theorem forwardThreatForAssistingMe_calm (h : Sound e.world) (a assistant : U) (baseAmount : ℚ)
    (spell : Option SpellInfo) (ignoreModifiers : Bool) :
    Calm e (e.forwardThreatForAssistingMe E a assistant baseAmount spell ignoreModifiers) := by
  refine calm_ite (calm_refl h) ?_
  extract_lets owners canBeThreatened cannotBeThreatened perTarget e₁
  have hcan : Calm e e₁ :=
    calm_foldl (fun _ o h => addThreat_calm E E.depth h o assistant _ _ _ _) _ h
  exact hcan.trans (calm_foldl (fun _ o h => addThreat_calm E E.depth h o assistant _ _ _ _) _
    hcan.sound)

/-! ### All operations -/

/-- The condition of an operation: the three loops that erase a reference before they end its combat
do so undisturbed. -/
def StepUndisturbed (e : Execution U) : Op U → Prop
  | .combat (.update a tdiff) =>
    Run.Along (updateRef E a tdiff) (EndsUndisturbed E a true (timedOut a tdiff)) e.next
      (E.order e.next.tick)
  | .combat (.endCombatBeyondRange a range includingPvP) =>
    if includingPvP then LoopsUndisturbed E a (inRange E range) e.next
    else LoopUndisturbed E a false (inRange E range) e.next
  | .combat (.revalidateCombat a) => LoopsUndisturbed E a (stillValid E a) e.next
  | _ => True

theorem threatStep_calm (h : Sound e.world) (op : ThreatOp U) : Calm e (e.threatStep E op) := by
  cases op with
  | addThreat o target amount spell ignoreModifiers ignoreRedirects =>
    exact addThreat_calm E E.depth h o target amount spell ignoreModifiers ignoreRedirects
  | scaleThreat o target factor => exact scaleThreat_calm h o target factor
  | matchUnitThreatToHighestThreat o target =>
    exact matchUnitThreatToHighestThreat_calm E h o target
  | tauntUpdate o => exact tauntUpdate_calm E h o
  | resetAllThreat o => exact resetAllThreat_calm E h o
  | clearThreat o target => exact clearThreat_calm E h o target
  | clearAllThreat o => exact clearAllThreat_calm E h o
  | fixateTarget o target => exact fixateTarget_calm h o target
  | evaluateSuppressed a canExpire => exact evaluateSuppressed_calm E h a canExpire
  | updateMyTempModifiers a => exact updateMyTempModifiers_calm E h a
  | forwardThreatForAssistingMe a assistant baseAmount spell ignoreModifiers =>
    exact forwardThreatForAssistingMe_calm E h a assistant baseAmount spell ignoreModifiers
  | removeMeFromThreatLists a filter => exact removeMeFromThreatLists_calm E h a (filter e.tick)
  | update o tdiff => exact threatUpdate_calm E h o tdiff
  | getCurrentVictim o => exact getCurrentVictim_calm E h o
  | setRedirectInfo a redirectInfo => exact setRedirectInfo_calm h a redirectInfo

/-- **Every operation** leads from a sound world to a sound one, and its calls see consistent worlds
exactly when the condition is met. -/
theorem step_outcome (h : Sound e.world) (op : Op U) :
    Outcome e (e.step E op) (StepUndisturbed E e op) := by
  have hnext := calm_next h
  -- the operation itself comes after the tick
  have hafter : ∀ {e' : Execution U} {c : Prop}, Outcome e.next e' c → Outcome e e' c :=
    fun ho => (Outcome.trans hnext ho).congr (iff_of_eq (true_and _))
  cases op with
  | threat op => exact hafter (threatStep_calm E hnext.sound op)
  | combat op =>
    cases op with
    | setInCombatWith a who addSecondUnitSuppressed =>
      exact hafter (setInCombatWith_spec E hnext.sound a who addSecondUnitSuppressed).1
    | inheritCombatStatesFrom a who =>
      exact hafter (inheritCombatStatesFrom_calm E hnext.sound a who)
    | update a tdiff => exact hafter (combatUpdate_outcome E hnext.sound a tdiff)
    | endCombatBeyondRange a range includingPvP =>
      exact hafter (endCombatBeyondRange_outcome E hnext.sound a range includingPvP)
    | suppressPvPCombat a filter => exact hafter (suppressPvPCombat_calm E hnext.sound a filter)
    | suppressFor pvp who other => exact hafter (suppressFor_calm E hnext.sound pvp who other)
    | endAllPvECombat a filter => exact hafter (endAllPvECombat_calm E hnext.sound a filter)
    | endAllPvPCombat a filter => exact hafter (endAllPvPCombat_calm E hnext.sound a filter)
    | revalidateCombat a => exact hafter (revalidateCombat_outcome E hnext.sound a)
    | endCombat pvp a b => exact hafter (endCombatWith_calm E hnext.sound pvp a b)

end Execution

end Combat

end IscServer
