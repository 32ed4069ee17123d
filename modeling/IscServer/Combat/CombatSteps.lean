import IscServer.Combat.CombatSound

/-!
# The Operations of the Combat Manager

`Outcome e e' c` says of a piece of code that it leads to a sound world, and that the calls it makes
into an AI see consistent worlds if and only if `c`. All operations of the combat manager lead from
a sound world to a sound one, and all their calls see consistent worlds (`Calm`), with one exception:
when a loop ends a combat whose reference it has erased from the map of its owner (`endErased`), the
calls of `JustStartedThreateningMe` that come out of `ClearThreat` see a reference on one side only.

## Main results

* `setInCombatWith_spec`: beginning or refreshing a combat.
* `endCombat_calm`: ending a combat whose reference is in both maps.
* `endErased_outcome`: ending an erased reference is calm exactly when no `ClearThreat` hands over.
* `combatUpdate_outcome`, `endCombatBeyondRange_outcome`, `revalidateCombat_outcome`: the loops.
-/

set_option linter.unusedSectionVars false

namespace IscServer

open List

namespace Combat

variable {U : Type} [DecidableEq U] (E : Env U)

variable {r : CombatReference U}

variable {id : ℕ}

variable {pvp : Bool}

variable {a b : U}

namespace World

/-! ### Quiet changes -/

variable {w w' : World U}

/-- Clearing threat keeps a world sound. -/
theorem sound_of_shrinks (h : Sound w) (hs : Shrinks w w') : Sound w' := by
  have hmaps := refs_congr hs.combat
  refine ⟨⟨h.toCombatSound.congr hs.combatRefs hmaps (Nat.le_of_eq hs.nextRef.symm), hs.sound, ?_,
    hs.settled⟩, ?_⟩
  · intro id o v hk
    rw [isInCombatWith, hmaps]
    exact h.linked id o v (hs.keys id _ hk)
  · intro a
    exact (h.flags a).congr (fun pvp b => by rw [hmaps]) hs.combatRefs hs.inCombat

theorem sound_of_quiet (h : Sound w) (hq : Quiet w w') (hsettled : Settled w') : Sound w' :=
  sound_of_shrinks h (Shrinks.of_quiet h.toThreatSound hq hsettled)

theorem sound_of_mild (h : Sound w) (hm : Mild w w') : Sound w' := by
  refine sound_of_quiet h hm.toQuiet ?_
  rw [Settled, hm.threat]
  exact h.settled

/-- A world with less threat than a sound one is consistent. -/
theorem consistent_of_shrinks (h : Sound w) (hs : Shrinks w w') : Consistent w' :=
  (sound_of_shrinks h hs).consistent

/-- Freeing one threat reference after the other. -/
theorem shrinks_foldl (h : ThreatSound w) (hsettled : Settled w) (ids : List ℕ) :
    Shrinks w (ids.foldl World.unregisterAndFree w) := by
  induction ids generalizing w with
  | nil => exact Shrinks.refl h hsettled
  | cons id ids ih =>
    have hfree := shrinks_unregisterAndFree h hsettled id
    exact hfree.trans (ih hfree.sound hfree.settled)

/-! ### Combat references that change -/

/-- The combat state of a unit is computed anew. -/
theorem Wired.recompute {w : World U} (h : Wired w) (a : U) : Wired (w.recompute E a) :=
  ⟨h.toCombatSound.congr rfl rfl (Nat.le_refl _), h.toThreatSound.congr rfl rfl (Nat.le_refl _),
    h.linked, h.settled⟩

/-- Writing to a combat reference that stays between its units. -/
theorem Wired.setCombatRef {w : World U} (h : Wired w) {r r' : CombatReference U}
    (hr : w.combatRefs id = some r) (hfirst : r'.first = r.first) (hsecond : r'.second = r.second)
    (hpvp : r'.isPvP = r.isPvP) : Wired (w.setCombatRef id r') := by
  have hget : ∀ id', (w.setCombatRef id r').combatRefs id' = if id' = id then some r' else
    w.combatRefs id' :=
    fun id' => Function.update_apply _ _ _ _
  have hpair : ∀ id' pvp a b, (w.setCombatRef id r').Pair id' pvp a b ↔ w.Pair id' pvp a b := by
    intro id' pvp a b
    rw [Pair, Pair, hget]
    by_cases hid : id' = id
    · subst hid
      simp [hr, hpvp, CombatReference.Between, hfirst, hsecond]
    · simp [hid]
  refine ⟨⟨?_, ?_, ?_, ?_⟩, h.toThreatSound.congr rfl rfl (Nat.le_refl _), h.linked, h.settled⟩
  · intro pvp a b id'
    rw [hpair]
    exact h.refs pvp a b id'
  · intro id' r'' hr''
    rw [hget] at hr''
    split_ifs at hr'' with hid
    · obtain rfl := Option.some.inj hr''
      rw [hfirst, hsecond]
      exact h.distinct id r hr
    · exact h.distinct id' r'' hr''
  · exact h.single
  · intro id' hid'
    rw [hget, if_neg]
    · exact h.combatFresh id' hid'
    · rintro rfl
      rw [h.combatFresh id' hid'] at hr
      exact absurd hr (Option.some_ne_none _).symm

/-- The flag of a unit for which a reference is suppressed as before. -/
theorem flagOf_setCombatRef {w : World U} (h : CombatSound w) {r r' : CombatReference U}
    (hr : w.combatRefs id = some r) {x : U}
    (hx : x = r.first ∨ x = r.second → r'.isSuppressedFor x = r.isSuppressedFor x)
    (hflag : w.FlagOf x) :
    (w.setCombatRef id r').FlagOf x := by
  have hiff : (w.setCombatRef id r').HasCombat x ↔ w.HasCombat x := by
    refine exists_congr fun pvp => exists_congr fun b => exists_congr fun id' => ?_
    have hget : (w.setCombatRef id r').combatRefs id' = if id' = id then some r' else
      w.combatRefs id' :=
      Function.update_apply _ _ _ _
    have hmaps : (w.setCombatRef id r').refs pvp x b = w.refs pvp x b := rfl
    rw [hget, hmaps]
    by_cases hid : id' = id
    · subst hid
      rw [if_pos rfl, hr]
      simp only [Option.some.injEq, exists_and_left, exists_eq_left']
      refine and_congr_right fun hrefs => ?_
      obtain ⟨r'', hr'', -, hbetween⟩ := (h.refs pvp x b id').mp hrefs
      obtain rfl := Option.some.inj (hr.symm.trans hr'')
      rw [hx]
      rcases hbetween with ⟨hfirst, -⟩ | ⟨-, hsecond⟩
      · exact Or.inl hfirst.symm
      · exact Or.inr hsecond.symm
    · rw [if_neg hid]
  rw [FlagOf, hiff]
  exact hflag

/-- Once the flag of the last unit is computed anew, a world is sound. -/
theorem sound_recompute (h : Wired w) {a : U} (hflags : ∀ x, x ≠ a → w.FlagOf x) :
    Sound (w.recompute E a) := by
  refine ⟨h.recompute E a, fun x => ?_⟩
  by_cases hx : x = a
  · rw [hx]
    exact flagOf_recompute_self E w a
  · exact FlagOf.recompute E (hflags x hx) a

/-- Suppressing a reference for one of its units leaves the other one alone. -/
theorem isSuppressedFor_suppress {a x : U} (ha : a = r.first ∨ a = r.second)
    (hne : x ≠ a) (hx : x = r.first ∨ x = r.second) :
    (r.suppress a).isSuppressedFor x = r.isSuppressedFor x := by
  rw [CombatReference.suppress]
  by_cases hfirst : a = r.first
  · have hx' : x ≠ r.first := fun h => hne (h.trans hfirst.symm)
    simp [hfirst, CombatReference.isSuppressedFor, hx']
  · have hsecond : a = r.second := ha.resolve_left hfirst
    have hx' : x = r.first := hx.resolve_right fun h => hne (h.trans hsecond.symm)
    simp [hfirst, CombatReference.isSuppressedFor, hx']

theorem suppress_between (r : CombatReference U) (a : U) :
    (r.suppress a).first = r.first ∧ (r.suppress a).second = r.second ∧
    (r.suppress a).isPvP = r.isPvP := by
  rw [CombatReference.suppress]
  split_ifs <;> exact ⟨rfl, rfl, rfl⟩

/-- The unit of a map is one of the units of its references. -/
theorem CombatSound.unit_of_refs {w : World U} (h : CombatSound w)
    (hid : w.refs pvp a b = some id) (hr : w.combatRefs id = some r) :
    (a = r.first ∨ a = r.second) ∧ r.Between a b ∧ r.isPvP = pvp := by
  obtain ⟨r', hr', hpvp, hbetween⟩ := (h.refs _ _ _ _).mp hid
  obtain rfl := Option.some.inj (hr.symm.trans hr')
  refine ⟨?_, hbetween, hpvp⟩
  rcases hbetween with ⟨hfirst, -⟩ | ⟨-, hsecond⟩
  · exact Or.inl hfirst.symm
  · exact Or.inr hsecond.symm

/-- Suppressing a reference of a unit for it keeps the world wired, and all flags but its own. -/
theorem suppress_wired {w : World U} (h : Wired w) {a : U} (hflags : ∀ x, x ≠ a → w.FlagOf x)
    {b : U} (hid : w.refs pvp a b = some id) (hr : w.combatRefs id = some r) :
    Wired (w.setCombatRef id (r.suppress a)) ∧
      ∀ x, x ≠ a → (w.setCombatRef id (r.suppress a)).FlagOf x := by
  obtain ⟨hfirst, hsecond, hpvp⟩ := suppress_between r a
  obtain ⟨hunit, -, -⟩ := h.toCombatSound.unit_of_refs hid hr
  refine ⟨h.setCombatRef hr hfirst hsecond hpvp, fun x hx => ?_⟩
  refine flagOf_setCombatRef h.toCombatSound hr (fun hunits => ?_) (hflags x hx)
  exact isSuppressedFor_suppress hunit hx hunits

/-- Once the combat state of a unit is computed anew, a change of one of its references that does
not concern the other unit leads to a sound world. -/
theorem sound_setCombatRef {w : World U} (h : Sound w) {r r' : CombatReference U}
    (hr : w.combatRefs id = some r) (hfirst : r'.first = r.first) (hsecond : r'.second = r.second)
    (hpvp : r'.isPvP = r.isPvP) {a : U}
    (hother : ∀ x, x ≠ a → x = r.first ∨ x = r.second →
      r'.isSuppressedFor x = r.isSuppressedFor x) :
    Sound ((w.setCombatRef id r').recompute E a) := by
  refine sound_recompute E (h.toWired.setCombatRef hr hfirst hsecond hpvp) fun x hx => ?_
  exact flagOf_setCombatRef h.toCombatSound hr (hother x hx) (h.flags x)

/-- A reference that has been erased on one side is in the way. -/
theorem not_consistent_of_purged {w w' : World U} (h : CombatSound w)
    (hid : w.refs pvp a b = some id) (hs : Shrinks (w.purgeReference a b pvp) w') :
      ¬ Consistent w' := by
  have hne : a ≠ b := h.ne_of_refs hid
  have hother : w'.refs pvp b a = some id := by
    rw [refs_congr hs.combat, purgeReference, refs_setRef, if_neg (fun hc => hne hc.2.2)]
    exact h.refs_symm hid
  have hnone : w'.refs pvp a b = none := by
    rw [refs_congr hs.combat, purgeReference, refs_setRef, if_pos ⟨rfl, rfl, rfl⟩]
  intro hconsistent
  rw [hconsistent.symm pvp b a id hother] at hnone
  exact absurd hnone (Option.some_ne_none _)

end World

namespace Execution

open World

/-! ### Outcomes -/

/-- A piece of code leads to a sound world, and its calls see consistent worlds exactly under a
condition. -/
structure Outcome (e e' : Execution U) (c : Prop) : Prop where
  sound : Sound e'.world
  calls : ∃ calls, Logs e e' calls ∧ ((∀ x ∈ calls, Consistent x.2) ↔ c)

/-- The calls of a piece of code see consistent worlds. -/
def Calm (e e' : Execution U) : Prop :=
  Outcome e e' True

variable {e e' : Execution U}

theorem Outcome.congr {c c' : Prop} (h : Outcome e e' c) (hc : c ↔ c') : Outcome e e' c' := by
  rwa [← hc]

variable {e'' : Execution U}

theorem Outcome.trans {c c' : Prop} (h : Outcome e e' c) (h' : Outcome e' e'' c') :
    Outcome e e'' (c ∧ c') := by
  obtain ⟨calls, hlogs, hiff⟩ := h.calls
  obtain ⟨calls', hlogs', hiff'⟩ := h'.calls
  refine ⟨h'.sound, calls ++ calls', hlogs.trans hlogs', ?_⟩
  rw [forall_mem_append, hiff, hiff']

theorem Calm.trans (h : Calm e e') (h' : Calm e' e'') : Calm e e'' :=
  (Outcome.trans h h').congr (and_self_iff)

/-- Calls that all see consistent worlds. -/
theorem calm_of_logs (h : Sound e'.world) {calls : List (HandOff U × World U)}
    (hlogs : Logs e e' calls) (hsees : ∀ x ∈ calls, Consistent x.2) : Calm e e' :=
  ⟨h, calls, hlogs, iff_true_intro hsees⟩

/-- A change of the world without calls. -/
theorem calm_update {f : World U → World U} (h : Sound (f e.world)) : Calm e (e.update f) :=
  calm_of_logs h (logs_update e f) fun _ hx => absurd hx not_mem_nil

theorem calm_refl (h : Sound e.world) : Calm e e :=
  calm_update (f := id) h

theorem calm_next (h : Sound e.world) : Calm e e.next :=
  calm_of_logs h (logs_update e id) fun _ hx => absurd hx not_mem_nil

/-- **A loop**: its condition is that of its rounds. -/
theorem outcome_foldl {α : Type} {f : Execution U → α → Execution U} {C : Execution U → α → Prop}
    (hf : ∀ e a, Sound e.world → Outcome e (f e a) (C e a)) (l : List α) (h : Sound e.world) :
    Outcome e (l.foldl f e) (Run.Along f C e l) := by
  induction l generalizing e with
  | nil => exact calm_refl h
  | cons a l ih =>
    have hround := hf e a h
    exact hround.trans (ih hround.sound)

theorem calm_foldl {α : Type} {f : Execution U → α → Execution U}
    (hf : ∀ e a, Sound e.world → Calm e (f e a)) (l : List α) (h : Sound e.world) :
    Calm e (l.foldl f e) :=
  (outcome_foldl hf l h).congr (iff_true_intro (Run.along_of_forall (fun _ _ => trivial) e l))

/-! ### Clearing threat -/

theorem updateVictim_calm (h : Sound e.world) (o : U) : Calm e (e.updateVictim E o) := by
  obtain ⟨hquiet, hsettled, calls, hlogs, hsees, -⟩ :=
    updateVictim_spec E h.toThreatSound (h.settled.but o)
  have hsound := sound_of_quiet h hquiet hsettled
  refine calm_of_logs hsound hlogs fun x hx => ?_
  rw [hsees x hx]
  exact hsound.consistent

theorem clearThreat_calm (h : Sound e.world) (o target : U) :
    Calm e (e.clearThreat E o target) := by
  obtain ⟨hshrinks, -, calls, hlogs, hsees, -⟩ :=
    clearThreat_spec E h.toThreatSound h.settled o target
  have hsound := sound_of_shrinks h hshrinks
  refine calm_of_logs hsound hlogs fun x hx => ?_
  rw [hsees x hx]
  exact hsound.consistent

/-! ### The combat state -/

theorem updateOwnerCombatState_spec (e : Execution U) (a : U) :
    (e.updateOwnerCombatState E a).2.world = e.world.recompute E a ∧
      Logs e (e.updateOwnerCombatState E a).2 [] := by
  refine ⟨?_, logs_update e fun w => (w.updateOwnerCombatState E a).2⟩
  rw [updateOwnerCombatState, World.updateOwnerCombatState_eq]

theorem notify_calm {e : Execution U} (h : Sound e.world) (due : Bool) (me : U) (call : HandOff U) :
    Calm e (e.notify E due me call) := by
  obtain ⟨hworld, calls, hlogs, hsees⟩ := e.notify_spec E due me call
  refine calm_of_logs (hworld ▸ h) hlogs fun x hx => ?_
  rw [hsees x hx]
  exact h.consistent

/-- `UpdateOwnerCombatState` with its call, when only the flag of its unit may be wrong. -/
theorem leaveCombat_calm (h : Wired e.world) {a : U} (hflags : ∀ x, x ≠ a → e.world.FlagOf x) :
    Calm e (e.leaveCombat E a) := by
  obtain ⟨hworld, hlogs⟩ := e.updateOwnerCombatState_spec E a
  have hsound : Sound (e.updateOwnerCombatState E a).2.world := hworld ▸ sound_recompute E h hflags
  have hfirst : Calm e (e.updateOwnerCombatState E a).2 :=
    calm_of_logs hsound hlogs fun _ hx => absurd hx not_mem_nil
  exact hfirst.trans (notify_calm E hsound _ _ _)

theorem suppressFor_calm (h : Sound e.world) (pvp : Bool) (who other : U) :
    Calm e (e.suppressFor E pvp who other) := by
  rw [suppressFor]
  cases hid : e.world.refs pvp who other with
  | none => exact calm_refl h
  | some id =>
    cases hr : e.world.combatRefs id with
    | none =>
      simp only [hr]
      exact calm_refl h
    | some r =>
      simp only [hr]
      obtain ⟨hwired, hflags⟩ := suppress_wired h.toWired (fun x _ => h.flags x) hid hr
      set e₁ := e.update fun w => w.setCombatRef id (r.suppress who)
      obtain ⟨hsound, calls, hlogs, hsees⟩ := leaveCombat_calm E (e := e₁) hwired hflags
      exact ⟨hsound, calls, (logs_update e _).trans hlogs, hsees⟩

theorem suppressPvPCombat_calm (h : Sound e.world) (a : U) (filter : ℕ → U → Bool) :
    Calm e (e.suppressPvPCombat E a filter) := by
  have hloop : ∀ (l : List U) (w : World U), Wired w → (∀ x, x ≠ a → w.FlagOf x) →
      Wired (l.foldl (suppressRef a (filter e.tick)) w) ∧
        ∀ x, x ≠ a → (l.foldl (suppressRef a (filter e.tick)) w).FlagOf x := by
    intro l
    induction l with
    | nil => exact fun _ hw hf => ⟨hw, hf⟩
    | cons b l ih =>
      intro w hw hf
      have hround : Wired (suppressRef a (filter e.tick) w b) ∧
          ∀ x, x ≠ a → (suppressRef a (filter e.tick) w b).FlagOf x := by
        rw [suppressRef]
        cases hid : w.refs true a b with
        | none => exact ⟨hw, hf⟩
        | some id =>
          cases hr : w.combatRefs id with
          | none =>
            simp only [hr]
            exact ⟨hw, hf⟩
          | some r =>
            simp only [hr]
            split_ifs
            · exact suppress_wired hw hf hid hr
            · exact ⟨hw, hf⟩
      exact ih _ hround.1 hround.2
  obtain ⟨hwired, hflags⟩ := hloop (E.order e.tick) e.world h.toWired fun x _ => h.flags x
  set e₁ := e.update fun w => (E.order e.tick).foldl (suppressRef a (filter e.tick)) w
  obtain ⟨hsound, calls, hlogs, hsees⟩ := leaveCombat_calm E (e := e₁) hwired hflags
  exact ⟨hsound, calls, (logs_update e _).trans hlogs, hsees⟩

/-! ### Refreshing and beginning a combat -/

/-- Two calls in a row. -/
theorem notify_notify_calm (h : Sound e.world) (due due' : Bool) (me me' : U)
    (call call' : HandOff U) : Calm e ((e.notify E due me call).notify E due' me' call') := by
  have hfirst := notify_calm E h due me call
  exact hfirst.trans (notify_calm E hfirst.sound due' me' call')

theorem refreshTimer_spec {e : Execution U} (h : Sound e.world) (id : ℕ) :
    Calm e (e.refreshTimer id) ∧ (e.refreshTimer id).world.combat = e.world.combat := by
  rw [refreshTimer]
  cases hr : e.world.combatRefs id with
  | none => exact ⟨calm_refl h, rfl⟩
  | some r =>
    refine ⟨calm_update ⟨h.toWired.setCombatRef hr rfl rfl rfl, fun x => ?_⟩, rfl⟩
    exact flagOf_setCombatRef h.toCombatSound hr (fun _ => rfl) (h.flags x)

/-- One half of `Refresh`: a reference is no longer suppressed for a unit. -/
theorem unsuppress_spec {e : Execution U} (h : Sound e.world)
    (hr : e.world.combatRefs id = some r) (suppressed : Bool) (a : U) (r' : CombatReference U)
    (hfirst : r'.first = r.first) (hsecond : r'.second = r.second) (hpvp : r'.isPvP = r.isPvP)
    (hsame : suppressed = false → r' = r)
    (hother : ∀ x, x ≠ a → x = r.first ∨ x = r.second →
      r'.isSuppressedFor x = r.isSuppressedFor x) :
    let need := if suppressed then
        (e.update fun w => w.setCombatRef id r').updateOwnerCombatState E a else (false, e)
    Calm e need.2 ∧ need.2.world.combat = e.world.combat ∧ need.2.world.combatRefs id =
      some r' := by
  intro need
  cases suppressed with
  | false =>
    rw [hsame rfl]
    exact ⟨calm_refl h, rfl, hr⟩
  | true =>
    obtain ⟨hworld, hlogs⟩ :=
      (e.update fun w => w.setCombatRef id r').updateOwnerCombatState_spec E a
    have hneed : need.2.world = (e.world.setCombatRef id r').recompute E a := hworld
    have hsound := sound_setCombatRef E h hr hfirst hsecond hpvp hother
    have hset : (e.world.setCombatRef id r').combatRefs id = some r' := Function.update_self _ _ _
    have hcalm : Calm e need.2 := calm_of_logs (hneed ▸ hsound) ((logs_update e _).trans hlogs)
      fun _ hx => absurd hx not_mem_nil
    rw [hneed]
    exact ⟨hcalm, rfl, hset⟩

section

variable (h : Sound e.world)
include h

theorem refresh_spec (id : ℕ) :
    Calm e (e.refresh E id) ∧ (e.refresh E id).world.combat = e.world.combat := by
  rw [refresh]
  cases hr : e.world.combatRefs id with
  | none => exact ⟨calm_refl h, rfl⟩
  | some r =>
    obtain ⟨hcalm₁, hcombat₁, hr₁⟩ := unsuppress_spec E h hr r.suppressFirst r.first
      { r with suppressFirst := false } rfl rfl rfl (fun hs => by rw [← hs])
      (fun x hx _ => by simp [CombatReference.isSuppressedFor, hx])
    obtain ⟨hcalm₂, hcombat₂, -⟩ := unsuppress_spec E hcalm₁.sound hr₁ r.suppressSecond r.second
      { r with suppressFirst := false, suppressSecond := false } rfl rfl rfl
      (fun hs => by rw [← hs])
      (fun x hx hunit => by
        have hfirst : x = r.first := hunit.resolve_right hx
        simp [CombatReference.isSuppressedFor, hfirst])
    refine ⟨(hcalm₁.trans hcalm₂).trans (notify_notify_calm E hcalm₂.sound _ _ _ _ _ _), ?_⟩
    exact (congrArg World.combat (notify_notify_spec E _ _ _ _ _ _ _).1).trans
      (hcombat₂.trans hcombat₁)

/-- **Beginning a combat** between distinct units without a reference. -/
theorem beginCombat_spec {a who : U} (hne : a ≠ who)
    (hnone : ∀ pvp, e.world.refs pvp a who = none) (addSecondUnitSuppressed : Bool) :
    Calm e (e.beginCombat E a who addSecondUnitSuppressed) ∧
      (e.beginCombat E a who addSecondUnitSuppressed).world.isInCombatWith a who = true := by
  set pvp := E.isControlledByPlayer e.tick a && E.isControlledByPlayer e.tick who
  set r : CombatReference U := if addSecondUnitSuppressed then
    CombatReference.suppress { first := a, second := who, isPvP := pvp } who
    else { first := a, second := who, isPvP := pvp } with hr
  obtain ⟨hfirst, hsecond, hpvp⟩ : r.first = a ∧ r.second = who ∧ r.isPvP = pvp := by
    rw [hr]
    split_ifs
    · exact suppress_between _ who
    · exact ⟨rfl, rfl, rfl⟩
  have hfree : ∀ pvp x y, r.Between x y → e.world.refs pvp x y = none := by
    rintro pvp x y (⟨rfl, rfl⟩ | ⟨rfl, rfl⟩)
    · rw [hfirst, hsecond, hnone]
    · rw [hfirst, hsecond, Option.eq_none_iff_forall_ne_some]
      intro id hid
      have hback := h.toCombatSound.refs_symm hid
      rw [hnone] at hback
      exact absurd hback (Option.some_ne_none _).symm
  have hwired := h.toWired.begun (r := r) (by rwa [hfirst, hsecond]) hfree
  set e₁ := e.update fun _ => e.world.begun r with he₁
  have heq : e.beginCombat E a who addSecondUnitSuppressed =
      (((e₁.updateOwnerCombatState E a).2.updateOwnerCombatState E who).2.notifyAICombat E
        (e₁.updateOwnerCombatState E a).1 a who).notifyAICombat E
          ((e₁.updateOwnerCombatState E a).2.updateOwnerCombatState E who).1 who a := by
    rw [beginCombat, he₁, begun, hfirst, hsecond, hpvp]
    rfl
  obtain ⟨hworld₂, hlogs₂⟩ := e₁.updateOwnerCombatState_spec E a
  obtain ⟨hworld₃, hlogs₃⟩ := (e₁.updateOwnerCombatState E a).2.updateOwnerCombatState_spec E who
  rw [hworld₂] at hworld₃
  have hsound : Sound ((e₁.world.recompute E a).recompute E who) := by
    refine ⟨(hwired.recompute E a).recompute E who, flagOf_recompute_both E fun x ha hwho => ?_⟩
    exact flagOf_begun h.toCombatSound (hfirst ▸ ha) (hsecond ▸ hwho) (h.flags x)
  have hcalm : Calm e ((e₁.updateOwnerCombatState E a).2.updateOwnerCombatState E who).2 :=
    calm_of_logs (hworld₃ ▸ hsound) (((logs_update e _).trans hlogs₂).trans hlogs₃)
      fun _ hx => absurd hx not_mem_nil
  rw [heq]
  refine ⟨hcalm.trans (notify_notify_calm E hcalm.sound _ _ _ _ _ _), ?_⟩
  rw [notifyAICombat, notifyAICombat, (notify_notify_spec E _ _ _ _ _ _ _).1, hworld₃]
  exact isInCombatWith_begun (Or.inl (Or.inl ⟨hfirst, hsecond⟩))

/-- **`SetInCombatWith`** is calm, and when it answers yes the units are in combat. -/
theorem setInCombatWith_spec (a who : U) (addSecondUnitSuppressed : Bool) :
    Calm e (e.setInCombatWith E a who addSecondUnitSuppressed).2 ∧
      ((e.setInCombatWith E a who addSecondUnitSuppressed).1 = true →
        (e.setInCombatWith E a who addSecondUnitSuppressed).2.world.isInCombatWith a who =
          true) := by
  have hnext := calm_next h
  rw [setInCombatWith]
  cases hpvp : e.next.world.refs true a who with
  | some id =>
    obtain ⟨htimer, hcombat⟩ := refreshTimer_spec hnext.sound id
    obtain ⟨hrefresh, hcombat'⟩ := refresh_spec E htimer.sound id
    refine ⟨hnext.trans (htimer.trans hrefresh), fun _ => isInCombatWith_iff.mpr ⟨true, id, ?_⟩⟩
    rw [refs_congr (hcombat'.trans hcombat)]
    exact hpvp
  | none =>
    cases hpve : e.next.world.refs false a who with
    | some id =>
      obtain ⟨hrefresh, hcombat⟩ := refresh_spec E hnext.sound id
      refine ⟨hnext.trans hrefresh, fun _ => isInCombatWith_iff.mpr ⟨false, id, ?_⟩⟩
      rw [refs_congr hcombat]
      exact hpve
    | none =>
      split_ifs with hcan
      · exact ⟨hnext, by simp⟩
      · have hne : a ≠ who := by
          rintro rfl
          simp [canBeginCombat] at hcan
        have hnone : ∀ pvp, e.next.world.refs pvp a who = none := by
          rintro (_ | _)
          · exact hpve
          · exact hpvp
        obtain ⟨hbegin, hin⟩ := beginCombat_spec E hnext.sound hne hnone addSecondUnitSuppressed
        exact ⟨hnext.trans hbegin, fun _ => hin⟩

theorem inheritCombatStatesFrom_calm (a who : U) : Calm e (e.inheritCombatStatesFrom E a who) := by
  have hround : ∀ pvp (e : Execution U) guid, Sound e.world →
    Calm e (inheritRef E a who pvp e guid) := by
    intro pvp e guid h
    rw [inheritRef]
    split
    · exact calm_refl h
    · split_ifs
      · exact calm_refl h
      · exact calm_refl h
      · exact (setInCombatWith_spec E h a _ false).1
  have hpve := calm_foldl (hround false) (E.order e.tick) h
  exact hpve.trans (calm_foldl (hround true) _ hpve.sound)

/-! ### Ending combats -/

theorem endCombat_calm (id : ℕ) : Calm e (e.endCombat E id) := by
  rw [endCombat]
  cases hr : e.world.combatRefs id with
  | none => exact calm_refl h
  | some r =>
    obtain ⟨hsound, early, late, hlogs, hearly, hlate, -⟩ :=
      endCombatRef_spec E (e := e.next) (h.ending hr)
    refine calm_of_logs hsound hlogs fun x hx => ?_
    rcases mem_append.mp hx with hx | hx
    · exact consistent_of_shrinks h (hearly x hx)
    · exact hlate x hx

end

/-- Ending the combat of two units hands over to neither AI before the references are gone. -/
def Undisturbed (t : ℕ) (w : World U) (a b : U) : Prop :=
  ¬ HandsOver E t w a b ∧ ¬ HandsOver E t w b a

/-- **Ending an erased reference** is calm exactly when no `ClearThreat` hands over. -/
theorem endErased_outcome {e : Execution U} (h : Sound e.world)
    (hid : e.world.refs pvp a b = some id) :
    Outcome e (e.endErased E a b pvp id) (Undisturbed E (e.tick + 1) e.world a b) := by
  obtain ⟨r, hr, rfl, hbetween⟩ := (h.refs _ _ _ _).mp hid
  set e₁ := (e.update fun w => w.purgeReference a b r.isPvP).next with he₁
  have heq : e.endErased E a b r.isPvP id = e₁.endCombatRef E id r := by
    have hr' : (e.update fun w => w.purgeReference a b r.isPvP).world.combatRefs id = some r := hr
    rw [endErased, endCombat, hr']
  have hending : Ending e₁.world id r := h.ending_purge hr hbetween
  obtain ⟨hsound, early, late, hlogs, hearly, hlate, hcalls⟩ := endCombatRef_spec E hending
  rw [heq]
  refine ⟨hsound, early ++ late, hlogs, ?_⟩
  have hcalls' : early = [] ↔ Undisturbed E (e.tick + 1) e.world a b := by
    rw [hcalls, Undisturbed]
    rcases hbetween with ⟨rfl, rfl⟩ | ⟨rfl, rfl⟩
    · exact Iff.rfl
    · exact and_comm
  rw [← hcalls']
  constructor
  · intro hall
    rw [eq_nil_iff_forall_not_mem]
    intro x hx
    exact not_consistent_of_purged h.toCombatSound hid (hearly x hx) (hall x (mem_append_left _ hx))
  · intro hnil
    rw [hnil, nil_append]
    exact hlate

/-- The condition of a round that ends some combats of a unit: whenever it ends one, it does so
undisturbed. -/
def EndsUndisturbed (a : U) (pvp : Bool) (ends : ℕ → CombatReference U → Bool) (e : Execution U)
    (b : U) :
    Prop :=
  ∀ id r, e.world.refs pvp a b = some id → e.world.combatRefs id = some r → ends e.tick r = true →
    Undisturbed E (e.tick + 1) e.world a b

theorem endsUndisturbed_of_none (hid : e.world.refs pvp a b = none)
    (ends : ℕ → CombatReference U → Bool) : EndsUndisturbed E a pvp ends e b := by
  intro id r hid'
  rw [hid] at hid'
  exact absurd hid' (Option.some_ne_none _).symm

theorem endsUndisturbed_iff {e : Execution U} (hid : e.world.refs pvp a b = some id)
    (hr : e.world.combatRefs id = some r) (ends : ℕ → CombatReference U → Bool) :
    EndsUndisturbed E a pvp ends e b ↔
      (ends e.tick r = true → Undisturbed E (e.tick + 1) e.world a b) := by
  constructor
  · exact fun hc => hc id r hid hr
  · intro hc id' r' hid' hr'
    obtain rfl := Option.some.inj (hid.symm.trans hid')
    obtain rfl := Option.some.inj (hr.symm.trans hr')
    exact hc

theorem endUnless_outcome (a : U) (pvp : Bool) (keep : ℕ → CombatReference U → Bool)
    (e : Execution U) (b : U) (h : Sound e.world) :
    Outcome e (endUnless E a pvp keep e b)
      (EndsUndisturbed E a pvp (fun t r => !keep t r) e b) := by
  rw [endUnless]
  cases hid : e.world.refs pvp a b with
  | none => exact (calm_refl h).congr (iff_of_true trivial (endsUndisturbed_of_none E hid _))
  | some id =>
    obtain ⟨r, hr, -⟩ := (h.refs _ _ _ _).mp hid
    have hiff := endsUndisturbed_iff E hid hr fun t r => !keep t r
    simp only [hr]
    split_ifs with hkeep
    · exact (calm_refl h).congr (iff_of_true trivial (hiff.mpr (by simp [hkeep])))
    · refine (endErased_outcome E h hid).congr ?_
      rw [hiff]
      simp [hkeep]

/-- The references whose timer runs out in `Update`. -/
def timedOut (a : U) (tdiff : ℕ) (_ : ℕ) (r : CombatReference U) : Bool :=
  r.first = a ∧ r.combatTimer ≤ tdiff

theorem updateRef_outcome (a : U) (tdiff : ℕ) (e : Execution U) (b : U) (h : Sound e.world) :
    Outcome e (updateRef E a tdiff e b) (EndsUndisturbed E a true (timedOut a tdiff) e b) := by
  rw [updateRef]
  cases hid : e.world.refs true a b with
  | none => exact (calm_refl h).congr (iff_of_true trivial (endsUndisturbed_of_none E hid _))
  | some id =>
    obtain ⟨r, hr, -⟩ := (h.refs _ _ _ _).mp hid
    have hiff := endsUndisturbed_iff E hid hr (timedOut a tdiff)
    simp only [hr]
    split_ifs with hfirst htimer
    · refine (endErased_outcome E h hid).congr ?_
      rw [hiff]
      simp [timedOut, hfirst, htimer]
    · refine (calm_update ?_).congr (iff_of_true trivial (hiff.mpr (by simp [timedOut, htimer])))
      refine ⟨h.toWired.setCombatRef hr rfl rfl rfl, fun x => ?_⟩
      exact flagOf_setCombatRef h.toCombatSound hr (fun _ => rfl) (h.flags x)
    · exact (calm_refl h).congr (iff_of_true trivial (hiff.mpr (by simp [timedOut, hfirst])))

/-! ### The loops of the combat manager -/

/-- The condition of a loop over the references of a unit. -/
def LoopUndisturbed (a : U) (pvp : Bool) (keep : ℕ → CombatReference U → Bool) (e : Execution U) :
    Prop :=
  Run.Along (endUnless E a pvp keep) (EndsUndisturbed E a pvp fun t r => !keep t r) e
    (E.order e.tick)

theorem endLoop_outcome (h : Sound e.world) (a : U) (pvp : Bool)
    (keep : ℕ → CombatReference U → Bool) :
    Outcome e ((E.order e.tick).foldl (endUnless E a pvp keep) e)
      (LoopUndisturbed E a pvp keep e) :=
  outcome_foldl (endUnless_outcome E a pvp keep) _ h

/-- Two loops, over the PvE references and over the PvP references. -/
def LoopsUndisturbed (a : U) (keep : ℕ → CombatReference U → Bool) (e : Execution U) : Prop :=
  LoopUndisturbed E a false keep e ∧
    LoopUndisturbed E a true keep ((E.order e.tick).foldl (endUnless E a false keep) e)

section

variable (h : Sound e.world)
include h

theorem combatUpdate_outcome (a : U) (tdiff : ℕ) :
    Outcome e (e.combatUpdate E a tdiff)
      (Run.Along (updateRef E a tdiff) (EndsUndisturbed E a true (timedOut a tdiff)) e
        (E.order e.tick)) :=
  outcome_foldl (updateRef_outcome E a tdiff) _ h

theorem endCombatBeyondRange_outcome (a : U) (range : ℚ) (includingPvP : Bool) :
    Outcome e (e.endCombatBeyondRange E a range includingPvP)
      (if includingPvP then LoopsUndisturbed E a (inRange E range) e
        else LoopUndisturbed E a false (inRange E range) e) := by
  have hpve := endLoop_outcome E h a false (inRange E range)
  cases includingPvP with
  | false => exact hpve
  | true => exact hpve.trans (endLoop_outcome E hpve.sound a true (inRange E range))

theorem revalidateCombat_outcome (a : U) :
    Outcome e (e.revalidateCombat E a) (LoopsUndisturbed E a (stillValid E a) e) := by
  have hpve := endLoop_outcome E h a false (stillValid E a)
  exact hpve.trans (endLoop_outcome E hpve.sound a true (stillValid E a))

theorem removeMeFromThreatLists_calm (a : U) (filter : U → Bool) :
    Calm e (e.removeMeFromThreatLists E a filter) :=
  calm_foldl (fun _ o h => clearThreat_calm E h o a) _ h

theorem clearAllThreat_calm (o : U) : Calm e (e.clearAllThreat E o) :=
  calm_update (sound_of_shrinks h (shrinks_foldl h.toThreatSound h.settled _))

theorem endAllPvPCombat_calm (a : U) (filter : ℕ → U → Bool) :
    Calm e (e.endAllPvPCombat E a filter) :=
  calm_foldl (fun _ id h => endCombat_calm E h id) _ h

theorem endAllPvECombat_calm (a : U) (filter : ℕ → U → Bool) :
    Calm e (e.endAllPvECombat E a filter) := by
  have hremove := removeMeFromThreatLists_calm E h a (filter e.tick)
  have hclear := clearAllThreat_calm E hremove.sound a
  have hnext := calm_next hclear.sound
  exact ((hremove.trans hclear).trans hnext).trans
    (calm_foldl (fun _ id h => endCombat_calm E h id) _ hnext.sound)

theorem endCombatWith_calm (pvp : Bool) (a b : U) : Calm e (e.endCombatWith E pvp a b) := by
  rw [endCombatWith]
  split
  · exact calm_refl h
  · exact endCombat_calm E h _

end

end Execution

end Combat

end IscServer
