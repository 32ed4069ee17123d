import IscServer.AI.CompanionMgr
import Mathlib.Data.Fintype.Card

/-!
# Ownership of Companions

The two records of who follows whom should agree (`Agreed`): the owner of a creature is the player
in whose list it is, no creature is listed twice, and nobody has more than `MAX_COMPANIONS`
companions.

Two steps can break this. `DismissAll` reaches only the companions on the map of the player and
then erases the whole list, so that a companion on another map keeps an owner who no longer knows
it. And the list holds identifiers that are unique on one map only, so that a recruited creature
puts a namesake on another map on the list as well.

## Main results

* `notifyDismissed_sound`, `recruit_sound`, `dismissAll_sound`: the operations keep the agreement
  where these two cases are excluded.
* `agreed_iff`: **in a run the two records agree in every state if and only if every successful
  `Recruit` is of a creature without a namesake and every `DismissAll` finds all companions of
  the player**.
-/

namespace IscServer

open List Option

namespace Companions

set_option linter.unusedSectionVars false

variable {ι : Type} [DecidableEq ι] {R : Realm ι} {s s' : State ι}

/-- The two records of ownership agree, no identifier is listed twice, and the limit is kept. -/
structure Agreed (R : Realm ι) (s : State ι) : Prop where
  owner_iff : ∀ c p, s.ownerGuid c = some p ↔ R.guid c ∈ s.getCompanions p
  nodup : ∀ p, (s.getCompanions p).Nodup
  disjoint : ∀ p q g, g ∈ s.getCompanions p → g ∈ s.getCompanions q → p = q
  capped : ∀ p (cs : Finset ι), (∀ c ∈ cs, s.ownerGuid c = some p) → cs.card ≤ maxCompanions

/-- What makes the agreement inductive: the lists hold identifiers of creatures, companions have
the right AI, and a recruited creature has no namesake. -/
structure Sound (R : Realm ι) (s : State ι) : Prop where
  owner_iff : ∀ c p, s.ownerGuid c = some p ↔ R.guid c ∈ s.getCompanions p
  known : ∀ p, ∀ g ∈ s.getCompanions p, ∃ c, R.guid c = g
  nodup : ∀ p, (s.getCompanions p).Nodup
  length_le : ∀ p, (s.getCompanions p).length ≤ maxCompanions
  hasAI : ∀ c p, s.ownerGuid c = some p → R.hasCompanionAI c = true
  single : ∀ c p, s.ownerGuid c = some p → ∀ c', R.guid c' = R.guid c → c' = c

theorem Sound.agreed (h : Sound R s) : Agreed R s := by
  refine ⟨h.owner_iff, h.nodup, ?_, ?_⟩
  · intro p q g hp hq
    obtain ⟨c, rfl⟩ := h.known p g hp
    exact Option.some.inj (((h.owner_iff c p).mpr hp).symm.trans ((h.owner_iff c q).mpr hq))
  · intro p cs hcs
    have hsub : cs.image R.guid ⊆ (s.getCompanions p).toFinset := by
      intro g hg
      obtain ⟨c, hc, rfl⟩ := Finset.mem_image.mp hg
      exact mem_toFinset.mpr ((h.owner_iff c p).mp (hcs c hc))
    have hinj : Set.InjOn R.guid cs := fun c _ c' hc' heq => h.single c' p (hcs c' hc') c heq
    calc cs.card = (cs.image R.guid).card := (Finset.card_image_of_injOn hinj).symm
      _ ≤ (s.getCompanions p).toFinset.card := Finset.card_le_card hsub
      _ ≤ (s.getCompanions p).length := toFinset_card_le _
      _ ≤ maxCompanions := h.length_le p

/-- The ownership of a state is in its owners and its lists. -/
theorem Sound.congr (h : Sound R s) (howner : s'.ownerGuid = s.ownerGuid)
    (hlist : ∀ p, s'.getCompanions p = s.getCompanions p) : Sound R s' := by
  refine ⟨?_, ?_, ?_, ?_, ?_, ?_⟩
  · intro c p
    rw [howner, hlist]
    exact h.owner_iff c p
  · intro p
    rw [hlist]
    exact h.known p
  · intro p
    rw [hlist]
    exact h.nodup p
  · intro p
    rw [hlist]
    exact h.length_le p
  · intro c p
    rw [howner]
    exact h.hasAI c p
  · intro c p
    rw [howner]
    exact h.single c p

/-! ### Dismissing one companion -/

theorem getCompanions_update (s : State ι) (p : ℕ) (entry : Option (List ℕ)) (q : ℕ) :
    State.getCompanions
        { s with activeCompanions := Function.update s.activeCompanions p entry } q =
      if q = p then entry.getD [] else s.getCompanions q := by
  simp only [State.getCompanions, Function.update_apply]
  split_ifs <;> rfl

theorem getCompanions_onCompanionDismissed (s : State ι) (p g q : ℕ) :
    (s.onCompanionDismissed p g).getCompanions q =
      if q = p then (s.getCompanions p).filter (· ≠ g) else s.getCompanions q := by
  rw [State.onCompanionDismissed]
  cases hentry : s.activeCompanions p with
  | none =>
    have hnil : s.getCompanions p = [] := by
      rw [State.getCompanions, hentry]
      rfl
    split_ifs with hq
    · rw [hq, hnil]
      rfl
    · rfl
  | some companions =>
    have hlist : s.getCompanions p = companions := by
      rw [State.getCompanions, hentry]
      rfl
    rw [getCompanions_update, hlist]
    by_cases hq : q = p
    · split_ifs with hrest
      · exact hrest.symm
      · rfl
    · rw [if_neg hq, if_neg hq]

theorem ownerGuid_onCompanionDismissed (s : State ι) (p g : ℕ) :
    (s.onCompanionDismissed p g).ownerGuid = s.ownerGuid ∧
      (s.onCompanionDismissed p g).playerMap = s.playerMap := by
  rw [State.onCompanionDismissed]
  split <;> exact ⟨rfl, rfl⟩

/-- What `NotifyDismissed` does: the creature has no owner and is on nobody's list. -/
theorem notifyDismissed_spec (h : Sound R s) (c : ι) :
    (∀ c', (s.notifyDismissed R c).ownerGuid c' = if c' = c then none else s.ownerGuid c') ∧
      (∀ p, (s.notifyDismissed R c).getCompanions p = (s.getCompanions p).filter (· ≠ R.guid c)) ∧
      (s.notifyDismissed R c).playerMap = s.playerMap := by
  rw [State.notifyDismissed]
  cases howner : s.ownerGuid c with
  | none =>
    refine ⟨?_, ?_, rfl⟩
    · intro c'
      split_ifs with heq
      · rw [heq, howner]
      · rfl
    · intro p
      refine (filter_eq_self.mpr ?_).symm
      intro g hg
      refine decide_eq_true fun heq => ?_
      have hsome := (h.owner_iff c p).mpr (heq ▸ hg)
      rw [howner] at hsome
      exact absurd hsome (some_ne_none _).symm
  | some owner =>
    obtain ⟨hguid, hmap⟩ := ownerGuid_onCompanionDismissed s owner (R.guid c)
    refine ⟨?_, ?_, hmap⟩
    · intro c'
      simp only [Function.update_apply, hguid]
    · intro p
      have hlist := getCompanions_onCompanionDismissed s owner (R.guid c) p
      refine hlist.trans ?_
      split_ifs with hp
      · rw [hp]
      · refine (filter_eq_self.mpr ?_).symm
        intro g hg
        refine decide_eq_true fun heq => hp ?_
        have hsome := (h.owner_iff c p).mpr (heq ▸ hg)
        rw [howner] at hsome
        exact (Option.some.inj hsome).symm

/-- **Dismissing a companion** keeps the records in agreement. -/
theorem notifyDismissed_sound (h : Sound R s) (c : ι) : Sound R (s.notifyDismissed R c) := by
  obtain ⟨howner, hlist, -⟩ := notifyDismissed_spec h c
  have hback : ∀ c' p, (s.notifyDismissed R c).ownerGuid c' = some p →
      c' ≠ c ∧ s.ownerGuid c' = some p := by
    intro c' p hsome
    rw [howner] at hsome
    split_ifs at hsome with heq
    exact ⟨heq, hsome⟩
  refine ⟨?_, ?_, ?_, ?_, ?_, ?_⟩
  · intro c' p
    rw [hlist, mem_filter]
    constructor
    · intro hsome
      obtain ⟨hne, hsome⟩ := hback c' p hsome
      refine ⟨(h.owner_iff c' p).mp hsome, decide_eq_true fun heq => hne ?_⟩
      exact (h.single c' p hsome c heq.symm).symm
    · rintro ⟨hmem, hne⟩
      have hne' : c' ≠ c := fun heq => of_decide_eq_true hne (congrArg R.guid heq)
      rw [howner, if_neg hne']
      exact (h.owner_iff c' p).mpr hmem
  · intro p g hg
    rw [hlist] at hg
    exact h.known p g (mem_filter.mp hg).1
  · intro p
    rw [hlist]
    exact (h.nodup p).filter _
  · intro p
    rw [hlist]
    exact (length_filter_le _ _).trans (h.length_le p)
  · intro c' p hsome
    exact h.hasAI c' p (hback c' p hsome).2
  · intro c' p hsome
    exact h.single c' p (hback c' p hsome).2

/-! ### Recruiting -/

/-- No other creature has the identifier of this one. -/
def NoNamesake (R : Realm ι) (c : ι) : Prop :=
  ∀ c', R.guid c' = R.guid c → c' = c

variable {p : ℕ} {c : ι}

theorem canRecruit_spec (h : s.canRecruit R p c = true) :
    s.ownerGuid c = none ∧ R.hasCompanionAI c = true ∧
      (s.getCompanions p).length < maxCompanions := by
  simp only [State.canRecruit, Bool.and_eq_true, Bool.not_eq_true', decide_eq_true_eq] at h
  obtain ⟨⟨⟨-, hai⟩, hfree⟩, hlength⟩ := h
  exact ⟨isNone_iff_eq_none.mp (isSome_eq_false_iff.mp hfree), hai, hlength⟩

/-- The records after a successful `Recruit`. -/
theorem recruit_spec (h : s.canRecruit R p c = true) :
    (∀ c', (s.recruit R p c).2.ownerGuid c' = if c' = c then some p else s.ownerGuid c') ∧
      ∀ q, (s.recruit R p c).2.getCompanions q =
        if q = p then s.getCompanions p ++ [R.guid c] else s.getCompanions q := by
  rw [State.recruit, if_pos h]
  refine ⟨?_, ?_⟩
  · intro c'
    simp only [State.startFollowing, Function.update_apply]
  · intro q
    exact getCompanions_update s p _ q

theorem recruit_of_not (h : ¬ s.canRecruit R p c = true) : (s.recruit R p c).2 = s := by
  rw [State.recruit, if_neg h]

section

variable (h : Sound R s)
include h

/-- **Recruiting** a creature without a namesake. -/
theorem recruit_sound (hname : s.canRecruit R p c = true → NoNamesake R c) :
    Sound R (s.recruit R p c).2 := by
  by_cases hcan : s.canRecruit R p c = true
  swap
  · rw [recruit_of_not hcan]
    exact h
  obtain ⟨hfree, hai, hlength⟩ := canRecruit_spec hcan
  obtain ⟨howner, hlist⟩ := recruit_spec hcan
  have hfresh : ∀ q, R.guid c ∉ s.getCompanions q := by
    intro q hmem
    have hsome := (h.owner_iff c q).mpr hmem
    rw [hfree] at hsome
    exact absurd hsome (some_ne_none _).symm
  refine ⟨?_, ?_, ?_, ?_, ?_, ?_⟩
  · intro c' q
    rw [howner, hlist]
    by_cases hc : c' = c
    · subst hc
      rw [if_pos rfl, Option.some.injEq]
      constructor
      · intro hq
        rw [if_pos hq.symm]
        exact mem_append_right _ (mem_singleton_self _)
      · intro hmem
        by_contra hq
        rw [if_neg (fun heq => hq heq.symm)] at hmem
        exact hfresh q hmem
    · rw [if_neg hc, h.owner_iff c' q]
      split_ifs with hq
      · rw [hq, mem_append, mem_singleton]
        exact (or_iff_left fun heq => hc (hname hcan c' heq)).symm
      · exact Iff.rfl
  · intro q g hg
    rw [hlist] at hg
    split_ifs at hg with hq
    · rcases mem_append.mp hg with hg | hg
      · exact h.known p g hg
      · exact ⟨c, (mem_singleton.mp hg).symm⟩
    · exact h.known q g hg
  · intro q
    rw [hlist]
    split_ifs
    · refine nodup_append.mpr ⟨h.nodup p, nodup_singleton _, ?_⟩
      intro g hg g' hg' heq
      rw [mem_singleton.mp hg'] at heq
      exact hfresh p (heq ▸ hg)
    · exact h.nodup q
  · intro q
    rw [hlist]
    split_ifs
    · rw [length_append, length_singleton]
      exact hlength
    · exact h.length_le q
  · intro c' q hsome
    rw [howner] at hsome
    split_ifs at hsome with hc
    · rw [hc]
      exact hai
    · exact h.hasAI c' q hsome
  · intro c' q hsome
    rw [howner] at hsome
    split_ifs at hsome with hc
    · rw [hc]
      exact hname hcan
    · exact h.single c' q hsome

/-- Recruiting a creature with a namesake puts the namesake on the list too. -/
theorem recruit_not_agreed (hcan : s.canRecruit R p c = true) (hname : ¬ NoNamesake R c) : ¬ Agreed R (s.recruit R p c).2 := by
  intro hagreed
  obtain ⟨hfree, -, -⟩ := canRecruit_spec hcan
  obtain ⟨howner, hlist⟩ := recruit_spec hcan
  refine hname fun c' hguid => ?_
  by_contra hne
  have hmem : R.guid c' ∈ (s.recruit R p c).2.getCompanions p := by
    rw [hlist, if_pos rfl, hguid]
    exact mem_append_right _ (mem_singleton_self _)
  have hsome := (hagreed.owner_iff c' p).mpr hmem
  rw [howner, if_neg hne] at hsome
  -- the namesake was on the list before, so the creature had an owner
  have hbefore := (h.owner_iff c' p).mp hsome
  rw [hguid] at hbefore
  have hcontra := (h.owner_iff c p).mpr hbefore
  rw [hfree] at hcontra
  exact absurd hcontra (some_ne_none _).symm

/-! ### Dismissing all companions -/

omit h in
theorem findCompanion_spec {g : ℕ} (h : s.findCompanion R p g = some c) : R.guid c = g := by
  obtain ⟨hbind, -⟩ := filter_eq_some_iff.mp h
  obtain ⟨m, -, hget⟩ := bind_eq_some_iff.mp hbind
  exact ((R.getCreature_eq m g c).mp hget).2

/-- From one state of the loop of `DismissAll` to a later one. -/
structure Dismisses (R : Realm ι) (p : ℕ) (gs : List ℕ) (s s' : State ι) : Prop where
  sound : Sound R s'
  map : s'.playerMap = s.playerMap
  shrinks : ∀ q, s'.getCompanions q ⊆ s.getCompanions q
  found : ∀ g ∈ gs, (s.findCompanion R p g).isSome → g ∉ s'.getCompanions p
  others : ∀ c, (∀ g ∈ gs, s.findCompanion R p g ≠ some c) → s'.ownerGuid c = s.ownerGuid c

theorem dismissOne_dismisses (p g : ℕ) : Dismisses R p [g] s (s.dismissOne R p g) := by
  rw [State.dismissOne]
  cases hfind : s.findCompanion R p g with
  | none =>
    refine ⟨h, rfl, fun q => List.Subset.refl _, ?_, fun c _ => rfl⟩
    intro g' hg' hsome
    rw [mem_singleton.mp hg', hfind] at hsome
    exact absurd hsome Bool.false_ne_true
  | some c =>
    obtain ⟨howner, hlist, hmap⟩ := notifyDismissed_spec h c
    dsimp only [State.stopFollowing]
    refine ⟨notifyDismissed_sound h c, hmap, ?_, ?_, ?_⟩
    · intro q
      rw [hlist]
      exact filter_subset_self _
    · intro g' hg' _ hmem
      rw [mem_singleton.mp hg', hlist, mem_filter] at hmem
      exact of_decide_eq_true hmem.2 (findCompanion_spec hfind).symm
    · intro c' hne
      have hne' : c' ≠ c := fun heq => hne g (mem_singleton_self _) (heq ▸ hfind)
      rw [howner, if_neg hne']

omit h in
/-- The look-up depends on the map of the player only. -/
theorem findCompanion_congr (h : s'.playerMap = s.playerMap) (p g : ℕ) :
    s'.findCompanion R p g = s.findCompanion R p g := by
  rw [State.findCompanion, State.findCompanion, h]

/-- The loop of `DismissAll`. -/
theorem foldl_dismissOne_dismisses (p : ℕ) (gs : List ℕ) :
    Dismisses R p gs s (gs.foldl (State.dismissOne R p) s) := by
  induction gs generalizing s with
  | nil =>
    exact ⟨h, rfl, fun q => List.Subset.refl _, fun g hg => absurd hg not_mem_nil, fun c _ => rfl⟩
  | cons g gs ih =>
    have hone := dismissOne_dismisses h p g
    have hrest := ih hone.sound
    have hfind := fun g' => findCompanion_congr (R := R) hone.map p g'
    refine ⟨hrest.sound, hrest.map.trans hone.map,
      fun q => List.Subset.trans (hrest.shrinks q) (hone.shrinks q), ?_, ?_⟩
    · intro g' hg' hsome
      rcases mem_cons.mp hg' with rfl | hg'
      · exact fun hmem => hone.found g' (mem_singleton_self _) hsome (hrest.shrinks p hmem)
      · exact hrest.found g' hg' (by rw [hfind]; exact hsome)
    · intro c hne
      rw [foldl_cons, hrest.others c, hone.others c]
      · intro g' hg'
        exact hne g' (mem_singleton.mp hg' ▸ mem_cons_self)
      · intro g' hg'
        rw [hfind]
        exact hne g' (mem_cons_of_mem _ hg')

/-- All companions of a player are on the map of the player. -/
def AllFound (R : Realm ι) (s : State ι) (p : ℕ) : Prop :=
  ∀ g ∈ s.getCompanions p, (s.findCompanion R p g).isSome

omit h in
theorem dismissAll_cases (s : State ι) (p : ℕ) :
    (s.getCompanions p = [] ∧ s.dismissAll R p = s) ∨
      s.dismissAll R p =
        { (s.getCompanions p).foldl (State.dismissOne R p) s with
          activeCompanions := Function.update
            ((s.getCompanions p).foldl (State.dismissOne R p) s).activeCompanions p none } := by
  rw [State.dismissAll, State.getCompanions]
  cases s.activeCompanions p with
  | none => exact Or.inl ⟨rfl, rfl⟩
  | some companions => exact Or.inr rfl

/-- **Dismissing all companions** when they are on the map of the player. -/
theorem dismissAll_sound (hfound : AllFound R s p) : Sound R (s.dismissAll R p) := by
  rcases dismissAll_cases (R := R) s p with ⟨-, heq⟩ | heq
  · rw [heq]
    exact h
  · have hloop := foldl_dismissOne_dismisses h p (s.getCompanions p)
    rw [heq]
    refine hloop.sound.congr rfl ?_
    intro q
    rw [getCompanions_update]
    split_ifs with hq
    · rw [hq]
      refine (eq_nil_iff_forall_not_mem.mpr fun g hg => ?_).symm
      have hmem := hloop.shrinks p hg
      exact hloop.found g hmem (hfound g hmem) hg
    · rfl

/-- A companion on another map keeps its owner, who no longer has it on the list. -/
theorem dismissAll_not_agreed (hfound : ¬ AllFound R s p) : ¬ Agreed R (s.dismissAll R p) := by
  intro hagreed
  refine hfound fun g hg => ?_
  by_contra hnone
  obtain ⟨c, rfl⟩ := h.known p g hg
  rcases dismissAll_cases (R := R) s p with ⟨hnil, -⟩ | heq
  · rw [hnil] at hg
    exact absurd hg not_mem_nil
  · have hloop := foldl_dismissOne_dismisses h p (s.getCompanions p)
    have howner : (s.dismissAll R p).ownerGuid c = some p := by
      rw [heq]
      refine (hloop.others c ?_).trans ((h.owner_iff c p).mpr hg)
      intro g' _ hfind
      rw [← findCompanion_spec hfind] at hfind
      exact hnone (by rw [hfind]; rfl)
    have hmem := (hagreed.owner_iff c p).mp howner
    rw [heq, getCompanions_update, if_pos rfl] at hmem
    exact absurd hmem not_mem_nil

/-! ### Steps and runs -/

/-- Following the owner again changes nothing. -/
theorem startFollowing_sound (howner : s.ownerOnMap R c = some p) :
    Sound R (s.startFollowing c p) := by
  obtain ⟨hsome, -⟩ := filter_eq_some_iff.mp howner
  refine h.congr ?_ fun q => rfl
  rw [State.startFollowing, ← hsome]
  exact Function.update_eq_self c s.ownerGuid

theorem updateAI_sound (c : ι) (diff : ℕ) (follows : Bool) :
    Sound R (s.updateAI R c diff follows) := by
  have htimer : ∀ timer, Sound R { s with checkTimer := timer } := fun _ => h.congr rfl fun q => rfl
  rw [State.updateAI]
  by_cases hidle : (!s.isRecruited c || !s.isAlive c) = true
  · rw [if_pos hidle]
    exact h
  rw [if_neg hidle]
  by_cases hwait : s.checkTimer c > diff
  · rw [if_pos hwait]
    exact htimer _
  rw [if_neg hwait]
  dsimp only
  split
  · exact notifyDismissed_sound (htimer _) c
  · next owner howner =>
      split_ifs
      · exact startFollowing_sound (htimer _) howner
      · exact htimer _

theorem enterEvadeMode_sound (c : ι) : Sound R (s.enterEvadeMode R c) := by
  rw [State.enterEvadeMode]
  split
  · exact h
  · next owner howner => exact startFollowing_sound h howner

end

/-- The condition on a step and the state before it: a `Recruit` that succeeds is of a creature
without a namesake, and `DismissAll` finds all companions of the player. -/
def Reaches (R : Realm ι) (s : State ι) : Op ι → Prop
  | .recruit p c => s.canRecruit R p c = true → NoNamesake R c
  | .gossipSelect p c gossipListId =>
    gossipListId = 0 → s.canRecruit R p c = true → NoNamesake R c
  | .dismissAll p => AllFound R s p
  | .stopFollowing _ => True
  | .justDied _ => True
  | .justAppeared _ => True
  | .updateAI _ _ _ => True
  | .enterEvadeMode _ => True
  | .changeMap _ _ => True

/-- What a gossip selection comes to. -/
theorem onGossipSelect_cases (s : State ι) (p : ℕ) (c : ι) (gossipListId : ℕ) :
    s.onGossipSelect R p c gossipListId = s ∨
      s.onGossipSelect R p c gossipListId = s.notifyDismissed R c ∨
      gossipListId = 0 ∧ s.onGossipSelect R p c gossipListId = (s.recruit R p c).2 := by
  rw [State.onGossipSelect]
  split_ifs with hlist howner hfree
  · exact Or.inl rfl
  · exact Or.inr (Or.inl rfl)
  · exact Or.inr (Or.inr ⟨not_not.mp hlist, rfl⟩)
  · exact Or.inl rfl

/-- A selection that recruits. -/
theorem onGossipSelect_of_canRecruit (hcan : s.canRecruit R p c = true) :
    s.onGossipSelect R p c 0 = (s.recruit R p c).2 := by
  obtain ⟨hfree, -, -⟩ := canRecruit_spec hcan
  have hnone : ¬ s.ownerGuid c = some p := by
    rw [hfree]
    exact (some_ne_none _).symm
  have hrecruited : (!s.isRecruited c) = true := by
    rw [State.isRecruited, hfree]
    rfl
  rw [State.onGossipSelect, if_neg (not_not.mpr rfl), if_neg hnone, if_pos hrecruited]

/-- **One step** that meets the condition keeps the records in agreement. -/
theorem step_sound (h : Sound R s) {op : Op ι} (hop : Reaches R s op) : Sound R (step R s op) := by
  cases op with
  | recruit p c => exact recruit_sound h hop
  | gossipSelect p c gossipListId =>
    rcases onGossipSelect_cases (R := R) s p c gossipListId with heq | heq | ⟨hzero, heq⟩
    · rw [step, heq]
      exact h
    · rw [step, heq]
      exact notifyDismissed_sound h c
    · rw [step, heq]
      exact recruit_sound h (hop hzero)
  | stopFollowing c => exact notifyDismissed_sound h c
  | justDied c =>
    have halive : Sound R { s with isAlive := Function.update s.isAlive c false } :=
      h.congr rfl fun q => rfl
    exact notifyDismissed_sound halive c
  | justAppeared c =>
    have halive : Sound R { s with isAlive := Function.update s.isAlive c true } :=
      h.congr rfl fun q => rfl
    exact notifyDismissed_sound halive c
  | updateAI c diff follows => exact updateAI_sound h c diff follows
  | enterEvadeMode c => exact enterEvadeMode_sound h c
  | changeMap p map => exact h.congr rfl fun q => rfl
  | dismissAll p => exact dismissAll_sound h hop

/-- **One step** that does not meet the condition breaks the agreement. -/
theorem step_agreed_iff (h : Sound R s) (op : Op ι) : Agreed R (step R s op) ↔ Reaches R s op := by
  refine ⟨?_, fun hop => (step_sound h hop).agreed⟩
  intro hagreed
  cases op with
  | recruit p c =>
    intro hcan
    by_contra hname
    exact recruit_not_agreed h hcan hname hagreed
  | gossipSelect p c gossipListId =>
    rintro rfl hcan
    by_contra hname
    rw [step, onGossipSelect_of_canRecruit hcan] at hagreed
    exact recruit_not_agreed h hcan hname hagreed
  | dismissAll p =>
    by_contra hfound
    exact dismissAll_not_agreed h hfound hagreed
  | _ => trivial

theorem sound_empty (R : Realm ι) : Sound R {} :=
  ⟨fun _ _ => iff_of_false (some_ne_none _).symm not_mem_nil,
    fun _ _ hg => absurd hg not_mem_nil, fun _ => nodup_nil, fun _ => Nat.zero_le _,
    fun _ _ hsome => absurd hsome (some_ne_none _).symm,
    fun _ _ hsome => absurd hsome (some_ne_none _).symm⟩

/-- **Companion ownership over whole runs.** For all creatures on all maps and every run from the
start of the server: in every state of the run the owner of a creature is the player who has it
on the list, nothing is listed twice and the limit is kept, if and only if every `Recruit` that
succeeds is of a creature whose identifier no other creature has, and every `DismissAll` finds
all companions of the player on the map of the player. -/
theorem agreed_iff (R : Realm ι) (ops : List (Op ι)) :
    Run.Along (step R) (fun s op => Agreed R (step R s op)) {} ops ↔
      Run.Along (step R) (Reaches R) {} ops :=
  Run.along_congr (Sound R) (fun _ op h => step_agreed_iff h op) (fun _ _ h hop => step_sound h hop)
    ops (sound_empty R)

/-- Five companions: the first one on map `0`, the others on map `1`. -/
def fiveCompanions : Realm (Fin 5) where
  guid c := c.val + 1
  map c := if c = 0 then 0 else 1
  isCompanion _ := true
  hasCompanionAI _ := true
  getCreature m g := (List.finRange 5).find? fun c => (if c = 0 then 0 else 1) = m ∧ c.val + 1 = g
  getCreature_eq := by
    intro m g c
    constructor
    · intro hfind
      simpa using List.find?_some hfind
    · rintro ⟨rfl, rfl⟩
      revert c
      decide

/-- A player recruits a companion, goes to another map, dismisses all companions before the
first one has noticed, and recruits four others: five creatures have this owner, one of them is
not on the list. -/
theorem dismissAll_breaks_limit :
    let s := [Op.changeMap 1 (some 0), .recruit 1 0, .changeMap 1 none, .changeMap 1 (some 1),
      .dismissAll 1, .recruit 1 1, .recruit 1 2, .recruit 1 3, .recruit 1 4].foldl
        (step fiveCompanions) {}
    (∀ c, s.ownerGuid c = some 1) ∧ s.getCompanions 1 = [2, 3, 4, 5] ∧
      ¬ Agreed fiveCompanions s := by
  intro s
  have howner : ∀ c, s.ownerGuid c = some 1 := by decide +kernel
  refine ⟨howner, by decide +kernel, ?_⟩
  intro hagreed
  have hcard := hagreed.capped 1 Finset.univ fun c _ => howner c
  exact absurd hcard (by decide)

end Companions

end IscServer
