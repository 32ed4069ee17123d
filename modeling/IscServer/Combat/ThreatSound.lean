import IscServer.Combat.ThreatManager

/-!
# Three Places for Every Threat Reference

`ThreatSound` says that every threat reference is stored in the entries and the sorted list of its
owner and in the threatened-by-me map of its victim, that nothing else is stored there, and that
the victim pointers of a manager point to entries of its own. Quiet changes keep it, and so do
freeing and creating a reference.

## Main results

* `ThreatSound.quiet`, `ThreatSound.unregisterAndFree`, `ThreatSound.newThreatRef`.
-/

set_option linter.unusedSectionVars false

namespace IscServer

open Function

namespace Combat

variable {U : Type} [DecidableEq U] (E : Env U)

namespace World

/-! ### The invariant -/

/-- Every threat reference is stored in exactly three places. -/
structure ThreatSound (w : World U) : Prop where
  entries : ∀ o v id, (w.threat o).myThreatListEntries v = some id ↔ w.threatKey id = some (o, v)
  threatenedByMe : ∀ o v id, (w.threat v).threatenedByMe o = some id ↔ w.threatKey id = some (o, v)
  sorted : ∀ o id, id ∈ (w.threat o).sortedThreatList ↔ ∃ v, w.threatKey id = some (o, v)
  nodup : ∀ o, (w.threat o).sortedThreatList.Nodup
  refers : ∀ o id, w.Refers o id → ∃ v, w.threatKey id = some (o, v)
  threatFresh : ∀ id, w.nextRef ≤ id → w.threatKey id = none

/-- No AI update is left over. -/
def Settled (w : World U) : Prop :=
  ∀ o, (w.threat o).needsAIUpdate = []

/-- No AI update is left over, but maybe for one unit. -/
def SettledBut (o : U) (w : World U) : Prop :=
  ∀ u, u ≠ o → (w.threat u).needsAIUpdate = []

variable {w : World U}

theorem Settled.but (h : Settled w) (o : U) : SettledBut o w :=
  fun u _ => h u

theorem threatKey_eq_some {w : World U} {id : ℕ} {o v : U} :
    w.threatKey id = some (o, v) ↔ ∃ r, w.threatRefs id = some r ∧ r.owner = o ∧ r.victim = v := by
  simp [threatKey]

/-- Quiet changes keep the references where they are. -/
theorem ThreatSound.quiet {w' : World U} (h : ThreatSound w) (hq : Quiet w w') :
    ThreatSound w' where
  entries o v id := by rw [hq.entries, hq.key, h.entries]
  threatenedByMe o v id := by rw [hq.threatenedByMe, hq.key, h.threatenedByMe]
  sorted o id := by
    rw [hq.sorted, h.sorted]
    exact exists_congr fun v => by rw [hq.key]
  nodup o := by
    rw [hq.sorted]
    exact h.nodup o
  refers o id hr := by
    obtain ⟨v, hv⟩ := h.refers o id (hq.refers o id hr)
    exact ⟨v, by rw [hq.key, hv]⟩
  threatFresh id hid := by
    rw [hq.key]
    exact h.threatFresh id (hq.nextRef ▸ hid)

/-- The threat part of a world decides whether its threat references are sound. -/
theorem ThreatSound.congr {w w' : World U} (h : ThreatSound w) (hthreat : w'.threat = w.threat)
    (hrefs : w'.threatRefs = w.threatRefs) (hnext : w.nextRef ≤ w'.nextRef) : ThreatSound w' := by
  have hkey : w'.threatKey = w.threatKey := by
    funext id
    rw [threatKey, threatKey, hrefs]
  have hrefers : w'.Refers = w.Refers := by
    funext o id
    rw [Refers, Refers, hthreat]
  refine ⟨?_, ?_, ?_, ?_, ?_, ?_⟩
  · rw [hthreat, hkey]
    exact h.entries
  · rw [hthreat, hkey]
    exact h.threatenedByMe
  · rw [hthreat, hkey]
    exact h.sorted
  · rw [hthreat]
    exact h.nodup
  · rw [hrefers, hkey]
    exact h.refers
  · intro id hid
    rw [hkey]
    exact h.threatFresh id (Nat.le_trans hnext hid)

/-! ### Freeing a reference -/

variable {id : ℕ} {r : ThreatReference U}

/-- The world without a threat reference: what `UnregisterAndFree` does to the managers. -/
theorem unregisterAndFree_threat (h : ThreatSound w) (hr : w.threatRefs id = some r) (o : U) :
    let m := (w.unregisterAndFree id).threat o
    let m₀ := w.threat o
    (m.myThreatListEntries =
        if o = r.owner then Function.update m₀.myThreatListEntries r.victim none else
          m₀.myThreatListEntries) ∧
      (m.threatenedByMe =
        if o = r.victim then Function.update m₀.threatenedByMe r.owner none else
          m₀.threatenedByMe) ∧
      m.sortedThreatList =
        (if o = r.owner then m₀.sortedThreatList.erase id else m₀.sortedThreatList) ∧
      (m.currentVictimRef =
        if o = r.owner ∧ m₀.currentVictimRef = some id then none else m₀.currentVictimRef) ∧
      (m.fixateRef = if o = r.owner ∧ m₀.fixateRef = some id then none else m₀.fixateRef) ∧
      m.needsAIUpdate = m₀.needsAIUpdate := by
  intro m m₀
  have hentry : (w.threat r.owner).myThreatListEntries r.victim = some id :=
    (h.entries _ _ _).mpr (threatKey_eq_some.mpr ⟨r, hr, rfl, rfl⟩)
  simp only [m, m₀, unregisterAndFree, hr, purgeThreatListRef, hentry, purgeThreatenedByMeRef,
    setThreat]
  by_cases hv : o = r.victim
  · subst hv
    by_cases ho : r.victim = r.owner
    · simp [ho]
    · simp [ho]
  · by_cases ho : o = r.owner
    · subst ho
      simp [hv]
    · simp [hv, ho]

/-- Freeing a reference leaves the other objects and the combat part of the world alone. -/
theorem unregisterAndFree_frame (w : World U) (id : ℕ) :
    (w.unregisterAndFree id).threatRefs = Function.update w.threatRefs id none ∧
      (w.unregisterAndFree id).combatRefs = w.combatRefs ∧ (w.unregisterAndFree id).combat =
        w.combat ∧
      (w.unregisterAndFree id).inCombat = w.inCombat ∧ (w.unregisterAndFree id).nextRef =
        w.nextRef := by
  rw [unregisterAndFree]
  split
  · next hnone =>
      refine ⟨?_, rfl, rfl, rfl, rfl⟩
      rw [← hnone, update_eq_self]
  · next r hr =>
      have hpurge : ∀ o v, (w.purgeThreatListRef o v).threatRefs = w.threatRefs ∧
          (w.purgeThreatListRef o v).combatRefs = w.combatRefs ∧
          (w.purgeThreatListRef o v).combat = w.combat ∧
          (w.purgeThreatListRef o v).inCombat = w.inCombat ∧
          (w.purgeThreatListRef o v).nextRef = w.nextRef := by
        intro o v
        rw [purgeThreatListRef]
        split <;> exact ⟨rfl, rfl, rfl, rfl, rfl⟩
      obtain ⟨hrefs, hcombatRefs, hcombat, hin, hnext⟩ := hpurge r.owner r.victim
      refine ⟨?_, hcombatRefs, hcombat, hin, hnext⟩
      simp only [purgeThreatenedByMeRef, setThreat, hrefs]

theorem threatKey_unregisterAndFree (w : World U) (id id' : ℕ) :
    (w.unregisterAndFree id).threatKey id' = if id' = id then none else w.threatKey id' := by
  rw [threatKey, (w.unregisterAndFree_frame id).1, update_apply]
  split_ifs <;> rfl

/-- No two references have the same owner and victim. -/
theorem ThreatSound.key_unique {w : World U} (h : ThreatSound w) {id id' : ℕ} {o v o' v' : U}
    (hk : w.threatKey id = some (o, v)) (hk' : w.threatKey id' = some (o', v')) :
    id' = id ↔ o' = o ∧ v' = v := by
  constructor
  · rintro rfl
    rw [hk] at hk'
    obtain ⟨rfl, rfl⟩ := Prod.mk.inj (Option.some.inj hk')
    exact ⟨rfl, rfl⟩
  · rintro ⟨rfl, rfl⟩
    exact Option.some.inj (((h.entries _ _ _).mpr hk').symm.trans ((h.entries _ _ _).mpr hk))

/-- A family of maps, one of which loses the only entry with a reference. -/
theorem erased_eq_some {f : U → U → Option ℕ} {p q : U} {id : ℕ} (hpq : f p q = some id)
    (honly : ∀ a b, f a b = some id → a = p ∧ b = q) (a b : U) (id' : ℕ) :
    (if a = p then Function.update (f a) q none else f a) b = some id' ↔ id' ≠ id ∧
      f a b = some id' := by
  by_cases ha : a = p
  · subst ha
    by_cases hb : b = q
    · subst hb
      rw [if_pos rfl, update_self, hpq]
      refine iff_of_false (Option.some_ne_none _).symm ?_
      rintro ⟨hne, heq⟩
      exact hne (Option.some.inj heq).symm
    · rw [if_pos rfl, update_of_ne hb, iff_and_self]
      rintro hid rfl
      exact hb (honly a b hid).2
  · rw [if_neg ha, iff_and_self]
    rintro hid rfl
    exact ha (honly a b hid).1

/-- A pointer that is left does not point to the freed reference. -/
theorem ThreatSound.refers_unregisterAndFree (h : ThreatSound w) (hr : w.threatRefs id = some r)
    {o : U} {id' : ℕ} (hrefers : (w.unregisterAndFree id).Refers o id') :
    w.Refers o id' ∧ (o = r.owner → id' ≠ id) := by
  have hkey : w.threatKey id = some (r.owner, r.victim) := threatKey_eq_some.mpr ⟨r, hr, rfl, rfl⟩
  obtain ⟨hentries, -, hsorted, hvictim, hfixate, -⟩ := unregisterAndFree_threat h hr o
  rcases hrefers with hp | hp | hp | ⟨v, hp⟩
  · rw [hvictim] at hp
    split_ifs at hp with hc
    exact ⟨Or.inl hp, fun ho hid => hc ⟨ho, hid ▸ hp⟩⟩
  · rw [hfixate] at hp
    split_ifs at hp with hc
    exact ⟨Or.inr (Or.inl hp), fun ho hid => hc ⟨ho, hid ▸ hp⟩⟩
  · rw [hsorted] at hp
    split_ifs at hp with ho
    · obtain ⟨hne, hmem⟩ := (h.nodup o).mem_erase_iff.mp hp
      exact ⟨Or.inr (Or.inr (Or.inl hmem)), fun _ => hne⟩
    · exact ⟨Or.inr (Or.inr (Or.inl hp)), fun ho' => absurd ho' ho⟩
  · rw [hentries] at hp
    split_ifs at hp with ho
    · rw [update_apply] at hp
      split_ifs at hp with hv
      refine ⟨Or.inr (Or.inr (Or.inr ⟨v, hp⟩)), fun _ hid => hv ?_⟩
      exact ((h.key_unique hkey ((h.entries _ _ _).mp hp)).mp hid).2
    · exact ⟨Or.inr (Or.inr (Or.inr ⟨v, hp⟩)), fun ho' => absurd ho' ho⟩

/-- **Freeing a reference** keeps the others where they are. -/
theorem ThreatSound.unregisterAndFree {w : World U} (h : ThreatSound w) (id : ℕ) :
    ThreatSound (w.unregisterAndFree id) := by
  cases hr : w.threatRefs id with
  | none =>
    have heq : w.unregisterAndFree id = w := by
      rw [World.unregisterAndFree, hr]
    rwa [heq]
  | some r =>
    have hkey : w.threatKey id = some (r.owner, r.victim) := threatKey_eq_some.mpr ⟨r, hr, rfl, rfl⟩
    have hthreat := unregisterAndFree_threat h hr
    have hkey' : ∀ id' o v, (w.unregisterAndFree id).threatKey id' = some (o, v) ↔
        id' ≠ id ∧ w.threatKey id' = some (o, v) := by
      intro id' o v
      rw [threatKey_unregisterAndFree]
      split_ifs with hid <;> simp [hid]
    have hunique : ∀ {id' o v}, w.threatKey id' = some (o, v) →
      (id' = id ↔ o = r.owner ∧ v = r.victim) :=
      fun hk => h.key_unique hkey hk
    refine ⟨?_, ?_, ?_, ?_, ?_, ?_⟩
    · intro o v id'
      rw [(hthreat o).1, hkey', ← h.entries]
      refine erased_eq_some (f := fun o => (w.threat o).myThreatListEntries)
        ((h.entries _ _ _).mpr hkey) (fun o v hentry => ?_) o v id'
      exact (hunique ((h.entries _ _ _).mp hentry)).mp rfl
    · intro o v id'
      rw [(hthreat v).2.1, hkey', ← h.threatenedByMe]
      refine erased_eq_some (f := fun v => (w.threat v).threatenedByMe)
        ((h.threatenedByMe _ _ _).mpr hkey) (fun v o hentry => ?_) v o id'
      exact ((hunique ((h.threatenedByMe _ _ _).mp hentry)).mp rfl).symm
    · intro o id'
      rw [(hthreat o).2.2.1]
      simp only [hkey', exists_and_left, ← h.sorted]
      by_cases ho : o = r.owner
      · rw [if_pos ho, (h.nodup o).mem_erase_iff]
      · rw [if_neg ho, iff_and_self]
        intro hmem hid
        obtain ⟨v, hv⟩ := (h.sorted o id').mp hmem
        exact ho ((hunique hv).mp hid).1
    · intro o
      rw [(hthreat o).2.2.1]
      split_ifs
      · exact (h.nodup o).erase id
      · exact h.nodup o
    · intro o id' hrefers
      obtain ⟨hleft, hne⟩ := h.refers_unregisterAndFree hr hrefers
      obtain ⟨v, hv⟩ := h.refers o id' hleft
      refine ⟨v, (hkey' id' o v).mpr ⟨fun hid => ?_, hv⟩⟩
      exact hne ((hunique hv).mp hid).1 hid
    · intro id' hid
      rw [(w.unregisterAndFree_frame id).2.2.2.2] at hid
      rw [threatKey_unregisterAndFree, h.threatFresh id' hid, ite_self]

/-! ### Creating a reference -/

/-- What a new reference adds to the managers. -/
theorem newThreatRef_threat (w : World U) (o v u : U) : let m := (w.newThreatRef o v).threat u
    let m₀ := w.threat u
    (m.myThreatListEntries = if u = o then Function.update m₀.myThreatListEntries v (some w.nextRef)
        else m₀.myThreatListEntries) ∧
      (m.threatenedByMe = if u = v then Function.update m₀.threatenedByMe o (some w.nextRef)
        else m₀.threatenedByMe) ∧
      m.sortedThreatList =
        (if u = o then w.nextRef :: m₀.sortedThreatList else m₀.sortedThreatList) ∧
      m.currentVictimRef = m₀.currentVictimRef ∧ m.fixateRef = m₀.fixateRef ∧
      m.needsAIUpdate = m₀.needsAIUpdate := by
  intro m m₀
  simp only [m, m₀, newThreatRef, putThreatListRef, putThreatenedByMeRef, setThreat, setThreatRef]
  by_cases hv : u = v
  · subst hv
    by_cases ho : u = o
    · simp [ho]
    · simp [ho]
  · by_cases ho : u = o
    · subst ho
      simp [hv]
    · simp [hv, ho]

/-- A new reference: its key is there, the combat part of the world is left alone. -/
theorem newThreatRef_frame (w : World U) (o v : U) (id : ℕ) :
    (w.newThreatRef o v).threatKey id = (if id = w.nextRef then some (o, v) else w.threatKey id) ∧
      (w.newThreatRef o v).combatRefs = w.combatRefs ∧ (w.newThreatRef o v).combat = w.combat ∧
      (w.newThreatRef o v).inCombat = w.inCombat ∧ (w.newThreatRef o v).nextRef =
        w.nextRef + 1 := by
  by_cases hid : id = w.nextRef
  · simp [threatKey, newThreatRef, putThreatListRef, putThreatenedByMeRef, setThreat,
      setThreatRef, hid]
  · simp [threatKey, newThreatRef, putThreatListRef, putThreatenedByMeRef, setThreat,
      setThreatRef, hid]

/-- A manager points to the new reference or to one that it has pointed to before. -/
theorem refers_newThreatRef {o v o' : U} (hrefers : (w.newThreatRef o v).Refers o' id) :
    id = w.nextRef ∧ o' = o ∨ w.Refers o' id := by
  obtain ⟨hentries, -, hsorted, hvictim, hfixate, -⟩ := w.newThreatRef_threat o v o'
  rcases hrefers with hp | hp | hp | ⟨v', hp⟩
  · exact Or.inr (Or.inl (hvictim ▸ hp))
  · exact Or.inr (Or.inr (Or.inl (hfixate ▸ hp)))
  · rw [hsorted] at hp
    split_ifs at hp with ho
    · rcases List.mem_cons.mp hp with hid | hmem
      · exact Or.inl ⟨hid, ho⟩
      · exact Or.inr (Or.inr (Or.inr (Or.inl hmem)))
    · exact Or.inr (Or.inr (Or.inr (Or.inl hp)))
  · rw [hentries] at hp
    split_ifs at hp with ho
    · rw [update_apply] at hp
      split_ifs at hp with hv
      · exact Or.inl ⟨(Option.some.inj hp).symm, ho⟩
      · exact Or.inr (Or.inr (Or.inr (Or.inr ⟨v', hp⟩)))
    · exact Or.inr (Or.inr (Or.inr (Or.inr ⟨v', hp⟩)))

/-- A family of maps, one of which gains an entry. -/
theorem added_eq_some {f : U → U → Option ℕ} {p q : U} (hpq : f p q = none) (id : ℕ) (a b : U)
    (id' : ℕ) :
    (if a = p then Function.update (f a) q (some id) else f a) b = some id' ↔
      id' = id ∧ a = p ∧ b = q ∨ f a b = some id' := by
  by_cases ha : a = p
  · subst ha
    by_cases hb : b = q
    · subst hb
      simp [hpq, eq_comm]
    · simp [hb]
  · simp [ha]

/-- **A new reference** for units that have none. -/
theorem ThreatSound.newThreatRef {w : World U} (h : ThreatSound w) {o v : U}
    (hnone : (w.threat o).myThreatListEntries v = none) : ThreatSound (w.newThreatRef o v) := by
  have hthreat := w.newThreatRef_threat o v
  have hnew : w.threatKey w.nextRef = none := h.threatFresh _ (Nat.le_refl _)
  have hnone' : (w.threat v).threatenedByMe o = none := by
    rw [Option.eq_none_iff_forall_ne_some] at hnone ⊢
    intro id hid
    exact hnone id ((h.entries _ _ _).mpr ((h.threatenedByMe _ _ _).mp hid))
  have hkey' : ∀ id o' v', (w.newThreatRef o v).threatKey id = some (o', v') ↔
      id = w.nextRef ∧ o' = o ∧ v' = v ∨ w.threatKey id = some (o', v') := by
    intro id o' v'
    rw [(w.newThreatRef_frame o v id).1]
    by_cases hid : id = w.nextRef
    · subst hid
      simp [hnew, eq_comm]
    · simp [hid]
  refine ⟨?_, ?_, ?_, ?_, ?_, ?_⟩
  · intro o' v' id
    rw [(hthreat o').1, hkey', ← h.entries]
    exact added_eq_some (f := fun o => (w.threat o).myThreatListEntries) hnone w.nextRef o' v' id
  · intro o' v' id
    rw [(hthreat v').2.1, hkey', ← h.threatenedByMe, and_comm (a := o' = o)]
    exact added_eq_some (f := fun v => (w.threat v).threatenedByMe) hnone' w.nextRef v' o' id
  · intro o' id
    rw [(hthreat o').2.2.1]
    simp only [hkey', exists_or, ← h.sorted]
    by_cases ho : o' = o
    · simp [ho]
    · simp [ho]
  · intro o'
    rw [(hthreat o').2.2.1]
    split_ifs
    · refine List.nodup_cons.mpr ⟨fun hmem => ?_, h.nodup o'⟩
      obtain ⟨v', hv'⟩ := (h.sorted o' _).mp hmem
      rw [hnew] at hv'
      exact absurd hv' (Option.some_ne_none _).symm
    · exact h.nodup o'
  · intro o' id hrefers
    simp only [hkey']
    rcases refers_newThreatRef hrefers with ⟨hid, ho⟩ | hold
    · exact ⟨v, Or.inl ⟨hid, ho, rfl⟩⟩
    · obtain ⟨v', hv'⟩ := h.refers o' id hold
      exact ⟨v', Or.inr hv'⟩
  · intro id hid
    rw [(w.newThreatRef_frame o v id).2.2.2.2] at hid
    rw [(w.newThreatRef_frame o v id).1, if_neg (by omega), h.threatFresh id (by omega)]

end World

end Combat

end IscServer
