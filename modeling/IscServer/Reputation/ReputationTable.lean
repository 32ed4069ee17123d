import IscServer.Reputation.ReputationSound

/-!
# Saving and Loading Reputation

`Initialize`, `SaveToDB` and `LoadFromDB`. Loading begins with the default flags and applies what was
saved to them with the setters, which have their own conditions.

## Main results

* `sound_initializeMgr` — every faction with reputation gets a fresh state.
* `loadFromDB_spec` — the factions that have a row get their restored state.
* `saveToDB_spec` — the rows of all states are in the table.
-/

namespace IscServer.Reputation

open List Keyed

variable {ρ : Type} {W : World ρ} {player : Player} {m m' m'' : ReputationMgr}
  {f f' : FactionState} {k : ℤ} {entry entry' : FactionEntry ρ}

/-! ### Initialize -/

/-- The state that `Initialize` makes for a faction. -/
def freshState (player : Player) (entry : FactionEntry ρ) : FactionState :=
  { id := entry.id
    reputationListId := entry.reputationIndex
    standing := 0
    flags := getDefaultStateFlags player entry
    needSend := true
    needSave := true }

theorem stateOf_fresh (hmem : entry ∈ W.factions) (hid : entry.id ≠ 0)
    (hcan : entry.canHaveReputation = true) : StateOf W player entry (freshState player entry) := by
  obtain ⟨hlow, hhigh⟩ := (@base_bounds _ _ player) hmem
  exact ⟨hmem, rfl, hid, rfl, hcan, by rw [freshState, Int.add_zero]; exact hlow,
    by rw [freshState, Int.add_zero]; exact hhigh, FlagsOf.refl _⟩

theorem stateRank_fresh (hmem : entry ∈ W.factions) (hid : entry.id ≠ 0)
    (hcan : entry.canHaveReputation = true) : stateRank W player (freshState player entry) = getBaseRank player entry := by
  rw [stateRank, (stateOf_fresh hmem hid hcan).total_eq, freshState, Int.add_zero, getBaseRank]

theorem count_append (p : FactionState → Bool) (fs : List FactionState) (f : FactionState) :
    UInt8.ofNat ((fs ++ [f]).countP p) = UInt8.ofNat (fs.countP p) + bit (p f) := by
  rw [countP_append, countP_singleton, UInt8.ofNat_add]
  cases p f <;> rfl

theorem insert_eq (h : m.find f.reputationListId = none) :
    m.insert f = { m with factions := m.factions ++ [f] } := by
  rw [ReputationMgr.insert, h]

theorem bit_decide (r s : ℤ) : (if s ≥ r then 1 else 0) = bit (decide (r ≤ s)) := by
  by_cases hle : r ≤ s
  · rw [decide_eq_true hle, if_pos hle]
    rfl
  · rw [decide_eq_false hle, if_neg hle]
    rfl

/-- A rank of a faction that did not count before. -/
theorem updateRankCounters_hostile (r : ℤ) : m.updateRankCounters repHostile r =
    { m with
      exaltedFactionCount := m.exaltedFactionCount + bit (repExalted ≤ r)
      reveredFactionCount := m.reveredFactionCount + bit (repRevered ≤ r)
      honoredFactionCount := m.honoredFactionCount + bit (repHonored ≤ r) } := by
  have hzero : ∀ t : ℤ, repHostile < t → (if repHostile ≥ t then 1 else 0 : UInt8) = 0 :=
    fun t ht => if_neg (Int.not_le.mpr ht)
  rw [ReputationMgr.updateRankCounters, hzero repExalted (by decide), hzero repRevered (by decide),
    hzero repHonored (by decide), UInt8.sub_zero, UInt8.sub_zero, UInt8.sub_zero, bit_decide,
    bit_decide, bit_decide]

/-- One more faction gets its state. -/
theorem initializeFaction_spec (h : Sound W player m) (hmem : entry ∈ W.factions)
    (hid : entry.id ≠ 0) (hcan : entry.canHaveReputation = true) (hnew : m.find entry.reputationIndex = none) :
    Sound W player (m.initializeFaction player entry) ∧
      (m.initializeFaction player entry).factions = m.factions ++ [freshState player entry] := by
  have hstate := (@stateOf_fresh _ _ player) hmem hid hcan
  have heq : m.initializeFaction player entry =
      { m with
        factions := m.factions ++ [freshState player entry]
        visibleFactionCount := m.visibleFactionCount + bit (freshState player entry).flags.visible
        exaltedFactionCount := m.exaltedFactionCount + bit (repExalted ≤ getBaseRank player entry)
        reveredFactionCount := m.reveredFactionCount + bit (repRevered ≤ getBaseRank player entry)
        honoredFactionCount :=
          m.honoredFactionCount + bit (repHonored ≤ getBaseRank player entry) } := by
    rw [ReputationMgr.initializeFaction, if_pos hcan, freshState]
    dsimp only
    cases hvisible : (getDefaultStateFlags player entry).visible with
    | false =>
      rw [if_neg Bool.false_ne_true, updateRankCounters_hostile, insert_eq hnew]
      exact congrArg (fun c => ReputationMgr.mk _ c _ _ _ _) (UInt8.add_zero _).symm
    | true =>
      rw [if_pos rfl, updateRankCounters_hostile, insert_eq hnew]
      rfl
  rw [heq]
  rw [← stateRank_fresh hmem hid hcan]
  refine ⟨⟨?_, fun f hf => ?_, ?_, ?_, ?_, ?_⟩, rfl⟩
  · rw [Distinct, map_append, map_singleton]
    refine nodup_append.mpr ⟨h.distinct, nodup_singleton _, fun a ha b hb => ?_⟩
    obtain ⟨f, hf, rfl⟩ := mem_map.mp ha
    rw [mem_singleton.mp hb]
    exact find_eq_none_iff.mp hnew f hf
  · rcases mem_append.mp hf with hf | hf
    · exact h.states f hf
    · rw [mem_singleton.mp hf]
      exact ⟨entry, hstate⟩
  · rw [count_append, h.counting.visible]
  · rw [count_append, h.counting.honored]
  · rw [count_append, h.counting.revered]
  · rw [count_append, h.counting.exalted]

/-- The states that a part of the factions gets. -/
theorem initialize_foldl (entries : List (FactionEntry ρ)) (h : Sound W player m)
    (hmem : ∀ entry ∈ entries, entry ∈ W.factions ∧ entry.id ≠ 0) (hnodup : entries.Nodup)
    (hnew : ∀ entry ∈ entries, entry.canHaveReputation = true → m.find entry.reputationIndex = none) :
    Sound W player (entries.foldl (fun m entry => m.initializeFaction player entry) m) ∧
      (entries.foldl (fun m entry => m.initializeFaction player entry) m).factions =
        m.factions ++ (entries.filter FactionEntry.canHaveReputation).map (freshState player) := by
  induction entries generalizing m with
  | nil => exact ⟨h, (append_nil _).symm⟩
  | cons entry entries ih =>
    obtain ⟨hentry, hmem⟩ := forall_mem_cons.mp hmem
    obtain ⟨hfirst, hnew⟩ := forall_mem_cons.mp hnew
    obtain ⟨hnot, hnodup⟩ := nodup_cons.mp hnodup
    rw [foldl_cons, filter_cons]
    cases hcan : entry.canHaveReputation with
    | false =>
      rw [if_neg Bool.false_ne_true, ReputationMgr.initializeFaction, hcan,
        if_neg Bool.false_ne_true]
      exact ih h hmem hnodup hnew
    | true =>
      obtain ⟨hsound, hfactions⟩ := initializeFaction_spec h hentry.1 hentry.2 hcan (hfirst hcan)
      obtain ⟨hsound', hfactions'⟩ := ih hsound hmem hnodup fun entry' hentry' hcan' => by
        rw [ReputationMgr.find, hfactions, find_eq_none_iff]
        intro f hf hindex
        rcases mem_append.mp hf with hf | hf
        · exact find_eq_none_iff.mp (hnew entry' hentry' hcan') f hf hindex
        · rw [mem_singleton.mp hf] at hindex
          rw [W.indices entry hentry.1 entry' (hmem entry' hentry').1 hcan hindex] at hnot
          exact hnot hentry'
      refine ⟨hsound', hfactions'.trans ?_⟩
      rw [hfactions, append_assoc, singleton_append, if_pos rfl, map_cons]

theorem sound_new : Sound W player .new :=
  ⟨nodup_nil, fun _ hmem => absurd hmem not_mem_nil, rfl, rfl, rfl, rfl⟩

/-- **Initialize** gives every faction with reputation a fresh state. -/
theorem sound_initializeMgr : Sound W player (.initializeMgr W player) ∧
    (ReputationMgr.initializeMgr W player).factions =
      ((W.factions.filter fun entry => !(entry.id = 0)).filter
        FactionEntry.canHaveReputation).map (freshState player) :=
  initialize_foldl _ sound_new (fun entry hmem => by
    obtain ⟨hmem, hid⟩ := mem_filter.mp hmem
    exact ⟨hmem, by simpa using hid⟩) (W.ids.of_map.filter _) fun _ _ _ => rfl

/-! ### Loading -/

/-- Setters have made `f'` of the state `f`. -/
structure Follows (W : World ρ) (player : Player) (m m' : ReputationMgr) (f f' : FactionState) :
    Prop where
  sound : Sound W player m'
  changes : Changes m m' f f'
  sets : Sets f f'

section

variable (h : Follows W player m m' f f') (hfind : m.find k = some f)
include h hfind

/-- One setter more. -/
theorem Follows.step {f'' : FactionState} {g : ReputationMgr → FactionState → ReputationMgr}
    (hchanges : Changes m' (g m' f') f' f'') (hsets : Sets f' f'') :
    Follows W player m (m'.withState k g) f f'' := by
  have hfind' := h.changes.find hfind
  rw [withState_eq hfind']
  exact ⟨h.sound.sets hfind' hchanges hsets, h.changes.trans hchanges, h.sets.trans hsets⟩

theorem Follows.setVisible :
    Follows W player m (m'.withState k ReputationMgr.setVisibleState) f f'.madeVisible :=
  h.step hfind (changes_setVisibleState h.sound.distinct (h.changes.find hfind)) (sets_madeVisible f')

theorem Follows.setInactive (inactive : Bool) :
    Follows W player m (m'.withState k fun m f => m.setInactiveState f inactive) f
      (f'.withInactive inactive) :=
  h.step (g := fun m f => m.setInactiveState f inactive) hfind
    (changes_setInactiveState h.sound.distinct (h.changes.find hfind) inactive)
    (sets_withInactive inactive f')

section

variable (hstate : StateOf W player entry f)
include hstate

/-- The rank stays the same while flags are set. -/
theorem Follows.rankOf : m'.rankOf W player f' = stateRank W player f := by
  rw [(hstate.sets h.sets).rankOf (h.changes.find hfind), h.sets.stateRank_eq]

theorem Follows.getRank : m'.getRank player entry = stateRank W player f := by
  rw [ReputationMgr.getRank, (hstate.sets h.sets).getReputation (h.changes.find hfind)]
  exact h.sets.stateRank_eq

theorem Follows.setAtWar (atWar : Bool) :
    Follows W player m (m'.withState k fun m f => m.setAtWarState W player f atWar) f
      (f'.withWar (stateRank W player f) atWar) := by
  have hchanges := (@changes_setAtWarState _ W player) h.sound.distinct (h.changes.find hfind) atWar
  rw [h.rankOf hfind hstate] at hchanges
  exact h.step (g := fun m f => m.setAtWarState W player f atWar) hfind hchanges
    (sets_withWar _ atWar f')

/-- Peace for a visible faction. -/
theorem Follows.setPeace :
    Follows W player m (m'.withState k fun m f =>
      if f.flags.visible then m.setAtWarState W player f false else m) f
      (if f'.flags.visible then f'.withWar (stateRank W player f) false else f') := by
  have hfind' := h.changes.find hfind
  rw [withState_eq hfind']
  by_cases hvisible : f'.flags.visible = true
  · have hpeace := h.setAtWar hfind hstate false
    rw [withState_eq hfind'] at hpeace
    rw [if_pos hvisible, if_pos hvisible]
    exact hpeace
  · rw [if_neg hvisible, if_neg hvisible]
    exact h

end

end

theorem Follows.ite {m₁ m₂ : ReputationMgr} {f₁ f₂ : FactionState} {c : Prop} [Decidable c]
    (h : Follows W player m m₁ f f₁) (h' : Follows W player m m₂ f f₂) :
    Follows W player m (if c then m₁ else m₂) f (if c then f₁ else f₂) := by
  split_ifs
  · exact h
  · exact h'

/-- The states that the setters in the loop of `LoadFromDB` make of a state, by its rank. -/
def setFlags (rank : ℤ) (flags : ReputationFlags) (f : FactionState) : FactionState :=
  let f := if flags.visible then f.madeVisible else f
  let f := if flags.inactive then f.withInactive true else f
  let f :=
    if flags.atWar then f.withWar rank true
    else if f.flags.visible then f.withWar rank false
    else f
  if rank ≤ repHostile then f.withWar rank true else f

/-- The state of a faction that has been loaded from a row. -/
def restored (W : World ρ) (player : Player) (entry : FactionEntry ρ) (row : ReputationMgr.Row) :
    FactionState :=
  let f : FactionState := { freshState player entry with standing := row.standing }
  let f := setFlags (stateRank W player f) row.flags f
  if f.flags = row.flags then { f with needSend := false, needSave := false } else f

/-- What can stand in a row. -/
structure RowOf (W : World ρ) (player : Player) (entry : FactionEntry ρ) (row : ReputationMgr.Row) :
    Prop where
  mem : entry ∈ W.factions
  id : entry.id = row.faction
  ne_zero : entry.id ≠ 0
  canHave : entry.canHaveReputation = true
  low : reputationBottom ≤ getBaseReputation player entry + row.standing
  high : getBaseReputation player entry + row.standing ≤ reputationCap
  flags : FlagsOf (getDefaultStateFlags player entry) row.flags

variable {row : ReputationMgr.Row}

/-- A fresh state with the standing of a row. -/
theorem RowOf.stateOf (h : RowOf W player entry row) :
    StateOf W player entry { freshState player entry with standing := row.standing } :=
  ⟨h.mem, rfl, h.ne_zero, rfl, h.canHave, h.low, h.high, FlagsOf.refl _⟩

/-- The setters of the loop make what they make of the state. -/
theorem follows_loadFlags (h : Sound W player m) (hfind : m.find k = some f)
    (hstate : StateOf W player entry f) (flags : ReputationFlags) :
    Follows W player m (m.loadFlags W player entry k flags) f
      (setFlags (stateRank W player f) flags f) := by
  have hstart : Follows W player m m f f := ⟨h, Changes.refl h.distinct hfind, Sets.refl f⟩
  have hvisible := Follows.ite (c := flags.visible = true) (hstart.setVisible hfind) hstart
  dsimp only [ReputationMgr.loadFlags, setFlags]
  have hinactive := Follows.ite (c := flags.inactive = true) (hvisible.setInactive hfind true) hvisible
  have hatWar := Follows.ite (c := flags.atWar = true) (hinactive.setAtWar hfind hstate true)
    (hinactive.setPeace hfind hstate)
  rw [hatWar.getRank hfind hstate]
  exact Follows.ite (hatWar.setAtWar hfind hstate true) hatWar

/-- **Loading a row** makes the fresh state of its faction the restored one. -/
theorem loadRow_spec (h : Sound W player m) (hrow : RowOf W player entry row)
    (hfind : m.find entry.reputationIndex = some (freshState player entry)) :
    Sound W player (m.loadRow W player row) ∧
      (m.loadRow W player row).factions = Keyed.put FactionState.reputationListId m.factions
        (restored W player entry row) := by
  have hlookup : W.lookupEntry row.faction = some entry := by
    rw [← hrow.id]
    exact lookupEntry_of_mem hrow.mem
  have hstate := hrow.stateOf
  obtain ⟨f, hf⟩ : ∃ f : FactionState, f = { freshState player entry with standing := row.standing } :=
    ⟨_, rfl⟩
  rw [← hf] at hstate
  have hput : Changes m (m.put f) (freshState player entry) f := changes_put (by rw [hf]) (by rw [hf])
  have hsound := h.after hfind hput hstate
  -- the counters go from the rank of the base to that of the row
  have hbase := (@stateRank_fresh _ _ player) hrow.mem hrow.ne_zero hrow.canHave
  have hrank : reputationToRank (int32 (getBaseReputation player entry + row.standing)) =
      stateRank W player f := by
    have hstanding : f.standing = row.standing := by rw [hf]
    rw [← hstanding, hstate.int32_eq, stateRank, hstate.total_eq]
  have hfind₁ : ((m.put f).updateRankCounters (stateRank W player (freshState player entry))
      (stateRank W player f)).find entry.reputationIndex = some f := hput.find hfind
  have hfollows := follows_loadFlags hsound hfind₁ hstate row.flags
  have hfind₂ := hfollows.changes.find hfind₁
  have hload : m.loadRow W player row = ReputationMgr.withState
      (((m.put f).updateRankCounters (stateRank W player (freshState player entry))
        (stateRank W player f)).loadFlags W player entry entry.reputationIndex row.flags)
      entry.reputationIndex fun m f =>
        if f.flags = row.flags then m.put { f with needSend := false, needSave := false } else m := by
    rw [ReputationMgr.loadRow, hlookup, ← hrank, hbase, getBaseRank, hf]
    dsimp only
    rw [if_pos hrow.canHave, hfind]
    rfl
  have hrestored : restored W player entry row =
      if (setFlags (stateRank W player f) row.flags f).flags = row.flags then
        { setFlags (stateRank W player f) row.flags f with needSend := false, needSave := false }
      else setFlags (stateRank W player f) row.flags f := by
    rw [restored, hf]
  rw [hload, withState_eq hfind₂, hrestored]
  generalize setFlags (stateRank W player f) row.flags f = f₂ at hfollows hfind₂ ⊢
  have hput₂ : (((m.put f).updateRankCounters (stateRank W player (freshState player entry))
        (stateRank W player f)).loadFlags W player entry entry.reputationIndex row.flags).factions =
      Keyed.put FactionState.reputationListId m.factions f₂ :=
    hfollows.changes.factions.trans (put_put hfollows.changes.index)
  by_cases hsame : f₂.flags = row.flags
  · rw [if_pos hsame, if_pos hsame]
    have hstate₂ := hstate.sets hfollows.sets
    refine ⟨@Sound.sameRank _ _ _ _ _ _ _ _ entry hfollows.sound hfind₂ (changes_put rfl rfl)
      ⟨hstate₂.mem, hstate₂.id, hstate₂.ne_zero, hstate₂.index, hstate₂.canHave, hstate₂.low, hstate₂.high,
        hstate₂.flags⟩ rfl, ?_⟩
    exact (congrArg (fun fs => Keyed.put _ fs _) hput₂).trans (put_put rfl)
  · rw [if_neg hsame, if_neg hsame]
    exact ⟨hfollows.sound, hput₂⟩

theorem sets_setFlags (rank : ℤ) (flags : ReputationFlags) (f : FactionState) :
    Sets f (setFlags rank flags f) := by
  have hvisible := Sets.ite (flags.visible = true) (sets_madeVisible f) (Sets.refl f)
  have hinactive := Sets.ite (flags.inactive = true) (hvisible.trans (sets_withInactive true _)) hvisible
  have hpeace : ∀ f', Sets f f' → Sets f (if f'.flags.visible then f'.withWar rank false else f') :=
    fun f' h => Sets.ite (f'.flags.visible = true) (h.trans (sets_withWar rank false f')) h
  have hatWar := Sets.ite (flags.atWar = true) (hinactive.trans (sets_withWar rank true _))
    (hpeace _ hinactive)
  exact Sets.ite (rank ≤ repHostile) (hatWar.trans (sets_withWar rank true _)) hatWar

theorem restored_eq (row : ReputationMgr.Row) :
    (restored W player entry row).id = entry.id ∧
      (restored W player entry row).reputationListId = entry.reputationIndex ∧
      (restored W player entry row).standing = row.standing := by
  dsimp only [restored]
  split_ifs
  · exact ⟨(sets_setFlags _ _ _).id, (sets_setFlags _ _ _).index, (sets_setFlags _ _ _).standing⟩
  · exact ⟨(sets_setFlags _ _ _).id, (sets_setFlags _ _ _).index, (sets_setFlags _ _ _).standing⟩

theorem restored_index (row : ReputationMgr.Row) :
    (restored W player entry row).reputationListId = entry.reputationIndex := (restored_eq row).2.1

/-- A restored state that is not marked for saving has the flags of its row. -/
theorem restored_flags (h : (restored W player entry row).needSave = false) :
    (restored W player entry row).flags = row.flags := by
  dsimp only [restored] at h ⊢
  split_ifs at h ⊢ with hsame
  · exact hsame
  · rcases (sets_setFlags (stateRank W player { freshState player entry with
      standing := row.standing }) row.flags { freshState player entry with
      standing := row.standing }).marked with heq | hmarked
    · rw [heq] at h
      cases h
    · rw [hmarked] at h
      cases h

/-- The rows of a table. -/
structure RowsOf (W : World ρ) (player : Player) (rows : List ReputationMgr.Row) : Prop where
  nodup : (rows.map ReputationMgr.Row.faction).Nodup
  rows : ∀ row ∈ rows, ∃ entry, RowOf W player entry row

/-- States of different factions have different indices. -/
theorem StateOf.eq_iff {f f' : FactionState} (h : StateOf W player entry f)
    (h' : StateOf W player entry' f') : entry = entry' ↔ f.reputationListId = f'.reputationListId := by
  constructor
  · rintro rfl
    exact h.index.symm.trans h'.index
  · intro hindex
    exact W.indices entry h.mem entry' h'.mem h.canHave (h.index.trans (hindex.trans h'.index.symm))

/-- The loop over the rows: the factions that have a row get their restored state. -/
theorem loadRows_spec (rows : List ReputationMgr.Row) (h : Sound W player m)
    (hrows : RowsOf W player rows)
    (hfresh : ∀ row ∈ rows, ∀ entry, RowOf W player entry row →
      m.find entry.reputationIndex = some (freshState player entry)) :
    Sound W player (rows.foldl (fun m row => m.loadRow W player row) m) ∧
      ∀ f, f ∈ (rows.foldl (fun m row => m.loadRow W player row) m).factions ↔
        (∃ row ∈ rows, ∃ entry, RowOf W player entry row ∧ f = restored W player entry row) ∨
          f ∈ m.factions ∧ ∀ row ∈ rows, ∀ entry, RowOf W player entry row →
            f.reputationListId ≠ entry.reputationIndex := by
  induction rows generalizing m with
  | nil =>
    refine ⟨h, fun f => ⟨fun hf => Or.inr ⟨hf, fun _ hrow => absurd hrow not_mem_nil⟩, ?_⟩⟩
    rintro (⟨row, hrow, -⟩ | ⟨hf, -⟩)
    · cases hrow
    · exact hf
  | cons row rows ih =>
    obtain ⟨entry, hrow⟩ := hrows.rows row mem_cons_self
    have hfind := hfresh row mem_cons_self entry hrow
    obtain ⟨hsound, hfactions⟩ := loadRow_spec h hrow hfind
    obtain ⟨hnot, hnodup⟩ := nodup_cons.mp hrows.nodup
    have hother : ∀ row' ∈ rows, ∀ entry', RowOf W player entry' row' →
        entry.reputationIndex ≠ entry'.reputationIndex := by
      intro row' hrow' entry' hrowOf hindex
      have hentry := W.indices entry hrow.mem entry' hrowOf.mem hrow.canHave hindex
      subst hentry
      exact hnot (mem_map.mpr ⟨row', hrow', hrowOf.id.symm.trans hrow.id⟩)
    have hunique : ∀ entry', RowOf W player entry' row → entry' = entry := fun entry' hrow' =>
      inj_on_of_nodup_map W.ids hrow'.mem hrow.mem (hrow'.id.trans hrow.id.symm)
    obtain ⟨hsound', hmem⟩ := ih hsound
      ⟨hnodup, fun row' hrow' => hrows.rows row' (mem_cons_of_mem _ hrow')⟩
      fun row' hrow' entry' hrowOf => by
        rw [ReputationMgr.find, hfactions, find_put_of_ne (by
          rw [restored_index]
          exact hother row' hrow' entry' hrowOf)]
        exact hfresh row' (mem_cons_of_mem _ hrow') entry' hrowOf
    refine ⟨hsound', fun f => (hmem f).trans ?_⟩
    have hin : entry.reputationIndex ∈ m.factions.map FactionState.reputationListId :=
      mem_map.mpr ⟨_, mem_of_find hfind, rfl⟩
    rw [hfactions, mem_put_iff, restored_index, and_iff_left hin]
    constructor
    · rintro (⟨row', hrow', hf⟩ | ⟨rfl | ⟨hf, hindex⟩, hnone⟩)
      · exact Or.inl ⟨row', mem_cons_of_mem _ hrow', hf⟩
      · exact Or.inl ⟨row, mem_cons_self, entry, hrow, rfl⟩
      · refine Or.inr ⟨hf, fun row' hrow' entry' hrowOf => ?_⟩
        rcases mem_cons.mp hrow' with rfl | hrow'
        · rw [hunique entry' hrowOf]
          exact hindex
        · exact hnone row' hrow' entry' hrowOf
    · rintro (⟨row', hrow', entry', hrowOf, rfl⟩ | ⟨hf, hnone⟩)
      · rcases mem_cons.mp hrow' with rfl | hrow'
        · rw [hunique entry' hrowOf]
          refine Or.inr ⟨Or.inl rfl, fun row'' hrow'' entry'' hrowOf'' => ?_⟩
          rw [restored_index]
          exact hother row'' hrow'' entry'' hrowOf''
        · exact Or.inl ⟨row', hrow', entry', hrowOf, rfl⟩
      · refine Or.inr ⟨Or.inr ⟨hf, hnone row mem_cons_self entry hrow⟩, fun row' hrow' => ?_⟩
        exact hnone row' (mem_cons_of_mem _ hrow')

variable {rows : List ReputationMgr.Row}

/-- **Loading** keeps the invariant and restores the state of every row. -/
theorem loadFromDB_spec (hrows : RowsOf W player rows) :
    Sound W player (.loadFromDB W player rows) ∧
      (∀ row ∈ rows, ∀ entry, RowOf W player entry row →
        restored W player entry row ∈ (ReputationMgr.loadFromDB W player rows).factions) ∧
      ∀ f ∈ (ReputationMgr.loadFromDB W player rows).factions, f.needSave = true ∨
        ∃ row ∈ rows, ∃ entry, RowOf W player entry row ∧ f = restored W player entry row := by
  obtain ⟨hsound, hfactions⟩ := (@sound_initializeMgr _ W player)
  obtain ⟨hloaded, hmem⟩ := loadRows_spec rows hsound hrows fun row _ entry hrow => by
    have hin : freshState player entry ∈ (ReputationMgr.initializeMgr W player).factions := by
      rw [hfactions]
      refine mem_map_of_mem (mem_filter.mpr ⟨mem_filter.mpr ⟨hrow.mem, ?_⟩, hrow.canHave⟩)
      rw [decide_eq_false hrow.ne_zero]
      rfl
    exact find_of_mem hsound.distinct hin
  refine ⟨hloaded, fun row hrow entry hrowOf => ?_, fun f hf => ?_⟩
  · exact (hmem _).mpr (Or.inl ⟨row, hrow, entry, hrowOf, rfl⟩)
  · rcases (hmem f).mp hf with hrow | ⟨hf, -⟩
    · exact Or.inr hrow
    · rw [hfactions] at hf
      obtain ⟨entry, -, rfl⟩ := mem_map.mp hf
      exact Or.inl rfl

/-! ### Saving -/

/-- The row of a state. -/
def rowOf (f : FactionState) : ReputationMgr.Row := ⟨f.id, f.standing, f.flags⟩

/-- What is not marked for saving is in the table. -/
def Stored (rows : List ReputationMgr.Row) (m : ReputationMgr) : Prop :=
  ∀ f ∈ m.factions, f.needSave = false → rowOf f ∈ rows

theorem Marks.stored (h : Marks m m') (hstored : Stored rows m) : Stored rows m' := by
  intro f' hf' hsaved
  obtain ⟨f, hf, hsaved', hid, hstanding, hflags⟩ := h f' hf' hsaved
  have hrow := hstored f hf hsaved'
  rwa [rowOf, hid, hstanding, hflags] at hrow

/-- The states are of different factions. -/
theorem Sound.ids (h : Sound W player m) : (m.factions.map FactionState.id).Nodup := by
  refine List.Nodup.map_on (fun f hf f' hf' hid => ?_) h.distinct.of_map
  obtain ⟨entry, hstate⟩ := h.states f hf
  obtain ⟨entry', hstate'⟩ := h.states f' hf'
  have hlookup := hstate.lookup
  rw [hid, hstate'.lookup] at hlookup
  exact eq_of_key h.distinct hf hf' ((hstate.eq_iff hstate').mp (Option.some.inj hlookup).symm)

/-- The loop of `SaveToDB`: the rows of the marked states are written, the others stay. -/
theorem saveStates_spec (fs : List FactionState) (rows : List ReputationMgr.Row)
    (hsmall : ∀ f ∈ fs, f.id < 2 ^ 16) (hids : (fs.map FactionState.id).Nodup)
    (hnodup : (rows.map ReputationMgr.Row.faction).Nodup) :
    ((fs.foldl ReputationMgr.saveState rows).map ReputationMgr.Row.faction).Nodup ∧
      ∀ row, row ∈ fs.foldl ReputationMgr.saveState rows ↔
        (∃ f ∈ fs, f.needSave = true ∧ row = rowOf f) ∨
          row ∈ rows ∧ ∀ f ∈ fs, f.needSave = true → f.id ≠ row.faction := by
  induction fs generalizing rows with
  | nil =>
    refine ⟨hnodup, fun row => ⟨fun h => Or.inr ⟨h, fun _ hf => absurd hf not_mem_nil⟩, ?_⟩⟩
    rintro (⟨f, hf, -⟩ | ⟨h, -⟩)
    · cases hf
    · exact h
  | cons f fs ih =>
    obtain ⟨hid, hsmall⟩ := forall_mem_cons.mp hsmall
    obtain ⟨hnot, hids⟩ := nodup_cons.mp hids
    have hother : ∀ f' ∈ fs, f'.id ≠ f.id := fun f' hf' heq =>
      hnot (mem_map.mpr ⟨f', hf', heq⟩)
    rw [foldl_cons, ReputationMgr.saveState, Nat.mod_eq_of_lt hid]
    cases hmarked : f.needSave with
    | false =>
      obtain ⟨hnodup', hmem⟩ := ih rows hsmall hids hnodup
      refine ⟨hnodup', fun row => (hmem row).trans ?_⟩
      simp only [mem_cons, exists_eq_or_imp, forall_eq_or_imp, hmarked, Bool.false_eq_true,
        false_and, false_or, IsEmpty.forall_iff, true_and]
    | true =>
      obtain ⟨hnodup', hmem⟩ := ih (rows.filter (fun row => !(row.faction = f.id)) ++
        [⟨f.id, f.standing, f.flags⟩]) hsmall hids (by
        rw [map_append, map_singleton]
        refine nodup_append.mpr ⟨hnodup.sublist ((filter_sublist).map _),
          nodup_singleton _, fun a ha b hb => ?_⟩
        obtain ⟨row, hrow, rfl⟩ := mem_map.mp ha
        rw [mem_singleton.mp hb]
        simpa using (mem_filter.mp hrow).2)
      refine ⟨hnodup', fun row => (hmem row).trans ?_⟩
      rw [mem_append, mem_singleton, mem_filter]
      simp only [mem_cons, exists_eq_or_imp, forall_eq_or_imp]
      constructor
      · rintro (hrow | ⟨⟨hrow, hne⟩ | rfl, hnone⟩)
        · exact Or.inl (Or.inr hrow)
        · exact Or.inr ⟨hrow, fun _ heq => by simp [heq] at hne, hnone⟩
        · exact Or.inl (Or.inl ⟨hmarked, rfl⟩)
      · rintro ((⟨-, rfl⟩ | hrow) | ⟨hrow, hne, hnone⟩)
        · exact Or.inr ⟨Or.inr rfl, fun f' hf' _ => hother f' hf'⟩
        · exact Or.inl hrow
        · refine Or.inr ⟨Or.inl ⟨hrow, ?_⟩, hnone⟩
          rw [decide_eq_false (Ne.symm (hne hmarked))]
          rfl

/-- The row of a state can stand in the table. -/
theorem StateOf.rowOf (h : StateOf W player entry f) : RowOf W player entry (rowOf f) :=
  ⟨h.mem, h.id, h.ne_zero, h.canHave, h.low, h.high, h.flags⟩

/-- **Saving** writes the rows of all states. -/
theorem saveToDB_spec (h : Sound W player m)
    (hrows : RowsOf W player rows) (hstored : Stored rows m) :
    Sound W player (m.saveToDB rows).1 ∧ RowsOf W player (m.saveToDB rows).2 ∧
      ∀ f ∈ m.factions, Reputation.rowOf f ∈ (m.saveToDB rows).2 := by
  obtain ⟨hnodup, hmem⟩ := saveStates_spec m.factions rows (fun f hf => by
    obtain ⟨entry, hstate⟩ := h.states f hf
    rw [← hstate.id]
    exact W.ids_lt entry hstate.mem) h.ids hrows.nodup
  refine ⟨h.map (g := fun f => { f with needSave := false }) (fun f => ⟨rfl, rfl, rfl, rfl⟩) rfl rfl
    rfl rfl rfl, ⟨hnodup, fun row hrow => ?_⟩, fun f hf => (hmem _).mpr ?_⟩
  · rcases (hmem row).mp hrow with ⟨f, hf, -, rfl⟩ | ⟨hrow, -⟩
    · obtain ⟨entry, hstate⟩ := h.states f hf
      exact ⟨entry, hstate.rowOf⟩
    · exact hrows.rows row hrow
  · cases hmarked : f.needSave with
    | true => exact Or.inl ⟨f, hf, hmarked, rfl⟩
    | false =>
      refine Or.inr ⟨hstored f hf hmarked, fun f' hf' hmarked' heq => ?_⟩
      rw [eq_of_key h.ids hf' hf heq, hmarked] at hmarked'
      cases hmarked'

end IscServer.Reputation
