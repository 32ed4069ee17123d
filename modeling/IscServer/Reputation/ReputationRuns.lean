import IscServer.Library.Run
import IscServer.Reputation.ReputationTable

/-!
# Reputation in Runs

Runs of all that can happen to the reputation of a player. Loading applies the saved flags to the
default ones with the setters, so that not every flag comes back: a faction that is hostile is at war
again, and a default that may not be changed stays.

## Main results

* `reputation_exact` — in every state of a run the standings are between bottom and cap, the counters
  are exact, and saving and loading gives back the standings, and the flags as `Reloaded` says.
* `peace_not_restored` — peace with a hated faction is not loaded.
-/

namespace IscServer.Reputation

open List

variable {ρ : Type} {W : World ρ} {player : Player} {m m' : ReputationMgr} {f : FactionState}
  {entry : FactionEntry ρ}

/-! ### Flags after loading -/

/-- **The flags after loading**: those that were saved, except that a faction that is inactive by
default is inactive, and that war depends on the rank, on the default and on who may be at war. -/
structure Reloaded (rank : ℤ) (default saved loaded : ReputationFlags) : Prop where
  visible : loaded.visible = saved.visible
  hidden : loaded.hidden = saved.hidden
  header : loaded.header = saved.header
  peaceful : loaded.peaceful = saved.peaceful
  showPropagated : loaded.showPropagated = saved.showPropagated
  headerShowsBar : loaded.headerShowsBar = saved.headerShowsBar
  inactive : loaded.inactive = (saved.inactive || default.inactive)
  atWar : loaded.atWar =
    if rank ≤ repHostile ∧ ¬ (saved.peaceful = true ∧ repHated < rank) then true
    else if saved.atWar then !(saved.peaceful && repHated < rank) || default.atWar
    else !saved.visible && default.atWar

variable {default saved : ReputationFlags}

theorem madeVisible_flags (h : FlagsOf default saved) (hf : f.flags = default) :
    (if saved.visible then f.madeVisible else f).flags =
      { default with visible := saved.visible } := by
  obtain ⟨hhidden, hheader, -, -, hbar, hvisible, hshown, -⟩ := h
  cases hsaved : saved.visible with
  | false =>
    have hdefault : default.visible = false := by
      cases hdefault : default.visible with
      | false => rfl
      | true => rw [hvisible hdefault] at hsaved; cases hsaved
    rw [if_neg Bool.false_ne_true, hf, ← hdefault]
  | true =>
    rw [if_pos rfl, FactionState.madeVisible]
    cases hdefault : default.visible with
    | true =>
      rw [if_pos (by rw [hf, hdefault, Bool.or_true]), hf, ← hdefault]
    | false =>
      obtain ⟨hnot, hnot'⟩ := hshown hsaved hdefault
      rw [hhidden] at hnot
      rw [hheader, hbar] at hnot'
      rw [if_neg (by rw [hf, hnot, hnot', hdefault]; exact Bool.false_ne_true), hf]

theorem withInactive_flags (h : FlagsOf default saved)
    (hf : f.flags = { default with visible := saved.visible }) :
    (if saved.inactive then f.withInactive true else f).flags =
      { default with visible := saved.visible, inactive := saved.inactive || default.inactive } := by
  cases hsaved : saved.inactive with
  | false => rw [if_neg Bool.false_ne_true, hf, Bool.false_or]
  | true =>
    rw [if_pos rfl, FactionState.withInactive, Bool.true_or]
    cases hdefault : default.inactive with
    | true =>
      split_ifs
      · rw [hf, ← hdefault]
      · rw [hf]
    | false =>
      obtain ⟨hnot, hnot', hvisible⟩ := h.changed (by
        rw [hsaved, hdefault]
        decide)
      rw [h.hidden] at hnot
      rw [h.header] at hnot'
      rw [if_neg (by rw [hf, hnot, hnot', hvisible, hdefault]; decide), hf]

variable (rank : ℤ)

theorem withWar_flags (atWar : Bool) (f : FactionState) :
    (f.withWar rank atWar).flags = { f.flags with
      atWar := if atWar && f.flags.peaceful && rank > repHated then f.flags.atWar else atWar } := by
  rw [FactionState.withWar]
  by_cases hrefused : (atWar && f.flags.peaceful && decide (rank > repHated)) = true
  · rw [if_pos hrefused, if_pos (by rw [hrefused]; rfl)]
  · split_ifs with hset
    · rw [Bool.or_eq_true, decide_eq_true_iff] at hset
      rw [← hset.resolve_left hrefused]
    · rfl

/-- War or peace as saved. -/
theorem savedWar_flags (saved : ReputationFlags) (f : FactionState)
    (hpeaceful : f.flags.peaceful = saved.peaceful) (hvisible : f.flags.visible = saved.visible) :
    (if saved.atWar then f.withWar rank true
      else if f.flags.visible then f.withWar rank false else f).flags = { f.flags with
        atWar := if saved.atWar then !(saved.peaceful && repHated < rank) || f.flags.atWar
          else !saved.visible && f.flags.atWar } := by
  cases saved.atWar with
  | true =>
    rw [if_pos rfl, if_pos rfl, withWar_flags, hpeaceful, Bool.true_and]
    cases saved.peaceful && decide (repHated < rank) <;> rfl
  | false =>
    rw [if_neg Bool.false_ne_true, if_neg Bool.false_ne_true, hvisible]
    cases saved.visible with
    | true => rw [if_pos rfl, withWar_flags]; rfl
    | false => rfl

/-- War with a hostile faction. -/
theorem hostileWar_flags (f : FactionState) :
    (if rank ≤ repHostile then f.withWar rank true else f).flags = { f.flags with
      atWar := if rank ≤ repHostile ∧ ¬ (f.flags.peaceful = true ∧ repHated < rank) then true
        else f.flags.atWar } := by
  by_cases hhostile : rank ≤ repHostile
  · rw [if_pos hhostile, withWar_flags, Bool.true_and]
    by_cases hrefused : f.flags.peaceful = true ∧ repHated < rank
    · rw [if_pos (by rw [hrefused.1, decide_eq_true hrefused.2]; rfl), if_neg fun h => h.2 hrefused]
    · rw [if_neg (by rwa [Bool.and_eq_true, decide_eq_true_iff]), if_pos ⟨hhostile, hrefused⟩]
  · rw [if_neg hhostile, if_neg fun h => hhostile h.1]

/-- **What the setters of the loop make of the default flags.** -/
theorem reloaded_setFlags (h : FlagsOf default saved) (rank : ℤ) (hf : f.flags = default) :
    Reloaded rank default saved (setFlags rank saved f).flags := by
  have hflags := withInactive_flags h (madeVisible_flags h hf)
  dsimp only [setFlags]
  generalize (if saved.inactive = true then FactionState.withInactive true _ else _) = f₃ at hflags ⊢
  have hpeaceful : f₃.flags.peaceful = saved.peaceful := by rw [hflags, h.peaceful]
  have hwar := savedWar_flags rank saved f₃ hpeaceful (by rw [hflags])
  rw [hostileWar_flags, hwar, hflags, ← h.peaceful]
  exact ⟨rfl, h.hidden.symm, h.header.symm, rfl, h.showPropagated.symm, h.headerShowsBar.symm, rfl,
    rfl⟩

/-! ### Runs -/

/-- The reputation of a player, and the rows of its table. -/
structure Server where
  mgr : ReputationMgr
  rows : List ReputationMgr.Row

/-- What can happen: the functions of the manager, with the id of a faction or a reputation index. -/
inductive Op
  | initializeMgr
  | setReputation (faction : ℕ) (standing : ℤ) (incremental spillOverOnly : Bool)
  | setOneFactionReputation (faction : ℕ) (standing : ℤ) (incremental : Bool)
  | setVisible (faction : ℕ)
  | setVisibleTemplate (faction : ℕ)
  | setAtWar (repListId : ℤ) (on : Bool)
  | setInactive (repListId : ℤ) (on : Bool)
  | saveToDB
  | loadFromDB

/-- What is done to a faction of the store. -/
def withEntry (W : World ρ) (faction : ℕ) (s : Server) (g : FactionEntry ρ → ReputationMgr) : Server :=
  match W.lookupEntry faction with
  | none => s
  | some entry => { s with mgr := g entry }

/-- One step. -/
def step (W : World ρ) (player : Player) (s : Server) : Op → Server
  | .initializeMgr => { s with mgr := .initializeMgr W player }
  | .setReputation faction standing incremental spillOverOnly =>
    withEntry W faction s fun entry =>
      (s.mgr.setReputation W player entry standing incremental spillOverOnly).1
  | .setOneFactionReputation faction standing incremental =>
    withEntry W faction s fun entry =>
      (s.mgr.setOneFactionReputation W player entry standing incremental).1
  | .setVisible faction => withEntry W faction s fun entry => s.mgr.setVisible entry
  | .setVisibleTemplate faction => { s with mgr := s.mgr.setVisibleTemplate W player faction }
  | .setAtWar repListId on => { s with mgr := s.mgr.setAtWar W player repListId on }
  | .setInactive repListId on => { s with mgr := s.mgr.setInactive repListId on }
  | .saveToDB => ⟨(s.mgr.saveToDB s.rows).1, (s.mgr.saveToDB s.rows).2⟩
  | .loadFromDB => { s with mgr := .loadFromDB W player s.rows }

/-- A run, from a new manager and an empty table. -/
def run (W : World ρ) (player : Player) (ops : List Op) : Server :=
  ops.foldl (step W player) ⟨.new, []⟩

/-- The number of factions with a rank or a better one. -/
def factionsFrom (W : World ρ) (player : Player) (m : ReputationMgr) (rank : ℤ) : ℕ :=
  m.factions.countP fun f => rank ≤ m.rankOf W player f

/-- **Bounds and counters**: every reputation is between bottom and cap and has one of the eight ranks,
and the counters, of eight bits, are the numbers of factions. -/
structure Exact (W : World ρ) (player : Player) (m : ReputationMgr) : Prop where
  bounds : ∀ entry ∈ W.factions, reputationBottom ≤ m.getReputation player entry ∧
    m.getReputation player entry ≤ reputationCap
  ranks : ∀ entry ∈ W.factions, repHated ≤ m.getRank player entry ∧
    m.getRank player entry ≤ repExalted
  honored : m.honoredFactionCount = UInt8.ofNat (factionsFrom W player m repHonored)
  revered : m.reveredFactionCount = UInt8.ofNat (factionsFrom W player m repRevered)
  exalted : m.exaltedFactionCount = UInt8.ofNat (factionsFrom W player m repExalted)
  visible : m.visibleFactionCount = UInt8.ofNat (m.factions.countP fun f => f.flags.visible)

/-- **Saving and loading** gives back the standing of every faction, and its flags as `Reloaded`
says. -/
def Restores (W : World ρ) (player : Player) (s : Server) : Prop :=
  ∀ f ∈ s.mgr.factions, ∃ entry, W.lookupEntry f.id = some entry ∧
    ∃ f' ∈ (ReputationMgr.loadFromDB W player (s.mgr.saveToDB s.rows).2).factions,
      f'.id = f.id ∧ f'.reputationListId = f.reputationListId ∧ f'.standing = f.standing ∧
        Reloaded (s.mgr.rankOf W player f) (getDefaultStateFlags player entry) f.flags f'.flags

/-! ### The invariant -/

/-- **The invariant** of the manager and its table. -/
structure Good (W : World ρ) (player : Player) (s : Server) : Prop where
  sound : Sound W player s.mgr
  rows : RowsOf W player s.rows
  stored : Stored s.rows s.mgr

variable {s : Server}

theorem Good.keeps (h : Good W player s) (hkeeps : Keeps W player s.mgr m) :
    Good W player { s with mgr := m } :=
  ⟨hkeeps.sound, h.rows, hkeeps.marks.stored h.stored⟩

theorem Good.withEntry (h : Good W player s) (faction : ℕ) {g : FactionEntry ρ → ReputationMgr}
    (hg : ∀ entry ∈ W.factions, Keeps W player s.mgr (g entry)) :
    Good W player (withEntry W faction s g) := by
  rw [Reputation.withEntry]
  cases hlookup : W.lookupEntry faction with
  | none => exact h
  | some entry => exact h.keeps (hg entry (lookupEntry_mem hlookup))

/-- Every step keeps the invariant. -/
theorem Good.step (h : Good W player s) (op : Op) : Good W player (step W player s op) := by
  cases op with
  | initializeMgr =>
    obtain ⟨hsound, hfactions⟩ := (@sound_initializeMgr _ W player)
    refine ⟨hsound, h.rows, fun f hf hsaved => ?_⟩
    rw [Reputation.step, hfactions] at hf
    obtain ⟨entry, -, rfl⟩ := mem_map.mp hf
    cases hsaved
  | setReputation faction standing incremental spillOverOnly =>
    exact h.withEntry faction fun entry hmem =>
      keeps_setReputation h.sound hmem standing incremental spillOverOnly
  | setOneFactionReputation faction standing incremental =>
    exact h.withEntry faction fun entry hmem =>
      keeps_setOneFactionReputation h.sound hmem standing incremental
  | setVisible faction => exact h.withEntry faction fun entry _ => keeps_setVisible h.sound entry
  | setVisibleTemplate faction => exact h.keeps (keeps_setVisibleTemplate h.sound faction)
  | setAtWar repListId on => exact h.keeps (keeps_setAtWar h.sound repListId on)
  | setInactive repListId on => exact h.keeps (keeps_setInactive h.sound repListId on)
  | saveToDB =>
    obtain ⟨hsound, hrows, hmem⟩ := saveToDB_spec h.sound h.rows h.stored
    refine ⟨hsound, hrows, fun f hf _ => ?_⟩
    obtain ⟨f, hold, rfl⟩ := mem_map.mp hf
    exact hmem f hold
  | loadFromDB =>
    obtain ⟨hsound, -, hmem⟩ := loadFromDB_spec h.rows
    refine ⟨hsound, h.rows, fun f hf hsaved => ?_⟩
    rcases hmem f hf with hmarked | ⟨row, hrow, entry, hrowOf, rfl⟩
    · rw [hmarked] at hsaved
      cases hsaved
    · have heq : rowOf (restored W player entry row) = row := by
        obtain ⟨hid, -, hstanding⟩ := (@restored_eq _ W player entry) row
        rw [rowOf, hid, hstanding, restored_flags hsaved, hrowOf.id]
      rw [heq]
      exact hrow

/-- The invariant holds in every state of a run. -/
theorem good_run (ops : List Op) : Good W player (run W player ops) :=
  Run.Along.invariant (P := fun _ _ => True) (Good W player) (fun _ op h _ => h.step op)
    ⟨sound_new, ⟨nodup_nil, fun _ h => absurd h not_mem_nil⟩,
      fun _ h => absurd h not_mem_nil⟩ (Run.along_of_forall (fun _ _ => trivial) _ ops)

/-! ### Exact counters -/

/-- The rank of a state is that of its faction. -/
theorem Sound.rankOf_eq (h : Sound W player m) (hf : f ∈ m.factions) :
    m.rankOf W player f = stateRank W player f := by
  obtain ⟨entry, hstate⟩ := h.states f hf
  exact hstate.rankOf (Keyed.find_of_mem h.distinct hf)

theorem Sound.exact (h : Sound W player m) : Exact W player m := by
  have hbounds : ∀ entry ∈ W.factions, reputationBottom ≤ m.getReputation player entry ∧
      m.getReputation player entry ≤ reputationCap := by
    intro entry hmem
    cases hcan : entry.canHaveReputation with
    | false =>
      rw [ReputationMgr.getReputation, hcan, if_neg Bool.false_ne_true]
      decide
    | true =>
      cases hfind : m.find entry.reputationIndex with
      | none =>
        rw [ReputationMgr.getReputation, hcan, if_pos rfl, hfind]
        exact (by decide : reputationBottom ≤ 0 ∧ 0 ≤ reputationCap)
      | some f =>
        have hstate := h.stateOf hmem hfind
        rw [hstate.getReputation hfind, hstate.total_eq]
        exact ⟨hstate.low, hstate.high⟩
  have hcount : ∀ rank, factionsFrom W player m rank =
      m.factions.countP fun f => rank ≤ stateRank W player f := fun rank =>
    countP_congr fun f hf => by rw [h.rankOf_eq hf]
  refine ⟨hbounds, fun entry hmem => ?_, ?_, ?_, ?_, h.counting.visible⟩
  · exact reputationToRank_bounds (hbounds entry hmem).1 (hbounds entry hmem).2
  · rw [hcount]
    exact h.counting.honored
  · rw [hcount]
    exact h.counting.revered
  · rw [hcount]
    exact h.counting.exalted

theorem Good.restores (h : Good W player s) : Restores W player s := by
  intro f hf
  obtain ⟨entry, hstate⟩ := h.sound.states f hf
  obtain ⟨-, hrows, hmem⟩ := saveToDB_spec h.sound h.rows h.stored
  obtain ⟨-, hrestored, -⟩ := loadFromDB_spec hrows
  have hrow := hstate.rowOf
  obtain ⟨hid, hindex, hstanding⟩ := (@restored_eq _ W player entry) (rowOf f)
  refine ⟨entry, hstate.lookup, _, hrestored _ (hmem f hf) entry hrow, hid.trans hstate.id,
    hindex.trans hstate.index, hstanding, ?_⟩
  have hrank : stateRank W player { freshState player entry with standing := f.standing } =
      s.mgr.rankOf W player f := by
    rw [h.sound.rankOf_eq hf, stateRank, stateRank, hstate.total_eq]
    exact congrArg reputationToRank hrow.stateOf.total_eq
  have hflags := reloaded_setFlags (f := { freshState player entry with standing := f.standing })
    hstate.flags (s.mgr.rankOf W player f) rfl
  have heq : (restored W player entry (rowOf f)).flags = (setFlags (s.mgr.rankOf W player f) f.flags
      { freshState player entry with standing := f.standing }).flags := by
    rw [← hrank]
    dsimp only [restored]
    split_ifs <;> rfl
  rw [heq]
  exact hflags

/-- **Reputation is exact** in every state of every run. -/
theorem reputation_exact (W : World ρ) (player : Player) (ops : List Op) :
    Exact W player (run W player ops).mgr ∧ Restores W player (run W player ops) :=
  ⟨(good_run ops).sound.exact, (good_run ops).restores⟩

local instance neZero_four : NeZero 4 := ⟨by decide⟩

/-- One faction that hates the player, and is at war with it. -/
def hatedWorld : World ℤ where
  factions := [{
    id := 21
    reputationIndex := 0
    reputationRaceMask := fun i => if i = 0 then 1 else 0
    reputationClassMask := fun _ => 0
    reputationBase := fun i => if i = 0 then -42000 else 0
    reputationFlags := fun _ => ⟨true, true, false, false, false, false, false, false⟩
    parentFactionId := 0
    parentFactionMod := fun _ => 0
    parentFactionCap := fun _ => 0 }]
  repSpilloverTemplate := fun _ => none
  ofInt := id
  mul := (· * ·)
  toInt := id
  isZero := fun x => x = 0
  gain := id
  ids := by decide
  ids_lt := by decide
  indices := by
    intro entry hmem entry' hmem' _ _
    rw [mem_singleton.mp hmem, mem_singleton.mp hmem']
  bases := by decide

/-- The player has made peace with the faction. After saving and loading they are at war. -/
theorem peace_not_restored :
    ¬ ∀ f ∈ (run hatedWorld ⟨1, 1⟩ [.initializeMgr, .setAtWar 0 false]).mgr.factions,
      ∃ f' ∈ (run hatedWorld ⟨1, 1⟩
        [.initializeMgr, .setAtWar 0 false, .saveToDB, .loadFromDB]).mgr.factions,
        f'.id = f.id ∧ f'.standing = f.standing ∧ f'.flags = f.flags := by
  decide

end IscServer.Reputation
