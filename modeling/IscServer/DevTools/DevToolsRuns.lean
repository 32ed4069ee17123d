import IscServer.Library.Run
import IscServer.DevTools.DevToolsMgr

/-!
# The Written SQL and the Game

The changes of the editor are applied in memory at once and to the database only when the update
files are. The two views agree when running the committed files and then the pending changes on
the table the server was started with gives the spawn ids that are in the creature data and not
hidden.

The invariant behind this is `Sound`: a pending spawn is in memory and not in the committed table,
a pending deletion is hidden and in the committed table, and every spawn id without a pending
change is in the committed table exactly if it is visible.

Three things can break it. A commit whose file fails after it was opened reports an error and
leaves the file, cut off, in the update directory. The counter of the change ids wraps around
after `2 ^ 32` changes and can meet the id of a change that is still pending. And the generator of
spawn ids can return an id that is in use, after it has asked the server to stop. `StepSafe`
excludes exactly these steps.

## Main results

* `agrees_of_run` — in every run of safe steps the two views agree in every state, and a failed
  undo or commit changes nothing.
* `commit_not_failureKeeps` — the file that a failed commit leaves behind.
-/

open scoped List

namespace IscServer.DevTools

open List

open Updater (FileName)

/-! ### What is asked of a run -/

/-- The statements of all committed files, in commit order. -/
def committedScript (s : DevToolsMgr) : List SqlStatement :=
  s.committed.flatMap fun file => file.2.statements

/-- The table after all committed files and the pending changes. -/
def tableAfter (table : Finset ℕ) (s : DevToolsMgr) : Finset ℕ :=
  runScript table (committedScript s ++ scriptOf s.changes)

/-- The spawn ids that exist in memory and are not hidden. -/
def visibleSpawns (s : DevToolsMgr) : Finset ℕ :=
  s.creatureData.keys.toFinset \ s.hiddenCreatureSpawns

/-- The SQL gives what the game shows, a spawn id has at most one pending change, and the pending
change ids are distinct. -/
structure Agrees (table : Finset ℕ) (s : DevToolsMgr) : Prop where
  tableAfter_eq : tableAfter table s = visibleSpawns s
  spawnIds_nodup : (s.changes.map DevToolsChange.spawnId).Nodup
  ids_nodup : (s.changes.map DevToolsChange.id).Nodup

/-- A failed undo or commit changes nothing, in memory or on disk. -/
def FailureKeeps (s : DevToolsMgr) : Event → Prop
  | .undo changeId => ∀ error, (undo changeId s).1 = .error error → (undo changeId s).2 = s
  | .commit call => ∀ error, (commit call s).1 = .error error → (commit call s).2 = s
  | _ => True

/-- The next change id is not that of a pending change. -/
def FreshChangeId (s : DevToolsMgr) : Prop := s.nextChangeId ∉ s.changes.map DevToolsChange.id

/-- Fresh ids can be checked. -/
instance (s : DevToolsMgr) : Decidable (FreshChangeId s) := inferInstanceAs (Decidable (_ ∉ _))

/-- The steps that the views survive: a new change gets a fresh change id, a new spawn gets a fresh
spawn id, and no commit is cut off after its file was opened. -/
def StepSafe (s : DevToolsMgr) : Event → Prop
  | .spawnCreature call =>
    call.template.isSome = true → call.onTransport = false → call.created = true →
      s.creatureSpawnId ∉ s.creatureData ∧ FreshChangeId s
  | .deleteCreatureSpawn spawnId _ =>
    (dataOf spawnId s).isSome = true → spawnId ∉ s.hiddenCreatureSpawns →
      pendingSpawn spawnId s = none → FreshChangeId s
  | .undo _ => True
  | .commit call =>
    s.changes ≠ [] → call.isDirectory = true → ∀ count, call.outcome ≠ .cutOff count

/-! ### The effect of the pending changes -/

/-- The statements that are recorded for a change. -/
def sqlOf : DevToolsChangeType → ℕ → List SqlStatement
  | .deleteCreature, spawnId => [.deleteCreature spawnId]
  | .spawnCreature, spawnId => [.deleteCreature spawnId, .insertCreature spawnId]

/-- A change decides about its spawn id and about no other. -/
theorem mem_runScript_sqlOf (table : Finset ℕ) (type : DevToolsChangeType) (spawnId g : ℕ) :
    g ∈ runScript table (sqlOf type spawnId) ↔
      if g = spawnId then type = .spawnCreature else g ∈ table := by
  cases type with
  | deleteCreature =>
    simp only [sqlOf, runScript, foldl_cons, SqlStatement.run]
    split_ifs with h <;> simp [h]
  | spawnCreature =>
    simp only [sqlOf, runScript, foldl_cons, SqlStatement.run]
    split_ifs with h <;> simp [h]

theorem runScript_append (table : Finset ℕ) (first second : List SqlStatement) :
    runScript table (first ++ second) = runScript (runScript table first) second :=
  foldl_append

/-- **The effect of a list of changes** with distinct spawn ids: the change of a spawn id decides,
and a spawn id without a change stays as it is. -/
theorem mem_runScript_scriptOf {changes : List DevToolsChange}
    (hsql : ∀ change ∈ changes, change.sql = sqlOf change.type change.spawnId)
    (hnodup : (changes.map DevToolsChange.spawnId).Nodup) (table : Finset ℕ) (g : ℕ) :
    (∀ change ∈ changes, change.spawnId = g →
        (g ∈ runScript table (scriptOf changes) ↔ change.type = .spawnCreature)) ∧
      ((∀ change ∈ changes, change.spawnId ≠ g) →
        (g ∈ runScript table (scriptOf changes) ↔ g ∈ table)) := by
  induction changes generalizing table with
  | nil => exact ⟨fun _ h => absurd h not_mem_nil, fun _ => Iff.rfl⟩
  | cons first changes ih =>
    obtain ⟨hfirst, hsql⟩ := forall_mem_cons.mp hsql
    obtain ⟨hnew, hnodup⟩ := nodup_cons.mp hnodup
    have hstep : runScript table (scriptOf (first :: changes)) =
        runScript (runScript table (sqlOf first.type first.spawnId)) (scriptOf changes) := by
      rw [scriptOf, flatMap_cons, runScript_append, hfirst]
      rfl
    obtain ⟨hchanged, hkept⟩ := ih hsql hnodup (runScript table (sqlOf first.type first.spawnId))
    rw [hstep]
    refine ⟨fun change hmem hg => ?_, fun hother => ?_⟩
    · rcases mem_cons.mp hmem with rfl | hmem
      · rw [hkept fun other hother heq => hnew (hg ▸ heq ▸ mem_map_of_mem hother),
          mem_runScript_sqlOf, if_pos hg.symm]
      · exact hchanged change hmem hg
    · rw [hkept fun change hmem => hother change (mem_cons_of_mem _ hmem),
        mem_runScript_sqlOf, if_neg (hother first mem_cons_self).symm]

/-! ### The invariant -/

/-- What a pending change says about its spawn id. -/
structure ChangeSound (base : Finset ℕ) (s : DevToolsMgr) (change : DevToolsChange) : Prop where
  sql_eq : change.sql = sqlOf change.type change.spawnId
  /-- The spawn id is in memory. -/
  mem_data : change.spawnId ∈ s.creatureData
  /-- A deletion is hidden, a spawn is not. -/
  mem_hidden : change.spawnId ∈ s.hiddenCreatureSpawns ↔ change.type = .deleteCreature
  /-- What is deleted was in the committed table, what is spawned was not. -/
  mem_base : change.spawnId ∈ base ↔ change.type = .deleteCreature

/-- **The invariant** of the editor, over the table after all committed files. -/
structure Sound (base : Finset ℕ) (s : DevToolsMgr) : Prop where
  changes : ∀ change ∈ s.changes, ChangeSound base s change
  spawnIds_nodup : (s.changes.map DevToolsChange.spawnId).Nodup
  ids_nodup : (s.changes.map DevToolsChange.id).Nodup
  /-- Only what is in memory is hidden. -/
  hidden : ∀ g ∈ s.hiddenCreatureSpawns, g ∈ s.creatureData
  /-- A spawn id without a change is in the committed table exactly if it is visible. -/
  unchanged : ∀ g, (∀ change ∈ s.changes, change.spawnId ≠ g) →
    (g ∈ base ↔ g ∈ s.creatureData ∧ g ∉ s.hiddenCreatureSpawns)

variable {base : Finset ℕ} {s : DevToolsMgr}

/-- Under the invariant the pending changes turn the committed table into what is visible. -/
theorem Sound.mem_runScript_iff (h : Sound base s) (g : ℕ) :
    g ∈ runScript base (scriptOf s.changes) ↔
      g ∈ s.creatureData ∧ g ∉ s.hiddenCreatureSpawns := by
  obtain ⟨hchanged, hkept⟩ := mem_runScript_scriptOf
    (fun change hmem => (h.changes change hmem).sql_eq) h.spawnIds_nodup base g
  by_cases hg : ∃ change ∈ s.changes, change.spawnId = g
  · obtain ⟨change, hmem, rfl⟩ := hg
    have hsound := h.changes change hmem
    rw [hchanged change hmem rfl, hsound.mem_hidden]
    refine ⟨fun htype => ⟨hsound.mem_data, by simp [htype]⟩, fun hvisible => ?_⟩
    cases htype : change.type with
    | deleteCreature => exact absurd htype hvisible.2
    | spawnCreature => rfl
  · have hnone : ∀ change ∈ s.changes, change.spawnId ≠ g := fun change hmem heq =>
      hg ⟨change, hmem, heq⟩
    rw [hkept hnone, h.unchanged g hnone]

/-! ### What the operations do to the invariant -/

/-- Two states show the same under a spawn id: in memory or not, hidden or not. -/
def SameSpawn (s t : DevToolsMgr) (g : ℕ) : Prop :=
  (g ∈ t.creatureData ↔ g ∈ s.creatureData) ∧
    (g ∈ t.hiddenCreatureSpawns ↔ g ∈ s.hiddenCreatureSpawns)

variable {t : DevToolsMgr}

/-- A change is as sound as before if its spawn id shows the same. -/
theorem ChangeSound.congr {change : DevToolsChange} (h : ChangeSound base s change)
    (hsame : SameSpawn s t change.spawnId) : ChangeSound base t change :=
  ⟨h.sql_eq, hsame.1.mpr h.mem_data, hsame.2.trans h.mem_hidden, h.mem_base⟩

/-- The invariant depends on the changes and on what is shown. -/
theorem Sound.congr (h : Sound base s) (hchanges : t.changes = s.changes)
    (hsame : ∀ g, SameSpawn s t g) : Sound base t where
  changes change hmem := (h.changes change (hchanges ▸ hmem)).congr (hsame _)
  spawnIds_nodup := hchanges ▸ h.spawnIds_nodup
  ids_nodup := hchanges ▸ h.ids_nodup
  hidden g hg := (hsame g).1.mpr (h.hidden g ((hsame g).2.mp hg))
  unchanged g hg := by
    rw [(hsame g).1, (hsame g).2]
    exact h.unchanged g (hchanges ▸ hg)

/-- A recorded change keeps the invariant: its id is fresh, its spawn id has no other change, and
no other spawn id is concerned. -/
theorem Sound.recorded {new : DevToolsChange} (h : Sound base s)
    (hchanges : t.changes = s.changes ++ [new]) (hfresh : new.id ∉ s.changes.map DevToolsChange.id)
    (hfree : ∀ change ∈ s.changes, change.spawnId ≠ new.spawnId) (hnew : ChangeSound base t new)
    (hsame : ∀ g, g ≠ new.spawnId → SameSpawn s t g) :
    Sound base t where
  changes change hmem := by
    rw [hchanges] at hmem
    rcases mem_append.mp hmem with hmem | hmem
    · exact (h.changes change hmem).congr (hsame _ (hfree change hmem))
    · exact mem_singleton.mp hmem ▸ hnew
  spawnIds_nodup := by
    rw [hchanges, map_append]
    refine nodup_append.mpr ⟨h.spawnIds_nodup, nodup_singleton _, ?_⟩
    rintro g hg g' hg' rfl
    obtain ⟨change, hmem, rfl⟩ := mem_map.mp hg
    exact hfree change hmem (mem_singleton.mp hg')
  ids_nodup := by
    rw [hchanges, map_append]
    refine nodup_append.mpr ⟨h.ids_nodup, nodup_singleton _, ?_⟩
    rintro id hid id' hid' rfl
    exact hfresh (mem_singleton.mp hid' ▸ hid)
  hidden g hg := by
    by_cases heq : g = new.spawnId
    · exact heq ▸ hnew.mem_data
    · exact (hsame g heq).1.mpr (h.hidden g ((hsame g heq).2.mp hg))
  unchanged g hg := by
    rw [hchanges] at hg
    have hne : g ≠ new.spawnId := (hg new (mem_append_right _ mem_cons_self)).symm
    rw [(hsame g hne).1, (hsame g hne).2]
    exact h.unchanged g fun change hmem => hg change (mem_append_left _ hmem)

/-- A removed change keeps the invariant: its spawn id is shown again as the committed table has
it, and no other spawn id is concerned. -/
theorem Sound.removed {old : DevToolsChange} (h : Sound base s)
    (hchanges : s.changes ~ old :: t.changes)
    (hdata : old.spawnId ∈ t.creatureData ↔ old.type = .deleteCreature)
    (hhidden : old.spawnId ∉ t.hiddenCreatureSpawns)
    (hsame : ∀ g, g ≠ old.spawnId → SameSpawn s t g) : Sound base t := by
  have hids := (hchanges.map DevToolsChange.id).nodup_iff.mp h.ids_nodup
  have hspawns := (hchanges.map DevToolsChange.spawnId).nodup_iff.mp h.spawnIds_nodup
  obtain ⟨hfree, hspawns⟩ := nodup_cons.mp hspawns
  have hmem : ∀ {change}, change ∈ t.changes → change ∈ s.changes := fun h =>
    hchanges.mem_iff.mpr (mem_cons_of_mem _ h)
  have hold := h.changes old (hchanges.mem_iff.mpr mem_cons_self)
  refine ⟨fun change hchange => ?_, hspawns, (nodup_cons.mp hids).2, fun g hg => ?_, fun g hg => ?_⟩
  · refine (h.changes change (hmem hchange)).congr (hsame _ fun heq => hfree ?_)
    rw [← heq]
    exact mem_map_of_mem hchange
  · have hne : g ≠ old.spawnId := fun heq => hhidden (heq ▸ hg)
    exact (hsame g hne).1.mpr (h.hidden g ((hsame g hne).2.mp hg))
  · by_cases heq : g = old.spawnId
    · rw [heq, hold.mem_base, hdata]
      exact ⟨fun htype => ⟨htype, hhidden⟩, fun hvisible => hvisible.1⟩
    · rw [(hsame g heq).1, (hsame g heq).2]
      refine h.unchanged g fun change hchange => ?_
      rcases mem_cons.mp (hchanges.mem_iff.mp hchange) with rfl | hchange
      · exact Ne.symm heq
      · exact hg change hchange

/-- The element found first is the one erased. -/
theorem perm_cons_eraseP_of_find? {α : Type} {p : α → Bool} {l : List α} {a : α}
    (h : l.find? p = some a) : l ~ a :: l.eraseP p := by
  obtain ⟨hp, before, after, rfl, hbefore⟩ := find?_eq_some_iff_append.mp h
  rw [eraseP_append_right _ (by simpa using hbefore), eraseP_cons_of_pos hp]
  exact perm_middle

section

variable (h : Sound base s)
include h

/-- **Undo keeps the invariant.** -/
theorem Sound.undo (changeId : ℕ) : Sound base (undo changeId s).2 := by
  rw [DevTools.undo]
  cases hfind : s.changes.find? fun change => change.id = changeId with
  | none => exact h
  | some change =>
    have hmem := mem_of_find?_eq_some hfind
    have hsound := h.changes change hmem
    have hperm := perm_cons_eraseP_of_find? hfind
    simp only
    cases htype : change.type with
    | spawnCreature =>
      refine h.removed hperm ?_ ?_ fun g hg => ⟨?_, Iff.rfl⟩
      · simp [htype]
      · exact fun hhidden => by simp [hsound.mem_hidden.mp hhidden] at htype
      · simp [hg]
    | deleteCreature =>
      refine h.removed hperm ?_ ?_ fun g hg => ⟨Iff.rfl, ?_⟩
      · exact iff_of_true hsound.mem_data htype
      · exact Finset.notMem_erase _ _
      · simp [hg]

/-- A spawn id without creature data has no pending change, is not hidden and is not in the
committed table. -/
theorem Sound.of_not_mem_data {g : ℕ} (hg : g ∉ s.creatureData) :
    (∀ change ∈ s.changes, change.spawnId ≠ g) ∧ g ∉ s.hiddenCreatureSpawns ∧ g ∉ base := by
  have hfree : ∀ change ∈ s.changes, change.spawnId ≠ g := fun change hmem heq =>
    hg (heq ▸ (h.changes change hmem).mem_data)
  exact ⟨hfree, fun hhidden => hg (h.hidden g hhidden),
    fun hbase => hg ((h.unchanged g hfree).mp hbase).1⟩

/-- **Spawning keeps the invariant**, with a fresh spawn id and a fresh change id. -/
theorem Sound.spawnCreature {call : SpawnCall} (hsafe : StepSafe s (.spawnCreature call)) :
    Sound base (spawnCreature call s).2 := by
  rw [DevTools.spawnCreature]
  cases htemplate : call.template with
  | none => exact h
  | some name =>
    cases htransport : call.onTransport with
    | true => exact h
    | false =>
      cases hcreated : call.created with
      | false => exact h
      | true =>
        obtain ⟨hdata, hfresh⟩ := hsafe (by simp [htemplate]) htransport hcreated
        obtain ⟨hfree, hhidden, hbase⟩ := h.of_not_mem_data hdata
        simp only [Bool.false_eq_true, if_false, Bool.not_true]
        split_ifs
        · refine h.congr rfl fun g => ⟨?_, Iff.rfl⟩
          rw [AList.mem_erase, AList.mem_insert]
          constructor
          · rintro ⟨hne, heq | hmem⟩
            · exact absurd heq hne
            · exact hmem
          · exact fun hmem => ⟨fun heq => hdata (heq ▸ hmem), Or.inr hmem⟩
        · refine h.recorded rfl hfresh hfree ⟨rfl, ?_, ?_, ?_⟩ fun g hg => ⟨?_, Iff.rfl⟩
          · exact (AList.mem_insert _).mpr (Or.inl rfl)
          · exact iff_of_false hhidden (by simp)
          · exact iff_of_false hbase (by simp)
          · exact (AList.mem_insert _).trans (or_iff_right hg)

/-- **Deleting keeps the invariant**, with a fresh change id. -/
theorem Sound.deleteCreatureSpawn {spawnId : ℕ} {name : String}
    (hsafe : StepSafe s (.deleteCreatureSpawn spawnId name)) :
    Sound base (deleteCreatureSpawn spawnId name s).2 := by
  rw [DevTools.deleteCreatureSpawn]
  cases hentry : dataOf spawnId s with
  | none => exact h
  | some entry =>
    have hdata : spawnId ∈ s.creatureData := by
      rw [dataOf] at hentry
      split_ifs at hentry
      exact AList.lookup_isSome.mp (by rw [hentry]; rfl)
    split_ifs with hhidden
    · exact h
    · cases hpending : pendingSpawn spawnId s with
      | some pending => exact h.undo pending.id
      | none =>
        have hfresh := hsafe (by rw [hentry]; rfl) hhidden hpending
        have hfree : ∀ change ∈ s.changes, change.spawnId ≠ spawnId := by
          intro change hmem heq
          have hnone := List.find?_eq_none.mp hpending change hmem
          cases htype : change.type with
          | spawnCreature => exact hnone (by simp [htype, heq])
          | deleteCreature =>
            exact hhidden (heq ▸ (h.changes change hmem).mem_hidden.mpr htype)
        have hbase : spawnId ∈ base := (h.unchanged spawnId hfree).mpr ⟨hdata, hhidden⟩
        refine h.recorded rfl hfresh hfree ⟨rfl, hdata, ?_, ?_⟩ fun g hg => ⟨Iff.rfl, ?_⟩
        · exact iff_of_true (Finset.mem_insert_self _ _) rfl
        · exact iff_of_true hbase rfl
        · exact Finset.mem_insert.trans (or_iff_right hg)

end

/-- The invariant over the table the server was started with. -/
def SoundAfter (table : Finset ℕ) (s : DevToolsMgr) : Prop :=
  Sound (runScript table (committedScript s)) s

variable {table : Finset ℕ}

/-- **Committing keeps the invariant**: the pending changes become part of the table. -/
theorem SoundAfter.commit (h : SoundAfter table s) (call : CommitCall) :
    SoundAfter table (commit call s).2 := by
  rw [DevTools.commit]
  split_ifs
  · exact h
  · exact h
  · cases call.outcome with
    | notOpened => exact h
    | cutOff count => exact Sound.congr h rfl fun g => ⟨Iff.rfl, Iff.rfl⟩
    | written =>
      refine ⟨fun change hmem => absurd hmem not_mem_nil, nodup_nil,
        nodup_nil, h.hidden, fun g _ => ?_⟩
      simp only [committedScript, flatMap_append, runScript_append, flatMap_singleton]
      exact Sound.mem_runScript_iff h g

variable {event : Event}

/-- **Every safe step keeps the invariant.** -/
theorem SoundAfter.step (h : SoundAfter table s) (hsafe : StepSafe s event) :
    SoundAfter table (step s event) := by
  have hbase : ∀ {t : DevToolsMgr}, t.committed = s.committed →
      Sound (runScript table (committedScript s)) t → SoundAfter table t := by
    intro t hcommitted ht
    rwa [SoundAfter, committedScript, hcommitted]
  cases event with
  | spawnCreature call =>
    exact hbase (spawnCreature_disk call s).2 (Sound.spawnCreature h hsafe)
  | deleteCreatureSpawn spawnId name =>
    exact hbase (deleteCreatureSpawn_disk spawnId name s).2 (Sound.deleteCreatureSpawn h hsafe)
  | undo changeId => exact hbase (undo_disk changeId s).2 (Sound.undo h changeId)
  | commit call => exact h.commit call

/-- Under the invariant the two views agree. -/
theorem SoundAfter.agrees (h : SoundAfter table s) : Agrees table s := by
  refine ⟨?_, h.spawnIds_nodup, h.ids_nodup⟩
  ext g
  rw [tableAfter, runScript_append, Sound.mem_runScript_iff h g, visibleSpawns, Finset.mem_sdiff,
    mem_toFinset]
  rfl

/-- At startup the table is in memory. -/
theorem soundAfter_startup (creatures : AList (fun _ : ℕ => ℕ))
    (directory : AList (fun _ : FileName => UpdateFile)) :
    SoundAfter creatures.keys.toFinset (startup creatures directory) where
  changes _ hmem := absurd hmem not_mem_nil
  spawnIds_nodup := nodup_nil
  ids_nodup := nodup_nil
  hidden g hg := absurd hg (Finset.notMem_empty g)
  unchanged g _ := by
    have hmem : g ∈ creatures.keys.toFinset ↔ g ∈ creatures := mem_toFinset
    simpa [committedScript, runScript, startup] using hmem

/-! ### Failed requests -/

variable {error : String}

/-- A failed undo changes nothing. -/
theorem undo_error {changeId : ℕ} (h : (undo changeId s).1 = .error error) :
    (undo changeId s).2 = s := by
  rw [undo] at h ⊢
  cases hfind : s.changes.find? fun change => change.id = changeId with
  | none => rfl
  | some change =>
    simp only [hfind] at h
    cases htype : change.type <;> simp [htype] at h

/-- A failed commit changes nothing, unless its file was cut off. -/
theorem commit_error {call : CommitCall} (h : (commit call s).1 = .error error)
    (hsafe : StepSafe s (.commit call)) : (commit call s).2 = s := by
  rw [commit] at h ⊢
  split_ifs at h ⊢ with hchanges hdirectory
  · rfl
  · rfl
  · cases houtcome : call.outcome with
    | notOpened => rfl
    | cutOff count => exact absurd houtcome (hsafe hchanges (by simpa using hdirectory) count)
    | written => simp [houtcome] at h

/-- Safe steps fail without a trace. -/
theorem StepSafe.failureKeeps (h : StepSafe s event) : FailureKeeps s event := by
  cases event with
  | undo changeId => exact fun _ herror => undo_error herror
  | commit call => exact fun _ herror => commit_error herror h
  | spawnCreature call => trivial
  | deleteCreatureSpawn spawnId name => trivial

/-! ### Runs -/

/-- **The SQL equals what the game shows.** In every run of safe steps from the startup with any
table and any update directory, in every state: running the committed files and then the pending
changes on the initial table gives the spawn ids that exist in memory and are not hidden, a spawn
id has at most one pending change and the pending change ids are distinct; and no failed undo or
commit changes anything. -/
theorem agrees_of_run (creatures : AList (fun _ : ℕ => ℕ))
    (directory : AList (fun _ : FileName => UpdateFile)) (events : List Event)
    (hsafe : Run.Along step StepSafe (startup creatures directory) events) :
    Agrees creatures.keys.toFinset (events.foldl step (startup creatures directory)) ∧
      Run.Along step (fun s event => Agrees creatures.keys.toFinset s ∧ FailureKeeps s event)
        (startup creatures directory) events := by
  have hstart := soundAfter_startup creatures directory
  have hkeep : ∀ s event, SoundAfter creatures.keys.toFinset s → StepSafe s event →
      SoundAfter creatures.keys.toFinset (step s event) := fun s event h hsafe => h.step hsafe
  refine ⟨(Run.Along.invariant _ hkeep hstart hsafe).agrees, ?_⟩
  exact hsafe.imp_of_invariant _ hkeep (fun s event h hsafe => ⟨h.agrees, hsafe.failureKeeps⟩)
    hstart

/-- Two wolves, and no update file yet. -/
def wolfDen : DevToolsMgr := startup ((AList.singleton 1 69).insert 2 69) ∅

/-- A commit that ends as given. -/
def commitWith (outcome : WriteOutcome) : Event :=
  .commit ⟨"", "/srv/sql/updates/world/3.3.5", true, true, ⟨2026, 1, 5⟩, outcome⟩

/-- A wolf is spawned, another one deleted, the spawn is undone and the rest is committed. -/
def editing : List Event :=
  [.spawnCreature ⟨69, some "Wolf", false, true, true⟩, .deleteCreatureSpawn 1 "Wolf", .undo 1,
    commitWith .written]

/-- The editing session is a run of safe steps. -/
theorem agrees_of_run_editing :
    Run.Along step StepSafe wolfDen editing ∧
      Agrees {1, 2} (editing.foldl step wolfDen) := by
  have hsafe : Run.Along step StepSafe wolfDen editing := by
    refine ⟨fun _ _ _ => ?_, fun _ _ _ => ?_, trivial, fun _ _ _ => ?_, trivial⟩
    · decide
    · decide
    · exact WriteOutcome.noConfusion
  have hmain := (agrees_of_run _ ∅ editing hsafe).1
  exact ⟨hsafe, Finset.pair_comm 2 1 ▸ hmain⟩

/-- **A failed commit leaves a file.** The stream fails after the first statement: the commit
reports an error, and the cut-off file stays in the update directory. -/
theorem commit_not_failureKeeps :
    ¬ Run.Along step (fun s event => Agrees {1, 2} s ∧ FailureKeeps s event) wolfDen
      [.deleteCreatureSpawn 1 "Wolf", commitWith (.cutOff 1)] := by
  rintro ⟨-, ⟨-, hkeeps⟩, -⟩
  have hsame := hkeeps _ rfl
  have hkeys := congrArg (fun s => s.directory.keys.length) hsame
  revert hkeys
  decide +kernel

end IscServer.DevTools
