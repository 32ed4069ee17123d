import IscServer.Library.Decimal
import IscServer.Updater.UpdateFetcher

/-!
# The DevTools Manager

`DevToolsMgr` is the backend of the in-game editor: creatures are spawned and deleted in memory,
each change is recorded together with the SQL that repeats it on the world database, and a commit
writes the recorded SQL to an update file that the database updater applies at the next startup.

* The memory of the server is the creature data (spawn ids with their entries) together with the
  set of hidden spawns: `Creature::LoadFromDB` does not load a hidden spawn.
* The SQL of a change is modelled by its statements on the table `creature`; `SqlStatement.run`
  is their effect on the set of spawn ids. Comments and the rows of other tables are left out.
* The update directory maps file names to files. Writing a file can fail before the file is
  opened, or after some statements have been written.
* `uint32` counters wrap around. `ObjectMgr::GenerateCreatureSpawnId` asks the server to stop
  when it runs out of ids, but returns the next one all the same.

`committed` is the history of the successful commits; the server does not store it.
-/

namespace IscServer.DevTools

open Updater (FileName)

/-! ### The SQL of a change -/

/-- A statement on the table `creature`. -/
inductive SqlStatement
  /-- `` DELETE FROM `creature` WHERE `guid` = … `` -/
  | deleteCreature (guid : ℕ)
  /-- `` INSERT INTO `creature` … VALUES (guid, …) `` -/
  | insertCreature (guid : ℕ)
  deriving DecidableEq, Repr

/-- The effect of a statement on the spawn ids in the table. -/
def SqlStatement.run (table : Finset ℕ) : SqlStatement → Finset ℕ
  | .deleteCreature guid => table.erase guid
  | .insertCreature guid => insert guid table

/-- The effect of a script. -/
def runScript (table : Finset ℕ) (script : List SqlStatement) : Finset ℕ :=
  script.foldl SqlStatement.run table

/-- `DevToolsChangeType`. -/
inductive DevToolsChangeType
  | deleteCreature
  | spawnCreature
  deriving DecidableEq, Repr

/-- `DevToolsChange`, without its details. -/
structure DevToolsChange where
  id : ℕ
  type : DevToolsChangeType
  spawnId : ℕ
  label : String
  sql : List SqlStatement
  deriving DecidableEq, Repr

/-- The statements of all changes, in list order. -/
def scriptOf (changes : List DevToolsChange) : List SqlStatement :=
  changes.flatMap DevToolsChange.sql

/-- An update file: its comment line and its statements. -/
structure UpdateFile where
  comment : String
  statements : List SqlStatement
  deriving DecidableEq, Repr

/-! ### The state -/

/-- The manager, with the parts of the server and of the disk it works on. -/
structure DevToolsMgr where
  /-- `_changes` -/
  changes : List DevToolsChange
  /-- `_nextChangeId`, a `uint32` -/
  nextChangeId : ℕ
  /-- `_hiddenCreatureSpawns` -/
  hiddenCreatureSpawns : Finset ℕ
  /-- `ObjectMgr::_creatureDataStore`: the entry of each spawn id -/
  creatureData : AList (fun _ : ℕ => ℕ)
  /-- `ObjectMgr::_creatureSpawnId`, a `uint32` -/
  creatureSpawnId : ℕ
  /-- the update directory -/
  directory : AList (fun _ : FileName => UpdateFile)
  /-- the files of the successful commits, oldest first -/
  committed : List (FileName × UpdateFile)

/-- `ToSingleLine`: line breaks become spaces. -/
def toSingleLine (text : String) : String :=
  String.ofList (text.toList.map fun c => if c = '\r' ∨ c = '\n' then ' ' else c)

/-- `_changes.emplace_back()` with the next change id. -/
def recordChange (type : DevToolsChangeType) (spawnId : ℕ) (label : String)
    (sql : List SqlStatement) (s : DevToolsMgr) : DevToolsMgr :=
  { s with
    changes := s.changes ++ [⟨s.nextChangeId, type, spawnId, label, sql⟩]
    nextChangeId := (s.nextChangeId + 1) % UInt32.size }

/-! ### The operations -/

/-- `DevToolsMgr::Undo`: an undone spawn leaves the creature data, an undone deletion is no longer
hidden. -/
def undo (changeId : ℕ) (s : DevToolsMgr) : Except String Unit × DevToolsMgr :=
  match s.changes.find? fun change => change.id = changeId with
  | none =>
    (.error ("Change " ++ toString changeId ++ " does not exist or is already committed."), s)
  | some change =>
    let changes := s.changes.eraseP fun change => change.id = changeId
    match change.type with
    | .spawnCreature =>
      (.ok (),
        { s with changes := changes, creatureData := s.creatureData.erase change.spawnId })
    | .deleteCreature =>
      (.ok (),
        { s with
          changes := changes
          hiddenCreatureSpawns := s.hiddenCreatureSpawns.erase change.spawnId })

/-- `sObjectMgr->GetCreatureData`, for a creature that has a spawn id at all. -/
def dataOf (spawnId : ℕ) (s : DevToolsMgr) : Option ℕ :=
  if spawnId = 0 then none else s.creatureData.lookup spawnId

/-- The pending spawn of a spawn id. -/
def pendingSpawn (spawnId : ℕ) (s : DevToolsMgr) : Option DevToolsChange :=
  s.changes.find? fun change => change.type = .spawnCreature ∧ change.spawnId = spawnId

/-- `DevToolsMgr::DeleteCreatureSpawn`: a spawn that is not committed yet is cancelled. -/
def deleteCreatureSpawn (spawnId : ℕ) (name : String) (s : DevToolsMgr) :
    Except String String × DevToolsMgr :=
  match dataOf spawnId s with
  | none => (.error "This creature is not a spawn of the world database.", s)
  | some entry =>
    if spawnId ∈ s.hiddenCreatureSpawns then
      (.error ("Spawn " ++ toString spawnId ++ " is already deleted."), s)
    else match pendingSpawn spawnId s with
      | some pending =>
        ((undo pending.id s).1.map fun _ => "Cancelled: " ++ pending.label,
          (undo pending.id s).2)
      | none =>
        let label := "Delete " ++ toSingleLine name ++ " (entry " ++ toString entry ++
          ", spawn " ++ toString spawnId ++ ")"
        let recorded :=
          recordChange .deleteCreature spawnId label [.deleteCreature spawnId] s
        (.ok label,
          { recorded with
            hiddenCreatureSpawns := insert spawnId s.hiddenCreatureSpawns })

/-- What `SpawnCreature` meets: the entry and the name of its template, if there is one, and
whether the player is on a transport, the temporary creature is created, and the creature can be
loaded on the map. -/
structure SpawnCall where
  entry : ℕ
  template : Option String
  onTransport : Bool
  created : Bool
  loaded : Bool

/-- `DevToolsMgr::SpawnCreature`. -/
def spawnCreature (call : SpawnCall) (s : DevToolsMgr) : Except String String × DevToolsMgr :=
  match call.template with
  | none => (.error ("Creature entry " ++ toString call.entry ++ " does not exist."), s)
  | some name =>
    if call.onTransport then (.error "Spawning on a transport is not supported.", s)
    else if !call.created then
      (.error ("Could not create creature entry " ++ toString call.entry ++ "."), s)
    else
      let spawnId := s.creatureSpawnId
      let s₁ : DevToolsMgr :=
        { s with
          creatureSpawnId := (spawnId + 1) % UInt32.size
          creatureData := s.creatureData.insert spawnId call.entry }
      -- `Creature::LoadFromDB` refuses a hidden spawn
      if spawnId ∈ s.hiddenCreatureSpawns ∨ call.loaded = false then
        (.error ("Could not spawn creature entry " ++ toString call.entry ++ "."),
          { s₁ with creatureData := s₁.creatureData.erase spawnId })
      else
        let label := "Spawn " ++ toSingleLine name ++ " (entry " ++ toString call.entry ++
          ", spawn " ++ toString spawnId ++ ")"
        (.ok label,
          recordChange .spawnCreature spawnId label
            [.deleteCreature spawnId, .insertCreature spawnId] s₁)

/-! ### Commits -/

/-- The local date. -/
structure Date where
  year : ℕ
  month : ℕ
  day : ℕ
  deriving DecidableEq, Repr

/-- The first part of the names of the day: `YYYY_MM_DD_`. -/
def dayPrefix (date : Date) : FileName :=
  Decimal.padded 4 date.year ++ '_' :: Decimal.padded 2 date.month ++
    '_' :: Decimal.padded 2 date.day ++ ['_']

/-- `Trinity::StringTo<uint32>`: digits only, at least one, without overflow. -/
def stringToUInt32 (text : List Char) : Option ℕ :=
  if text ≠ [] ∧ Decimal.IsWord text ∧ Decimal.value text < UInt32.size then some (Decimal.value text)
  else none

/-- The index in a name of the day: what stands between the day and the next underscore. -/
def indexOf (day name : FileName) : Option ℕ :=
  if day.isPrefixOf name then
    stringToUInt32 ((name.drop day.length).takeWhile fun c => c ≠ '_')
  else none

/-- The loop of `Commit` over the names in the directory: one more than every index, in
`uint32`. -/
def nextIndex (day : FileName) (names : List FileName) : ℕ :=
  names.foldl
    (fun next name => match indexOf day name with
      | some index => max next ((index + 1) % UInt32.size)
      | none => next) 0

/-- The last part of the names of the day. -/
def worldSuffix : FileName := "_world.sql".toList

/-- The name of the day with an index: `YYYY_MM_DD_NN_world.sql`. -/
def fileNameOf (day : FileName) (index : ℕ) : FileName :=
  day ++ (Decimal.padded 2 index ++ worldSuffix)

/-- How the writing of the file ends. -/
inductive WriteOutcome
  /-- the file could not be opened -/
  | notOpened
  /-- the stream failed after the given number of statements -/
  | cutOff (statements : ℕ)
  /-- the file was written and closed -/
  | written
  deriving DecidableEq, Repr

/-- What `Commit` meets: the description, the path of the update directory and whether it is one,
whether it can be listed (an error of the iterator ends the loop at once), the date and the outcome
of the writing. -/
structure CommitCall where
  description : String
  directory : String
  isDirectory : Bool
  readable : Bool
  date : Date
  outcome : WriteOutcome

/-- The names the loop of `Commit` meets. -/
def listedNames (call : CommitCall) (s : DevToolsMgr) : List FileName :=
  if call.readable then s.directory.keys else []

/-- The name of the next update file of the day. -/
def nextFileName (call : CommitCall) (s : DevToolsMgr) : FileName :=
  fileNameOf (dayPrefix call.date) (nextIndex (dayPrefix call.date) (listedNames call s))

/-- The update file of the pending changes. -/
def updateFile (call : CommitCall) (s : DevToolsMgr) : UpdateFile :=
  { comment := "-- " ++ (if call.description = "" then "ISC DevTools changes"
      else toSingleLine call.description)
    statements := scriptOf s.changes }

/-- `DevToolsMgr::Commit`. -/
def commit (call : CommitCall) (s : DevToolsMgr) : Except String FileName × DevToolsMgr :=
  if s.changes = [] then (.error "There is no change to commit.", s)
  else if !call.isDirectory then
    (.error ("Directory " ++ call.directory ++
      " not found, check SourceDirectory in worldserver.conf."), s)
  else
    let fileName := nextFileName call s
    let file := updateFile call s
    let failure := "Could not write " ++ call.directory ++ "/" ++ String.ofList fileName ++ "."
    match call.outcome with
    | .notOpened => (.error failure, s)
    | .cutOff count =>
      (.error failure,
        { s with
          directory := s.directory.insert fileName
            { file with statements := file.statements.take count } })
    | .written =>
      (.ok fileName,
        { s with
          directory := s.directory.insert fileName file
          committed := s.committed ++ [(fileName, file)]
          changes := [] })

/-! ### Runs -/

/-- The manager at startup: the creature data loaded from the table `creature`, and the next spawn
id above the highest one (`ObjectMgr::SetHighestGuids`). -/
def startup (creatures : AList (fun _ : ℕ => ℕ))
    (directory : AList (fun _ : FileName => UpdateFile)) : DevToolsMgr :=
  { changes := []
    nextChangeId := 1
    hiddenCreatureSpawns := ∅
    creatureData := creatures
    creatureSpawnId := (creatures.keys.foldl max 0 + 1) % UInt32.size
    directory := directory
    committed := [] }

/-- A request of the editor. -/
inductive Event
  | spawnCreature (call : SpawnCall)
  | deleteCreatureSpawn (spawnId : ℕ) (name : String)
  | undo (changeId : ℕ)
  | commit (call : CommitCall)

/-- The state after a request. -/
def step (s : DevToolsMgr) : Event → DevToolsMgr
  | .spawnCreature call => (spawnCreature call s).2
  | .deleteCreatureSpawn spawnId name => (deleteCreatureSpawn spawnId name s).2
  | .undo changeId => (undo changeId s).2
  | .commit call => (commit call s).2

/-! ### What touches the disk -/

/-- Undoing a change does not touch the disk. -/
theorem undo_disk (changeId : ℕ) (s : DevToolsMgr) :
    (undo changeId s).2.directory = s.directory ∧ (undo changeId s).2.committed = s.committed := by
  rw [undo]
  cases s.changes.find? _ with
  | none => exact ⟨rfl, rfl⟩
  | some change =>
    simp only
    cases change.type <;> exact ⟨rfl, rfl⟩

/-- Deleting a spawn does not touch the disk. -/
theorem deleteCreatureSpawn_disk (spawnId : ℕ) (name : String) (s : DevToolsMgr) :
    (deleteCreatureSpawn spawnId name s).2.directory = s.directory ∧
      (deleteCreatureSpawn spawnId name s).2.committed = s.committed := by
  rw [deleteCreatureSpawn]
  cases dataOf spawnId s with
  | none => exact ⟨rfl, rfl⟩
  | some entry =>
    split_ifs
    · exact ⟨rfl, rfl⟩
    · cases pendingSpawn spawnId s with
      | none => exact ⟨rfl, rfl⟩
      | some pending => exact undo_disk pending.id s

/-- Spawning a creature does not touch the disk. -/
theorem spawnCreature_disk (call : SpawnCall) (s : DevToolsMgr) :
    (spawnCreature call s).2.directory = s.directory ∧
      (spawnCreature call s).2.committed = s.committed := by
  rw [spawnCreature]
  cases call.template with
  | none => exact ⟨rfl, rfl⟩
  | some name =>
    simp only
    split_ifs <;> exact ⟨rfl, rfl⟩

/-- What a commit does to the disk: nothing, or a file that was cut off, or a committed file. -/
theorem commit_disk (call : CommitCall) (s : DevToolsMgr) :
    ((commit call s).2.directory = s.directory ∧ (commit call s).2.committed = s.committed) ∨
      (∃ file, (commit call s).2.directory = s.directory.insert (nextFileName call s) file ∧
        (commit call s).2.committed = s.committed) ∨
      ((commit call s).1 = .ok (nextFileName call s) ∧
        (commit call s).2.directory = s.directory.insert (nextFileName call s) (updateFile call s) ∧
        (commit call s).2.committed =
          s.committed ++ [(nextFileName call s, updateFile call s)]) := by
  rw [commit]
  split_ifs
  · exact Or.inl ⟨rfl, rfl⟩
  · exact Or.inl ⟨rfl, rfl⟩
  · cases call.outcome with
    | notOpened => exact Or.inl ⟨rfl, rfl⟩
    | cutOff count => exact Or.inr (Or.inl ⟨_, rfl, rfl⟩)
    | written => exact Or.inr (Or.inr ⟨rfl, rfl, rfl⟩)

end IscServer.DevTools
