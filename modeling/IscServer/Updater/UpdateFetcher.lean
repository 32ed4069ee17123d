import Mathlib.Data.List.AList
import Mathlib.Data.List.Lex

/-!
# The Database Updater

At startup `UpdateFetcher::Update` brings a database up to date: it lists the SQL files of the
included directories, compares them with the rows of the table `updates`, and applies, re-hashes
or renames file by file. What remains in the map of applied files at the end are rows whose file
is gone.

* A file name is the list of its characters. `std::string` compares bytes, and on UTF-8 names
  that is the order of the characters, so `PathCompare` is the lexicographic order of the lists.
* `LocaleFileStorage` is the `std::set` of the files found, in the order of `PathCompare`.
* The table `updates` and the map read from it are association lists with distinct keys: the
  name is the primary key. Each SQL statement is modelled by its effect on the table.
* An `unordered_map` is iterated in an order of its own (`MapOrder`); the cache from hashes to
  names keeps the first name met.

The digest of a file is a parameter; log lines, timestamps and timings are left out.
-/

open scoped List

namespace IscServer.Updater

/-- The name of a file. -/
abbrev FileName := List Char

/-- `UpdateFetcher::State`. -/
inductive State
  | released
  | archived
  deriving DecidableEq, Repr

/-- `UpdateFetcher::UpdateMode`. -/
inductive UpdateMode
  | apply
  | rehash
  deriving DecidableEq, Repr

/-- `UpdateFetcher::LocaleFileEntry`: a file found on disk, with its content and the state of the
directory that includes it. -/
structure LocaleFileEntry (Content : Type) where
  filename : FileName
  content : Content
  state : State
  deriving DecidableEq, Repr

variable {Content : Type}

/-- `UpdateFetcher::PathCompare`: files are ordered by their names. -/
def PathCompare (left right : LocaleFileEntry Content) : Prop := left.filename < right.filename

/-! ### The files on disk -/

/-- `UpdateFetcher::LocaleFileStorage`: the files in ascending order, each name once. -/
structure LocaleFileStorage (Content : Type) where
  files : List (LocaleFileEntry Content)
  sorted : files.Pairwise PathCompare

/-- The names of the files in the storage. -/
def LocaleFileStorage.names (storage : LocaleFileStorage Content) : List FileName :=
  storage.files.map LocaleFileEntry.filename

/-- The insertion of `std::set`: at its place in the order, and not at all if its name is there. -/
def insertEntry (entry : LocaleFileEntry Content) :
    List (LocaleFileEntry Content) → List (LocaleFileEntry Content)
  | [] => [entry]
  | file :: files =>
    if entry.filename < file.filename then entry :: file :: files
    else if file.filename < entry.filename then file :: insertEntry entry files
    else file :: files

variable {files : List (LocaleFileEntry Content)}

/-- Insertion adds no other file. -/
theorem mem_of_mem_insertEntry {entry file : LocaleFileEntry Content}
    (h : file ∈ insertEntry entry files) : file = entry ∨ file ∈ files := by
  induction files with
  | nil => exact Or.inl (List.mem_singleton.mp h)
  | cons first files ih =>
    rw [insertEntry] at h
    split_ifs at h
    · exact List.mem_cons.mp h
    · rcases List.mem_cons.mp h with rfl | h
      · exact Or.inr List.mem_cons_self
      · exact (ih h).imp_right (List.mem_cons_of_mem _)
    · exact Or.inr h

/-- Insertion keeps the order. -/
theorem insertEntry_sorted (entry : LocaleFileEntry Content) (h : files.Pairwise PathCompare) :
    (insertEntry entry files).Pairwise PathCompare := by
  induction files with
  | nil => exact List.pairwise_singleton _ _
  | cons first files ih =>
    obtain ⟨hfirst, hfiles⟩ := List.pairwise_cons.mp h
    rw [insertEntry]
    split_ifs with hlt hgt
    · refine List.pairwise_cons.mpr ⟨fun file hfile => ?_, h⟩
      rcases List.mem_cons.mp hfile with rfl | hfile
      · exact hlt
      · have hnext : first.filename < file.filename := hfirst file hfile
        exact List.lt_trans hlt hnext
    · refine List.pairwise_cons.mpr ⟨fun file hfile => ?_, ih hfiles⟩
      rcases mem_of_mem_insertEntry hfile with rfl | hfile
      · exact hgt
      · exact hfirst file hfile
    · exact h

/-- `storage.insert(entry)`. -/
def LocaleFileStorage.insert (storage : LocaleFileStorage Content)
    (entry : LocaleFileEntry Content) : LocaleFileStorage Content :=
  ⟨insertEntry entry storage.files, insertEntry_sorted entry storage.sorted⟩

/-- An entry of a directory. -/
inductive DirectoryEntry (Content : Type)
  | file (filename : FileName) (content : Content)
  | directory (entries : List (DirectoryEntry Content))

/-- `MAX_DEPTH` of `FillFileListRecursively`. -/
def maxDepth : ℕ := 10

/-- The extension of the path is `.sql`. -/
def isSql (filename : FileName) : Bool := ".sql".toList.isSuffixOf filename

mutual

/-- One round of the loop of `FillFileListRecursively`: a directory is entered up to the maximal
depth, a doubled name ends the update with an exception. -/
def fillEntry (state : State) (depth : ℕ) :
    DirectoryEntry Content → LocaleFileStorage Content →
      Except String (LocaleFileStorage Content)
  | .directory entries, storage =>
    if depth < maxDepth then fillFileListRecursively state (depth + 1) entries storage
    else .ok storage
  | .file filename content, storage =>
    if isSql filename then
      if filename ∈ storage.names then .error "Updating failed, see the log for details."
      else .ok (storage.insert ⟨filename, content, state⟩)
    else .ok storage

/-- `UpdateFetcher::FillFileListRecursively`. -/
def fillFileListRecursively (state : State) (depth : ℕ) :
    List (DirectoryEntry Content) → LocaleFileStorage Content →
      Except String (LocaleFileStorage Content)
  | [], storage => .ok storage
  | entry :: entries, storage =>
    (fillEntry state depth entry storage).bind (fillFileListRecursively state depth entries)

end

/-- `UpdateFetcher::GetFileList` over the rows of `updates_include`: a directory that does not
exist is skipped. -/
def getFileList (included : List (State × Option (List (DirectoryEntry Content)))) :
    Except String (LocaleFileStorage Content) :=
  included.foldlM
    (fun storage row => match row.2 with
      | none => .ok storage
      | some entries => fillFileListRecursively row.1 1 entries storage)
    ⟨[], List.Pairwise.nil⟩

/-! ### The table of applied updates -/

/-- `UpdateFetcher::AppliedFileEntry`, under its name as the key. -/
structure AppliedFileEntry where
  hash : String
  state : State
  deriving DecidableEq, Repr

/-- The rows of the table `updates`, and `AppliedFileStorage`, the map read from it. -/
abbrev UpdatesTable := AList (fun _ : FileName => AppliedFileEntry)

/-- `UpdateFetcher::UpdateEntry`: `REPLACE INTO` the table. -/
def updateEntry (name : FileName) (entry : AppliedFileEntry) (table : UpdatesTable) :
    UpdatesTable :=
  table.insert name entry

/-- `UpdateFetcher::RenameEntry`: delete the target, then rename the row if there is one. -/
def renameEntry (source target : FileName) (table : UpdatesTable) : UpdatesTable :=
  match (table.erase target).lookup source with
  | none => table.erase target
  | some row => ((table.erase target).erase source).insert target row

/-- `UpdateFetcher::UpdateState`. -/
def updateState (name : FileName) (state : State) (table : UpdatesTable) : UpdatesTable :=
  match table.lookup name with
  | none => table
  | some row => table.insert name { row with state := state }

/-- `UpdateFetcher::CleanUp`: the rows of all names left in the map are deleted. -/
def cleanUp (storage : UpdatesTable) (table : UpdatesTable) : UpdatesTable :=
  storage.keys.foldl (fun table name => table.erase name) table

/-- The order in which an `unordered_map` of the applied files is iterated. -/
structure MapOrder where
  order : List (Sigma fun _ : FileName => AppliedFileEntry) →
    List (Sigma fun _ : FileName => AppliedFileEntry)
  perm : ∀ entries, order entries ~ entries

/-- `hashToName`: the cache from hashes to names. `insert` keeps the name already there. -/
def fillHashToName (entries : List (Sigma fun _ : FileName => AppliedFileEntry)) :
    AList (fun _ : String => FileName) :=
  entries.foldl
    (fun cache entry => if entry.2.hash ∈ cache then cache else cache.insert entry.2.hash entry.1) ∅

/-! ### The update -/

/-- The arguments of `UpdateFetcher::Update`. -/
structure UpdateConfig where
  redundancyChecks : Bool
  allowRehash : Bool
  archivedRedundancy : Bool
  cleanDeadReferencesMaxCount : ℤ

/-- What the loop of `Update` works on: the database, the map of applied files that are not
accounted for yet, and the counter of imported updates. `executed` are the files run so far and
`renames` the pairs renamed so far, in order. -/
structure Progress where
  table : UpdatesTable
  applied : UpdatesTable
  executed : List FileName
  renames : List (FileName × FileName)
  importedUpdates : ℕ

/-- The end of a round of the loop: apply the file unless it is only re-hashed, and record it. -/
def importUpdate (sha1 : Content → String) (mode : UpdateMode) (file : LocaleFileEntry Content)
    (p : Progress) : Progress :=
  { table := updateEntry file.filename ⟨sha1 file.content, file.state⟩ p.table
    applied := p.applied.erase file.filename
    executed := if mode = .apply then p.executed ++ [file.filename] else p.executed
    renames := p.renames
    importedUpdates := if mode = .apply then p.importedUpdates + 1 else p.importedUpdates }

/-- A round of the loop for a file with an entry in the map. -/
def checkApplied (sha1 : Content → String) (config : UpdateConfig)
    (file : LocaleFileEntry Content) (entry : AppliedFileEntry) (p : Progress) : Progress :=
  if !config.redundancyChecks then { p with applied := p.applied.erase file.filename }
  else if !config.archivedRedundancy && entry.state == .archived && file.state == .archived then
    { p with applied := p.applied.erase file.filename }
  else if config.allowRehash && entry.hash == "" then importUpdate sha1 .rehash file p
  else if entry.hash ≠ sha1 file.content then importUpdate sha1 .apply file p
  else
    { p with
      table :=
        if entry.state ≠ file.state then updateState file.filename file.state p.table else p.table
      applied := p.applied.erase file.filename }

/-- A round of the loop for a file without an entry in the map: a rename is caught by its hash,
unless the original file is still there. -/
def checkNew (sha1 : Content → String) (available : List FileName)
    (hashToName : AList (fun _ : String => FileName)) (file : LocaleFileEntry Content)
    (p : Progress) : Progress :=
  match hashToName.lookup (sha1 file.content) with
  | none => importUpdate sha1 .apply file p
  | some original =>
    if original ∈ available then importUpdate sha1 .apply file p
    else
      { p with
        table := renameEntry original file.filename p.table
        applied := p.applied.erase original
        renames := p.renames ++ [(original, file.filename)] }

/-- One round of the loop of `UpdateFetcher::Update`. -/
def checkUpdate (sha1 : Content → String) (config : UpdateConfig) (available : List FileName)
    (hashToName : AList (fun _ : String => FileName)) (p : Progress)
    (file : LocaleFileEntry Content) : Progress :=
  match p.applied.lookup file.filename with
  | some entry => checkApplied sha1 config file entry p
  | none => checkNew sha1 available hashToName file p

/-- The entries left in the map are deleted, if the clean-up is enabled for that many. -/
def cleanUpOrphans (config : UpdateConfig) (p : Progress) : UpdatesTable :=
  if p.applied.keys = [] then p.table
  else if config.cleanDeadReferencesMaxCount < 0 ∨
      (p.applied.keys.length : ℤ) ≤ config.cleanDeadReferencesMaxCount then
    cleanUp p.applied p.table
  else p.table

/-- `UpdateResult`. -/
structure UpdateResult where
  updated : ℕ
  recent : ℕ
  archived : ℕ
  deriving DecidableEq, Repr

/-- What a run of the updater leaves behind: the table, the files it ran and the names it changed,
in order, and its result. -/
structure Outcome where
  table : UpdatesTable
  executed : List FileName
  renames : List (FileName × FileName)
  result : UpdateResult

/-- The loop of `UpdateFetcher::Update` over the available files. -/
def checkUpdates (sha1 : Content → String) (config : UpdateConfig) (order : MapOrder)
    (available : LocaleFileStorage Content) (updates : UpdatesTable) : Progress :=
  available.files.foldl
    (checkUpdate sha1 config available.names (fillHashToName (order.order updates.entries)))
    ⟨updates, updates, [], [], 0⟩

/-- `UpdateFetcher::Update`. -/
def update (sha1 : Content → String) (config : UpdateConfig) (order : MapOrder)
    (available : LocaleFileStorage Content) (updates : UpdatesTable) : Outcome :=
  let p := checkUpdates sha1 config order available updates
  { table := cleanUpOrphans config p
    executed := p.executed
    renames := p.renames
    result :=
      { updated := p.importedUpdates
        recent := updates.entries.countP fun entry => entry.2.state == .released
        archived := updates.entries.countP fun entry => entry.2.state != .released } }

end IscServer.Updater
