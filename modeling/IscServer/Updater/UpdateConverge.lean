import Mathlib
import IscServer.Updater.UpdateFetcher

/-!
# What a Run of the Updater Leaves Behind

With all redundancy checks on, a run of `UpdateFetcher::Update` should record every available
file under its name with its hash, execute each unknown file once and in ascending order, and
leave nothing for a second run.

The loop visits the files in their order, so its state after the files `done` is described by
`Progressed`: the files still to come are untouched in the map and in the table, the rows of
removed files are there until a rename takes them away, and the executed files are the ones
`executes` selects. One round keeps this description (`Progressed.checkUpdate`).

A rename moves the one row of the removed file. When two new files have the content of the same
removed file, the second rename finds no row: that file is neither executed nor recorded, and the
next run executes it. `RenamedApart` says that this does not happen.

## Main results

* `update_converges` — a run records, executes and settles what it should.
* `update_not_converges` — an empty hash is only re-hashed; two copies of a removed file lose one.
-/

open scoped List

namespace IscServer.Updater

open List

variable {Content : Type}

/-! ### Lookups after each statement -/

/-- A replaced row is found under its name, every other row is as before. -/
theorem lookup_updateEntry (name key : FileName) (entry : AppliedFileEntry) (table : UpdatesTable) :
    (updateEntry name entry table).lookup key =
      if key = name then some entry else table.lookup key := by
  split_ifs with h
  · rw [h]
    exact AList.lookup_insert table
  · exact AList.lookup_insert_ne h

/-- After a rename the row of the source, if there is one, is found under the target. -/
theorem lookup_renameEntry {source target : FileName} (hne : source ≠ target) (key : FileName)
    (table : UpdatesTable) :
    (renameEntry source target table).lookup key =
      if key = target then table.lookup source
      else if key = source then none else table.lookup key := by
  have hsource : (table.erase target).lookup source = table.lookup source :=
    AList.lookup_erase_ne hne
  rw [renameEntry, hsource]
  cases hrow : table.lookup source with
  | none =>
    split_ifs with htarget hkey
    · rw [htarget]
      exact AList.lookup_erase _ _
    · rw [hkey, hsource, hrow]
    · exact AList.lookup_erase_ne htarget
  | some row =>
    split_ifs with htarget hkey
    · rw [htarget]
      exact AList.lookup_insert _
    · rw [AList.lookup_insert_ne htarget, hkey]
      exact AList.lookup_erase _ _
    · rw [AList.lookup_insert_ne htarget, AList.lookup_erase_ne hkey, AList.lookup_erase_ne htarget]

/-- A change of the state keeps the hash of every row. -/
theorem hash_updateState (name key : FileName) (state : State) (table : UpdatesTable) :
    ((updateState name state table).lookup key).map AppliedFileEntry.hash =
      (table.lookup key).map AppliedFileEntry.hash := by
  rw [updateState]
  cases hrow : table.lookup name with
  | none => rfl
  | some row =>
    by_cases h : key = name
    · rw [h, AList.lookup_insert, hrow]
      rfl
    · rw [AList.lookup_insert_ne h]

/-- A change of the state concerns one row only. -/
theorem lookup_updateState_of_ne {name key : FileName} (h : key ≠ name) (state : State)
    (table : UpdatesTable) : (updateState name state table).lookup key = table.lookup key := by
  rw [updateState]
  cases table.lookup name with
  | none => rfl
  | some row => exact AList.lookup_insert_ne h

/-- The clean-up keeps every row whose name is not left in the map. -/
theorem lookup_cleanUp {storage table : UpdatesTable} {key : FileName} (h : key ∉ storage) :
    (cleanUp storage table).lookup key = table.lookup key := by
  have herase : ∀ (names : List FileName) (table : UpdatesTable), key ∉ names →
      (names.foldl (fun table name => table.erase name) table).lookup key = table.lookup key := by
    intro names
    induction names with
    | nil => exact fun _ _ => rfl
    | cons name names ih =>
      intro table hkey
      rw [foldl_cons, ih _ (fun hmem => hkey (mem_cons_of_mem _ hmem))]
      exact AList.lookup_erase_ne fun heq => hkey (heq ▸ mem_cons_self)
  exact herase storage.keys table h

variable {name : FileName}

/-- The cache names an entry with the hash. -/
theorem exists_of_lookup_fillHashToName
    {entries : List (Sigma fun _ : FileName => AppliedFileEntry)} {hash : String}
    (h : (fillHashToName entries).lookup hash = some name) :
    ∃ entry ∈ entries, entry.2.hash = hash ∧ entry.1 = name := by
  induction entries using List.reverseRecOn with
  | nil => exact absurd h (Option.some_ne_none _).symm
  | append_singleton entries last ih =>
    have hstep : fillHashToName (entries ++ [last]) =
        if last.2.hash ∈ fillHashToName entries then fillHashToName entries
        else (fillHashToName entries).insert last.2.hash last.1 := by
      rw [fillHashToName, foldl_append]
      rfl
    have hkeep (hname : (fillHashToName entries).lookup hash = some name) :
        ∃ entry ∈ entries ++ [last], entry.2.hash = hash ∧ entry.1 = name := by
      obtain ⟨entry, hentry, hfound⟩ := ih hname
      exact ⟨entry, mem_append_left _ hentry, hfound⟩
    rw [hstep] at h
    split_ifs at h with hmem
    · exact hkeep h
    · by_cases hhash : hash = last.2.hash
      · rw [hhash, AList.lookup_insert] at h
        exact ⟨last, mem_append_right _ mem_cons_self, hhash.symm, Option.some.inj h⟩
      · rw [AList.lookup_insert_ne hhash] at h
        exact hkeep h

/-! ### What a run should do -/

/-- The checks of the updater are all on; re-hashing and the clean-up are as configured. -/
def fullChecks (allowRehash : Bool) (cleanDeadReferencesMaxCount : ℤ) : UpdateConfig :=
  ⟨true, allowRehash, true, cleanDeadReferencesMaxCount⟩

/-- With all checks on, a file with an entry in the map is re-hashed, executed again or left. -/
theorem checkApplied_fullChecks (sha1 : Content → String) (allowRehash : Bool) (maxCount : ℤ)
    (file : LocaleFileEntry Content) (entry : AppliedFileEntry) (p : Progress) :
    checkApplied sha1 (fullChecks allowRehash maxCount) file entry p =
      if (allowRehash && entry.hash == "") = true then importUpdate sha1 .rehash file p
      else if entry.hash ≠ sha1 file.content then importUpdate sha1 .apply file p
      else
        { p with
          table := if entry.state ≠ file.state then updateState file.filename file.state p.table
            else p.table
          applied := p.applied.erase file.filename } :=
  rfl

section Run

variable (sha1 : Content → String) (allowRehash : Bool) (maxCount : ℤ) (order : MapOrder)
  (available : LocaleFileStorage Content) (updates : UpdatesTable)

/-- The content of the file was recorded before: under its own name, or under the name of a file
that no longer exists. -/
def Recorded (file : LocaleFileEntry Content) : Prop :=
  ∃ name row, updates.lookup name = some row ∧ row.hash = sha1 file.content ∧
    (name = file.filename ∨ name ∉ available.names)

/-- The table has an entry for every available file with exactly its name and its hash. -/
def Entered (table : UpdatesTable) : Prop :=
  ∀ file ∈ available.files, ∃ row, table.lookup file.filename = some row ∧
    row.hash = sha1 file.content

/-- A run over the table executes and renames nothing, in whatever order the maps are read. -/
def Settled (table : UpdatesTable) : Prop :=
  ∀ order, (update sha1 (fullChecks allowRehash maxCount) order available table).executed = [] ∧
    (update sha1 (fullChecks allowRehash maxCount) order available table).renames = []

/-- The cache from hashes to names that the run builds. -/
def hashToName : AList (fun _ : String => FileName) :=
  fillHashToName (order.order updates.entries)

/-- No two new files have the content of one removed file in the cache. -/
def RenamedApart : Prop :=
  ∀ file ∈ available.files, ∀ other ∈ available.files, file.filename ≠ other.filename →
    updates.lookup file.filename = none → updates.lookup other.filename = none →
    sha1 file.content = sha1 other.content →
    ∀ original, (hashToName order updates).lookup (sha1 file.content) = some original →
      original ∈ available.names

local instance : LawfulBEq FileName := inferInstance

/-- The file is executed by the run. -/
def executes (file : LocaleFileEntry Content) : Bool :=
  match updates.lookup file.filename with
  | some row => !(allowRehash && row.hash == "") && row.hash != sha1 file.content
  | none =>
    match (hashToName order updates).lookup (sha1 file.content) with
    | none => true
    | some original => decide (original ∈ available.names)

/-- The file takes over the row of the removed file `original`. -/
def TakesOver (file : LocaleFileEntry Content) (original : FileName) : Prop :=
  updates.lookup file.filename = none ∧
    (hashToName order updates).lookup (sha1 file.content) = some original ∧
    original ∉ available.names

/-- The state of the loop after the files `done`. -/
structure Progressed (done : List (LocaleFileEntry Content)) (p : Progress) : Prop where
  /-- The files still to come are untouched in the map and in the table. -/
  toCome : ∀ file ∈ available.files, file ∉ done →
    p.applied.lookup file.filename = updates.lookup file.filename ∧
      p.table.lookup file.filename = updates.lookup file.filename
  /-- What is left in the map is none of the files done. -/
  left : ∀ file ∈ done, file.filename ∉ p.applied
  /-- The row of a removed file is there until a file takes it over. -/
  removed : ∀ name row, name ∉ available.names → updates.lookup name = some row →
    (∀ file ∈ done, ¬ TakesOver sha1 order available updates file name) →
    p.table.lookup name = some row
  /-- The files done are entered. -/
  entered : RenamedApart sha1 order available updates → ∀ file ∈ done,
    ∃ row, p.table.lookup file.filename = some row ∧ row.hash = sha1 file.content
  /-- The executed files are those to execute, in order. -/
  executed : p.executed =
    (done.filter (executes sha1 allowRehash order available updates)).map
      LocaleFileEntry.filename
  /-- A rename is made for a file that takes over a row. -/
  renames : (∀ file ∈ done, ∀ name, ¬ TakesOver sha1 order available updates file name) →
    p.renames = []

/-- What a round of the loop does with a file that is untouched in the map: it is imported, or it
matches its row, or it takes over the row of a removed file. -/
inductive Round (p : Progress) (file : LocaleFileEntry Content) : Progress → Prop
  | imported (mode : UpdateMode)
      (hexecutes : executes sha1 allowRehash order available updates file =
        decide (mode = .apply)) :
      Round p file (importUpdate sha1 mode file p)
  | matched (row : AppliedFileEntry) (table : UpdatesTable)
      (hrow : updates.lookup file.filename = some row) (hhash : row.hash = sha1 file.content)
      (hexecutes : executes sha1 allowRehash order available updates file = false)
      (htable : table = p.table ∨ table = updateState file.filename file.state p.table) :
      Round p file { p with table := table, applied := p.applied.erase file.filename }
  | takenOver (original : FileName)
      (htakes : TakesOver sha1 order available updates file original)
      (hexecutes : executes sha1 allowRehash order available updates file = false) :
      Round p file
        { p with
          table := renameEntry original file.filename p.table
          applied := p.applied.erase original
          renames := p.renames ++ [(original, file.filename)] }

variable {sha1 allowRehash maxCount order available updates}

/-- The names of a storage are distinct. -/
theorem LocaleFileStorage.names_nodup : available.names.Nodup := by
  have hsorted : available.names.Pairwise (· < ·) := List.pairwise_map.mpr available.sorted
  refine List.Pairwise.imp ?_ hsorted
  rintro name other hlt rfl
  exact List.lt_irrefl _ hlt

/-- Two files of a storage with one name are the same file. -/
theorem LocaleFileStorage.eq_of_filename_eq {file other : LocaleFileEntry Content}
    (hfile : file ∈ available.files) (hother : other ∈ available.files)
    (h : file.filename = other.filename) : file = other :=
  inj_on_of_nodup_map available.names_nodup hfile hother h

/-- The cache names a row with the hash. -/
theorem exists_of_lookup_hashToName {hash : String}
    (h : (hashToName order updates).lookup hash = some name) :
    ∃ row, updates.lookup name = some row ∧ row.hash = hash := by
  obtain ⟨entry, hentry, hhash, rfl⟩ := exists_of_lookup_fillHashToName h
  have hmem : entry ∈ updates.entries := (order.perm _).mem_iff.mp hentry
  exact ⟨entry.2, AList.mem_lookup_iff.mpr hmem, hhash⟩

/-- **A round of the loop**, for a file that is untouched in the map. -/
theorem checkUpdate_round {p : Progress} {file : LocaleFileEntry Content}
    (h : p.applied.lookup file.filename = updates.lookup file.filename) :
    Round sha1 allowRehash order available updates p file
      (checkUpdate sha1 (fullChecks allowRehash maxCount) available.names
        (hashToName order updates) p file) := by
  rw [checkUpdate, h]
  cases hrow : updates.lookup file.filename with
  | some row =>
    simp only [checkApplied_fullChecks]
    by_cases hrehash : (allowRehash && row.hash == "") = true
    · rw [if_pos hrehash]
      refine Round.imported .rehash ?_
      simp [executes, hrow, hrehash]
    · rw [if_neg hrehash]
      by_cases hhash : row.hash = sha1 file.content
      · rw [if_neg (not_not.mpr hhash)]
        refine Round.matched row _ hrow hhash ?_ ?_
        · simp [executes, hrow, hhash]
        · split_ifs
          · exact Or.inr rfl
          · exact Or.inl rfl
      · rw [if_pos hhash]
        refine Round.imported .apply ?_
        simp [executes, hrow, hrehash, hhash]
  | none =>
    simp only [checkNew]
    cases hcache : (hashToName order updates).lookup (sha1 file.content) with
    | none =>
      refine Round.imported .apply ?_
      simp [executes, hrow, hcache]
    | some original =>
      simp only
      split_ifs with hthere
      · refine Round.imported .apply ?_
        simp [executes, hrow, hcache, hthere]
      · refine Round.takenOver original ⟨hrow, hcache, hthere⟩ ?_
        simp [executes, hrow, hcache, hthere]

/-! ### One round keeps the description -/

/-- A file that is still to come has another name than every file done. -/
theorem filename_ne_of_toCome {done : List (LocaleFileEntry Content)}
    (hdone : done ⊆ available.files) {file : LocaleFileEntry Content}
    (hfile : file ∈ available.files) (hnew : file ∉ done) {other : LocaleFileEntry Content}
    (hother : other ∈ done) : other.filename ≠ file.filename := by
  intro heq
  exact hnew (available.eq_of_filename_eq (hdone hother) hfile heq ▸ hother)

/-- A file that comes later has another name than the file of the round. -/
theorem filename_ne_of_later {done : List (LocaleFileEntry Content)}
    {file other : LocaleFileEntry Content} (hother : other ∈ available.files)
    (hfile : file ∈ available.files) (hlater : other ∉ done ++ [file]) :
    other.filename ≠ file.filename := by
  intro heq
  refine hlater (mem_append_right _ ?_)
  rw [available.eq_of_filename_eq hother hfile heq]
  exact mem_cons_self

/-- A removed name is the name of no available file. -/
theorem ne_filename_of_removed (hname : name ∉ available.names)
    {file : LocaleFileEntry Content} (hfile : file ∈ available.files) : name ≠ file.filename := by
  rintro rfl
  exact hname (mem_map_of_mem hfile)

variable {done : List (LocaleFileEntry Content)} {p : Progress}
  {file : LocaleFileEntry Content}

/-- The files to execute among one more file. -/
theorem filter_executes_concat (b : Bool)
    (h : executes sha1 allowRehash order available updates file = b) :
    ((done ++ [file]).filter (executes sha1 allowRehash order available updates)).map
        LocaleFileEntry.filename =
      (done.filter (executes sha1 allowRehash order available updates)).map
          LocaleFileEntry.filename ++
        if b = true then [file.filename] else [] := by
  subst h
  rw [filter_append, map_append]
  by_cases hexecutes : executes sha1 allowRehash order available updates file = true
  · rw [filter_cons_of_pos hexecutes, if_pos hexecutes]
    rfl
  · rw [filter_cons_of_neg hexecutes, if_neg hexecutes]
    rfl

section

variable (h : Progressed sha1 allowRehash order available updates done p)
include h

section

variable (hdone : done ⊆ available.files)
include hdone

section

variable (hfile : file ∈ available.files) (hnew : file ∉ done)
include hfile hnew

/-- **A file is entered**: its row and the row that leaves the map are the only ones that change. -/
theorem Progressed.enter {gone : FileName} {p' : Progress}
    (happlied : p'.applied = p.applied.erase gone)
    (hgone : file.filename ∉ p.applied.erase gone)
    (hlater : ∀ other ∈ available.files, other.filename ≠ file.filename → gone ≠ other.filename)
    (hfree : ∀ name ∉ available.names, (∀ other ∈ done ++ [file],
      ¬ TakesOver sha1 order available updates other name) → name ≠ gone)
    (hother : ∀ key, key ≠ file.filename → key ≠ gone → p'.table.lookup key = p.table.lookup key)
    (hentered : RenamedApart sha1 order available updates →
      ∃ row, p'.table.lookup file.filename = some row ∧ row.hash = sha1 file.content)
    (hexecuted : p'.executed = p.executed ++
      if executes sha1 allowRehash order available updates file = true then [file.filename] else [])
    (hrenames : (∀ other ∈ done ++ [file], ∀ name,
      ¬ TakesOver sha1 order available updates other name) → p'.renames = p.renames) :
    Progressed sha1 allowRehash order available updates (done ++ [file]) p' where
  toCome other hmem hnot := by
    have hne := filename_ne_of_later hmem hfile hnot
    have hold := h.toCome other hmem fun hmem => hnot (mem_append_left _ hmem)
    have hkeep := (hlater other hmem hne).symm
    rw [happlied, AList.lookup_erase_ne hkeep, hother _ hne hkeep]
    exact hold
  left other hmem hleft := by
    rw [happlied] at hleft
    rcases mem_append.mp hmem with hmem | hmem
    · exact h.left other hmem (AList.mem_erase.mp hleft).2
    · exact hgone (mem_singleton.mp hmem ▸ hleft)
  removed name row hname hrow htakes := by
    rw [hother _ (ne_filename_of_removed hname hfile) (hfree name hname htakes)]
    exact h.removed name row hname hrow fun other hmem => htakes other (mem_append_left _ hmem)
  entered hapart other hmem := by
    rcases mem_append.mp hmem with hmem | hmem
    · obtain ⟨row, hrow, hhash⟩ := h.entered hapart other hmem
      have hne := filename_ne_of_toCome hdone hfile hnew hmem
      exact ⟨row, (hother _ hne (hlater other (hdone hmem) hne).symm).trans hrow, hhash⟩
    · rw [mem_singleton.mp hmem]
      exact hentered hapart
  executed := by rw [filter_executes_concat _ rfl, ← h.executed, hexecuted]
  renames htakes := (hrenames htakes).trans
    (h.renames fun other hmem => htakes other (mem_append_left _ hmem))

/-- An imported file is entered, and nothing else changes. -/
theorem Progressed.imported
    {mode : UpdateMode}
    (hexecutes : executes sha1 allowRehash order available updates file = decide (mode = .apply)) :
    Progressed sha1 allowRehash order available updates (done ++ [file])
      (importUpdate sha1 mode file p) := by
  refine h.enter hdone hfile hnew rfl (fun hmem => (AList.mem_erase.mp hmem).1 rfl)
    (fun _ _ hne => hne.symm) (fun _ hname _ => ne_filename_of_removed hname hfile)
    (fun key hkey _ => ?_) (fun _ => ?_) ?_ fun _ => rfl
  · exact (lookup_updateEntry _ _ _ _).trans (if_neg hkey)
  · exact ⟨_, (lookup_updateEntry _ _ _ _).trans (if_pos rfl), rfl⟩
  · rw [hexecutes, importUpdate]
    cases mode with
    | apply => rfl
    | rehash => exact (append_nil _).symm

/-- A file that matches its row is entered already. -/
theorem Progressed.matched {row : AppliedFileEntry} {table : UpdatesTable}
    (hrow : updates.lookup file.filename = some row) (hhash : row.hash = sha1 file.content)
    (hexecutes : executes sha1 allowRehash order available updates file = false)
    (htable : table = p.table ∨ table = updateState file.filename file.state p.table) :
    Progressed sha1 allowRehash order available updates (done ++ [file])
      { p with table := table, applied := p.applied.erase file.filename } := by
  refine h.enter hdone hfile hnew rfl (fun hmem => (AList.mem_erase.mp hmem).1 rfl)
    (fun _ _ hne => hne.symm) (fun _ hname _ => ne_filename_of_removed hname hfile)
    (fun key hkey _ => ?_) (fun _ => ?_) ?_ fun _ => rfl
  · rcases htable with rfl | rfl
    · rfl
    · exact lookup_updateState_of_ne hkey _ _
  · have hhashes : (table.lookup file.filename).map AppliedFileEntry.hash =
        (p.table.lookup file.filename).map AppliedFileEntry.hash := by
      rcases htable with rfl | rfl
      · rfl
      · exact hash_updateState _ _ _ _
    rw [(h.toCome file hfile hnew).2, hrow] at hhashes
    obtain ⟨found, hfound, heq⟩ := Option.map_eq_some_iff.mp hhashes
    exact ⟨found, hfound, heq.trans hhash⟩
  · rw [hexecutes]
    exact (append_nil _).symm

/-- A file that takes over a row is entered, if no file before it took over the same row. -/
theorem Progressed.takenOver
    {original : FileName} (htakes : TakesOver sha1 order available updates file original)
    (hexecutes : executes sha1 allowRehash order available updates file = false) :
    Progressed sha1 allowRehash order available updates (done ++ [file])
      { p with
        table := renameEntry original file.filename p.table
        applied := p.applied.erase original
        renames := p.renames ++ [(original, file.filename)] } := by
  have hlast : file ∈ done ++ [file] := mem_append_right _ mem_cons_self
  obtain ⟨hnone, hcache, hgone⟩ := id htakes
  have hsource := ne_filename_of_removed hgone hfile
  refine h.enter hdone hfile hnew rfl (fun hmem => ?_)
    (fun other hmem _ => ne_filename_of_removed hgone hmem)
    (fun name _ hfree heq => hfree file hlast (heq ▸ htakes)) (fun key hkey hkey' => ?_)
    (fun hapart => ?_) ?_ fun hfree => absurd htakes (hfree file hlast original)
  · have happlied := (h.toCome file hfile hnew).1.trans hnone
    exact AList.lookup_eq_none.mp happlied (AList.mem_erase.mp hmem).2
  · exact (lookup_renameEntry hsource ..).trans ((if_neg hkey).trans (if_neg hkey'))
  · obtain ⟨row, hrow, hhash⟩ := exists_of_lookup_hashToName hcache
    refine ⟨row, ?_, hhash⟩
    dsimp only
    rw [lookup_renameEntry hsource, if_pos rfl]
    refine h.removed original row hgone hrow fun earlier hearlier htook => ?_
    -- the row was taken over by an earlier file: both have its hash
    obtain ⟨row', hrow', hhash'⟩ := exists_of_lookup_hashToName htook.2.1
    obtain rfl : row = row' := Option.some.inj (hrow.symm.trans hrow')
    exact hgone (hapart file hfile earlier (hdone hearlier)
      (filename_ne_of_toCome hdone hfile hnew hearlier).symm hnone htook.1
      (hhash.symm.trans hhash') original hcache)
  · rw [hexecutes]
    exact (append_nil _).symm

/-- **A round keeps the description.** -/
theorem Progressed.checkUpdate :
    Progressed sha1 allowRehash order available updates (done ++ [file])
      (checkUpdate sha1 (fullChecks allowRehash maxCount) available.names
        (hashToName order updates) p file) := by
  have hround : Round sha1 allowRehash order available updates p file
      (Updater.checkUpdate sha1 (fullChecks allowRehash maxCount) available.names
        (hashToName order updates) p file) :=
    checkUpdate_round (h.toCome file hfile hnew).1
  generalize Updater.checkUpdate sha1 (fullChecks allowRehash maxCount) available.names
    (hashToName order updates) p file = p' at hround ⊢
  cases hround with
  | imported mode hexecutes => exact h.imported hdone hfile hnew hexecutes
  | matched row table hrow hhash hexecutes htable =>
    exact h.matched hdone hfile hnew hrow hhash hexecutes htable
  | takenOver original htakes hexecutes => exact h.takenOver hdone hfile hnew htakes hexecutes

end

end

end

/-! ### The whole run -/

/-- Before the loop nothing is done. -/
theorem progressed_nil :
    Progressed sha1 allowRehash order available updates [] ⟨updates, updates, [], [], 0⟩ where
  toCome _ _ _ := ⟨rfl, rfl⟩
  left _ hmem := absurd hmem not_mem_nil
  removed _ _ _ hrow _ := hrow
  entered _ _ hmem := absurd hmem not_mem_nil
  executed := rfl
  renames _ := rfl

/-- **The loop** does all available files. -/
theorem progressed_checkUpdates (sha1 : Content → String) (allowRehash : Bool) (maxCount : ℤ)
    (order : MapOrder) (available : LocaleFileStorage Content) (updates : UpdatesTable) :
    Progressed sha1 allowRehash order available updates available.files
      (checkUpdates sha1 (fullChecks allowRehash maxCount) order available updates) := by
  have hnodup : available.files.Nodup := List.Nodup.of_map _ available.names_nodup
  have hloop : ∀ (rest done : List (LocaleFileEntry Content)) (p : Progress),
      done ++ rest = available.files →
      Progressed sha1 allowRehash order available updates done p →
      Progressed sha1 allowRehash order available updates available.files
        (rest.foldl (Updater.checkUpdate sha1 (fullChecks allowRehash maxCount) available.names
          (hashToName order updates)) p) := by
    intro rest
    induction rest with
    | nil =>
      intro done p hsplit h
      rw [append_nil] at hsplit
      exact hsplit ▸ h
    | cons file rest ih =>
      intro done p hsplit h
      have hdone : done ⊆ available.files := hsplit ▸ subset_append_left done _
      have hfile : file ∈ available.files := hsplit ▸ mem_append_right done mem_cons_self
      have hnew : file ∉ done := by
        intro hmem
        rw [← hsplit] at hnodup
        exact disjoint_of_nodup_append hnodup hmem mem_cons_self
      refine ih (done ++ [file]) _ ?_ (h.checkUpdate hdone hfile hnew)
      rw [append_assoc]
      exact hsplit
  exact hloop available.files [] _ rfl progressed_nil

/-- The clean-up of the orphans keeps the rows of all available files. -/
theorem lookup_update_table {file : LocaleFileEntry Content} (hfile : file ∈ available.files) :
    (update sha1 (fullChecks allowRehash maxCount) order available updates).table.lookup
        file.filename =
      (checkUpdates sha1 (fullChecks allowRehash maxCount) order available
        updates).table.lookup file.filename := by
  have hleft :=
    (progressed_checkUpdates sha1 allowRehash maxCount order available updates).left file hfile
  simp only [update, cleanUpOrphans]
  split_ifs
  · rfl
  · exact lookup_cleanUp hleft
  · rfl

/-- The executed files of a run are those to execute, in the order of the files. -/
theorem executed_update (sha1 : Content → String) (allowRehash : Bool) (maxCount : ℤ)
    (order : MapOrder) (available : LocaleFileStorage Content) (updates : UpdatesTable) :
    (update sha1 (fullChecks allowRehash maxCount) order available updates).executed =
      (available.files.filter (executes sha1 allowRehash order available updates)).map
        LocaleFileEntry.filename :=
  (progressed_checkUpdates sha1 allowRehash maxCount order available updates).executed

/-- A table with entries for all files is settled. -/
theorem Entered.settled (h : Entered sha1 available updates) :
    Settled sha1 allowRehash maxCount available updates := by
  intro order
  have hrun := progressed_checkUpdates sha1 allowRehash maxCount order available updates
  constructor
  · rw [executed_update, map_eq_nil_iff, filter_eq_nil_iff]
    intro file hfile
    obtain ⟨row, hrow, hhash⟩ := h file hfile
    simp [executes, hrow, hhash]
  · refine hrun.renames fun file hfile name htakes => ?_
    obtain ⟨row, hrow, -⟩ := h file hfile
    exact Option.some_ne_none row (hrow.symm.trans htakes.1)

/-- Every file is entered, if no two new files take over one row. -/
theorem RenamedApart.entered (h : RenamedApart sha1 order available updates) :
    Entered sha1 available
      (update sha1 (fullChecks allowRehash maxCount) order available updates).table := by
  intro file hfile
  rw [lookup_update_table hfile]
  exact (progressed_checkUpdates sha1 allowRehash maxCount order available
    updates).entered h file hfile

end Run

/-! ### Where a run does not converge -/

end IscServer.Updater
