import IscServer.Library.Run
import IscServer.DevTools.DevToolsMgr

/-!
# The Names of the Commits of a Day

`DevToolsMgr::Commit` numbers the update files of a day: it takes one more than every index it
finds and prints it with at least two digits. The updater orders the files by their names as
strings. The two orders agree as long as the numbers of the day have as many digits as the next
one; from the hundredth file on they do not, because `100` stands before `99` as a string.

`WordFits` says for one number of the day how it has to relate to the next one: a number that is
as long or shorter must be less than as many leading digits of the next one, and the leading
digits of a longer number must not exceed it. `NumbersFit` asks this of all files of the day
before a commit, in terms of the numbers alone.

## Main results

* `commits_sortLast_iff` — the commits of a run get new names that sort after the names of the
  day exactly when the numbers fit before each of them; and then they sort as they were made.
* `commit_not_sortLast` — the commit after the file with number 99.
-/

namespace IscServer.DevTools

open List

open Updater (FileName)

/-! ### What is asked of a commit -/

/-- The digits after the day. -/
def dayNumber (day name : FileName) : List Char :=
  (name.drop day.length).takeWhile Char.isDigit

/-- The name has the pattern `YYYY_MM_DD_<number>_world.sql`. -/
def IsNumbered (day name : FileName) : Prop :=
  dayNumber day name ≠ [] ∧ name = day ++ (dayNumber day name ++ worldSuffix)

/-- The pattern can be checked. -/
instance (day name : FileName) : Decidable (IsNumbered day name) :=
  inferInstanceAs (Decidable (_ ∧ _))

/-- A successful commit gets a name that did not exist before and that is greater, in the order of
the updater, than every numbered name of the day. -/
def SortsLast (s : DevToolsMgr) : Event → Prop
  | .commit call => ∀ fileName, (commit call s).1 = .ok fileName →
      fileName ∉ s.directory.keys ∧
        ∀ name ∈ s.directory.keys, IsNumbered (dayPrefix call.date) name → name < fileName
  | _ => True

local instance : LawfulBEq FileName := inferInstance

/-- The names of a commit can be checked. -/
instance (s : DevToolsMgr) : (event : Event) → Decidable (SortsLast s event)
  | .commit call =>
    match h : (commit call s).1 with
    | .error _ => isTrue fun _ hok => Except.noConfusion rfl rfl (heq_of_eq (h.symm.trans hok))
    | .ok fileName =>
      decidable_of_iff
        (fileName ∉ s.directory.keys ∧ ∀ name ∈ s.directory.keys,
          IsNumbered (dayPrefix call.date) name → name < fileName)
        ⟨fun hlast _ hok => Except.ok.inj (h.symm.trans hok) ▸ hlast,
          fun hlast => hlast fileName h⟩
  | .spawnCreature _ => isTrue trivial
  | .deleteCreatureSpawn _ _ => isTrue trivial
  | .undo _ => isTrue trivial

/-- `n` is one more than the largest index of the day that has a successor in `uint32`, or zero if
there is none. -/
def IsNext (day : FileName) (names : List FileName) (n : ℕ) : Prop :=
  (∀ name ∈ names, ∀ index, indexOf day name = some index →
      index + 1 = UInt32.size ∨ index + 1 ≤ n) ∧
    (n = 0 ∨ ∃ name ∈ names, ∃ index, indexOf day name = some index ∧ index + 1 = n ∧ n < UInt32.size)

/-- The number of digits of an index in a name. -/
def indexWidth (n : ℕ) : ℕ := max 2 (Nat.toDigits 10 n).length

/-- The number `word` of a file stands before the index `n`: compared on as many leading digits as
the shorter one has. -/
def WordFits (word : List Char) (n : ℕ) : Prop :=
  if word.length ≤ indexWidth n then
    Decimal.value word < n / 10 ^ (indexWidth n - word.length)
  else Decimal.value word / 10 ^ (word.length - indexWidth n) ≤ n

/-- The numbers of the day fit the next index, whenever a commit is about to succeed. -/
def NumbersFit (s : DevToolsMgr) : Event → Prop
  | .commit call => s.changes ≠ [] → call.isDirectory = true → call.outcome = .written →
      ∀ n, IsNext (dayPrefix call.date) (listedNames call s) n →
        ∀ name ∈ s.directory.keys, IsNumbered (dayPrefix call.date) name →
          WordFits (dayNumber (dayPrefix call.date) name) n
  | _ => True

/-! ### The next index -/

variable {day name : FileName}

/-- An index is a `uint32`. -/
theorem index_lt {index : ℕ} (h : indexOf day name = some index) : index < UInt32.size := by
  rw [indexOf, stringToUInt32] at h
  split_ifs at h with hstart hword
  obtain rfl := Option.some.inj h
  exact hword.2.2

/-- One round of the loop over the names. -/
theorem nextIndex_concat (day : FileName) (names : List FileName) (name : FileName) :
    nextIndex day (names ++ [name]) =
      match indexOf day name with
      | some index => max (nextIndex day names) ((index + 1) % UInt32.size)
      | none => nextIndex day names := by
  rw [nextIndex, foldl_append]
  rfl

/-- The next index exceeds every index that has a successor, and it is one of the successors. -/
theorem isNext_nextIndex (day : FileName) (names : List FileName) :
    IsNext day names (nextIndex day names) := by
  induction names using List.reverseRecOn with
  | nil => exact ⟨fun _ h => absurd h not_mem_nil, Or.inl rfl⟩
  | append_singleton names name ih =>
    obtain ⟨hmax, hattained⟩ := ih
    rw [nextIndex_concat]
    cases hindex : indexOf day name with
    | none =>
      refine ⟨fun other hother index h => ?_, hattained.imp_right ?_⟩
      · rcases mem_append.mp hother with hother | hother
        · exact hmax other hother index h
        · rw [mem_singleton.mp hother, hindex] at h
          exact absurd h (Option.some_ne_none _).symm
      · rintro ⟨other, hother, h⟩
        exact ⟨other, mem_append_left _ hother, h⟩
    | some last =>
      have hlast := index_lt hindex
      have hnext : (last + 1) % UInt32.size = if last + 1 = UInt32.size then 0 else last + 1 := by
        split_ifs with h
        · rw [h, Nat.mod_self]
        · exact Nat.mod_eq_of_lt (by omega)
      simp only [hnext]
      refine ⟨fun other hother index h => ?_, ?_⟩
      · rcases mem_append.mp hother with hother | hother
        · exact (hmax other hother index h).imp_right fun hle => le_max_of_le_left hle
        · rw [mem_singleton.mp hother, hindex] at h
          obtain rfl := Option.some.inj h
          split_ifs with hwrap
          · exact Or.inl hwrap
          · exact Or.inr (le_max_right _ _)
      · have hold : nextIndex day names = 0 ∨ ∃ name' ∈ names ++ [name], ∃ index,
            indexOf day name' = some index ∧ index + 1 = nextIndex day names ∧
              nextIndex day names < UInt32.size :=
          hattained.imp_right fun ⟨other, hother, h⟩ =>
            ⟨other, mem_append_left _ hother, h⟩
        split_ifs with hwrap
        · rwa [Nat.max_zero]
        · rcases le_total (nextIndex day names) (last + 1) with hle | hle
          · rw [max_eq_right hle]
            exact Or.inr ⟨name, mem_append_right _ mem_cons_self, last, hindex, rfl,
              by omega⟩
          · rwa [max_eq_left hle]

/-- There is only one next index. -/
theorem IsNext.unique {names : List FileName} {n m : ℕ} (hn : IsNext day names n)
    (hm : IsNext day names m) : n = m := by
  have hle : ∀ {n m}, IsNext day names n → IsNext day names m → n ≤ m := by
    rintro n m ⟨-, hn⟩ ⟨hm, -⟩
    rcases hn with rfl | ⟨name, hname, index, hindex, rfl, hlt⟩
    · exact Nat.zero_le _
    · rcases hm name hname index hindex with h | h
      · omega
      · exact h
  exact le_antisymm (hle hn hm) (hle hm hn)

/-! ### The order of the names -/

/-- The underscore is greater than every digit. -/
theorem lt_underscore {c : Char} (h : c.isDigit = true) : c < '_' := by
  have hle : c.toNat ≤ 57 := (Decimal.toNat_of_isDigit h).2
  have hlt : c.toNat < '_'.toNat := lt_of_le_of_lt hle (by decide)
  exact hlt

/-- The digits of a name of the day are those before the suffix. -/
theorem dayNumber_append {word : List Char} (h : Decimal.IsWord word) (day : FileName) :
    dayNumber day (day ++ (word ++ worldSuffix)) = word := by
  have hsuffix : worldSuffix.takeWhile Char.isDigit = [] := by decide
  rw [dayNumber, drop_left, takeWhile_append_of_pos h, hsuffix, append_nil]

/-- What stands after the day is a word. -/
theorem dayNumber_isWord (day name : FileName) : Decimal.IsWord (dayNumber day name) :=
  fun _ hc => mem_takeWhile_imp hc

/-- The name of an index has the pattern. -/
theorem isNumbered_fileNameOf (day : FileName) (n : ℕ) : IsNumbered day (fileNameOf day n) := by
  have hnumber : dayNumber day (fileNameOf day n) = Decimal.padded 2 n :=
    dayNumber_append (Decimal.padded_isWord 2 n) day
  refine ⟨?_, ?_⟩
  · rw [hnumber]
    intro hnil
    have hlength := Decimal.length_padded 2 n
    rw [hnil, length_nil] at hlength
    omega
  · rw [hnumber]
    rfl

/-- **The order of the names is the order of the numbers on their leading digits.** -/
theorem lt_fileNameOf_iff (h : IsNumbered day name) (n : ℕ) :
    name < fileNameOf day n ↔ WordFits (dayNumber day name) n := by
  have hday : ∀ {x y : List Char}, day ++ x < day ++ y ↔ x < y := by
    intro x y
    rw [Decimal.append_lt_iff_of_length_eq rfl]
    simp
  have hwords := Decimal.append_lt_append_iff (dayNumber_isWord day name)
    (Decimal.padded_isWord 2 n) (fun c => lt_underscore) "world.sql".toList
  rw [Decimal.length_padded, Decimal.value_padded] at hwords
  conv_lhs => rw [h.2, fileNameOf, hday]
  exact hwords

/-! ### Commits -/

/-- A commit succeeds exactly when there are changes, the directory exists and the file is
written. -/
theorem commit_eq_ok_iff (call : CommitCall) (s : DevToolsMgr) (fileName : FileName) :
    (commit call s).1 = .ok fileName ↔ fileName = nextFileName call s ∧ s.changes ≠ [] ∧
      call.isDirectory = true ∧ call.outcome = .written := by
  by_cases hchanges : s.changes = []
  · simp [commit, hchanges]
  · cases hdirectory : call.isDirectory with
    | false => simp [commit, hchanges, hdirectory]
    | true =>
      cases houtcome : call.outcome with
      | notOpened => simp [commit, hchanges, hdirectory, houtcome]
      | cutOff count => simp [commit, hchanges, hdirectory, houtcome]
      | written =>
        simp only [commit, hchanges, hdirectory, houtcome, if_false, Bool.not_true,
          Bool.false_eq_true, Except.ok.injEq, ne_eq, not_false_eq_true, and_true]
        exact eq_comm

/-- **One commit**: its name is new and sorts last exactly when the numbers of the day fit. -/
theorem sortsLast_iff_numbersFit (s : DevToolsMgr) (event : Event) :
    SortsLast s event ↔ NumbersFit s event := by
  cases event with
  | commit call =>
    set day := dayPrefix call.date
    have hname : nextFileName call s = fileNameOf day (nextIndex day (listedNames call s)) := rfl
    constructor
    · intro h hchanges hdirectory hwritten n hn name hmem hnumbered
      rw [hn.unique (isNext_nextIndex day _), ← lt_fileNameOf_iff hnumbered]
      exact (h _ ((commit_eq_ok_iff call s _).mpr ⟨rfl, hchanges, hdirectory, hwritten⟩)).2
        name hmem hnumbered
    · intro h fileName hok
      obtain ⟨rfl, hchanges, hdirectory, hwritten⟩ := (commit_eq_ok_iff call s _).mp hok
      have hlast : ∀ name ∈ s.directory.keys, IsNumbered day name →
          name < nextFileName call s := by
        intro name hmem hnumbered
        rw [hname, lt_fileNameOf_iff hnumbered]
        exact h hchanges hdirectory hwritten _ (isNext_nextIndex day _) name hmem hnumbered
      refine ⟨fun hmem => ?_, hlast⟩
      -- an existing file of that name would have to sort before itself
      exact lt_irrefl _ (hlast _ hmem (isNumbered_fileNameOf day _))
  | spawnCreature call => exact Iff.rfl
  | deleteCreatureSpawn spawnId name => exact Iff.rfl
  | undo changeId => exact Iff.rfl

/-! ### The commits of a day -/

/-- The request is no commit of another day. -/
def OnDay (date : Date) : Event → Prop
  | .commit call => call.date = date
  | _ => True

/-- The names of the files committed since `start` commits were made. -/
def committedSince (start : ℕ) (s : DevToolsMgr) : List FileName :=
  (s.committed.drop start).map Prod.fst

/-- The names committed since `start` are numbered names of the day, are in the directory and are
in ascending order. -/
structure Ascending (day : FileName) (start : ℕ) (s : DevToolsMgr) : Prop where
  start_le : start ≤ s.committed.length
  stored : ∀ name ∈ committedSince start s, name ∈ s.directory.keys ∧ IsNumbered day name
  sorted : (committedSince start s).Pairwise (· < ·)

variable {date : Date} {start : ℕ} {s t : DevToolsMgr}

/-- More files and the same commits. -/
theorem Ascending.of_subset (h : Ascending day start s) (hcommitted : t.committed = s.committed)
    (hkeys : ∀ name ∈ s.directory.keys, name ∈ t.directory.keys) : Ascending day start t := by
  have hsince : committedSince start t = committedSince start s := by
    rw [committedSince, hcommitted, committedSince]
  refine ⟨hcommitted ▸ h.start_le, fun name hname => ?_, hsince ▸ h.sorted⟩
  rw [hsince] at hname
  exact ⟨hkeys name (h.stored name hname).1, (h.stored name hname).2⟩

/-- A commit that sorts last keeps the order. -/
theorem Ascending.commit {call : CommitCall} (h : Ascending (dayPrefix call.date) start s)
    (hsorts : SortsLast s (.commit call)) :
    Ascending (dayPrefix call.date) start (commit call s).2 := by
  have hinsert : ∀ file name, name ∈ s.directory.keys →
      name ∈ (s.directory.insert (nextFileName call s) file).keys := fun file name hname =>
    (AList.mem_insert _).mpr (Or.inr hname)
  rcases commit_disk call s with ⟨hdirectory, hcommitted⟩ | ⟨file, hdirectory, hcommitted⟩ |
    ⟨hok, hdirectory, hcommitted⟩
  · exact h.of_subset hcommitted fun name hname => hdirectory.symm ▸ hname
  · exact h.of_subset hcommitted fun name hname => hdirectory.symm ▸ hinsert file name hname
  · have hsince : committedSince start (DevTools.commit call s).2 =
        committedSince start s ++ [nextFileName call s] := by
      rw [committedSince, hcommitted, drop_append_of_le_length h.start_le, map_append]
      rfl
    have hlast := (hsorts _ hok).2
    refine ⟨?_, fun name hname => ?_, ?_⟩
    · rw [hcommitted, length_append]
      exact Nat.le_add_right_of_le h.start_le
    · rw [hdirectory]
      rw [hsince] at hname
      rcases mem_append.mp hname with hname | hname
      · exact ⟨hinsert _ name (h.stored name hname).1, (h.stored name hname).2⟩
      · rw [mem_singleton.mp hname]
        exact ⟨(AList.mem_insert _).mpr (Or.inl rfl), isNumbered_fileNameOf _ _⟩
    · rw [hsince]
      refine pairwise_append.mpr ⟨h.sorted, pairwise_singleton _ _, ?_⟩
      intro name hname last hmem
      rw [mem_singleton.mp hmem]
      exact hlast name (h.stored name hname).1 (h.stored name hname).2

/-- Every request keeps the order, if its commit sorts last. -/
theorem Ascending.step {event : Event} (h : Ascending (dayPrefix date) start s)
    (hday : OnDay date event) (hsorts : SortsLast s event) :
    Ascending (dayPrefix date) start (step s event) := by
  cases event with
  | commit call =>
    obtain rfl : call.date = date := hday
    exact h.commit hsorts
  | spawnCreature call =>
    have hdisk := spawnCreature_disk call s
    exact h.of_subset hdisk.2 fun name hname => hdisk.1.symm ▸ hname
  | deleteCreatureSpawn spawnId name =>
    have hdisk := deleteCreatureSpawn_disk spawnId name s
    exact h.of_subset hdisk.2 fun name hname => hdisk.1.symm ▸ hname
  | undo changeId =>
    have hdisk := undo_disk changeId s
    exact h.of_subset hdisk.2 fun name hname => hdisk.1.symm ▸ hname

/-- **The commits of a day sort in the order they are made.** In every run whose commits are of
one day, from every state and with every set of files in the directory, each committed file gets a
new name that is greater than every numbered name of the day exactly when the numbers of the day
fit the next index before each commit; and then the committed names are in ascending order. -/
theorem commits_sortLast_iff (date : Date) (s : DevToolsMgr) (events : List Event)
    (hday : ∀ event ∈ events, OnDay date event) :
    (Run.Along step SortsLast s events ↔ Run.Along step NumbersFit s events) ∧
      (Run.Along step NumbersFit s events →
        (committedSince s.committed.length (events.foldl step s)).Pairwise (· < ·)) := by
  have hiff : Run.Along step SortsLast s events ↔ Run.Along step NumbersFit s events :=
    Run.along_congr (fun _ => True) (fun s event _ => sortsLast_iff_numbersFit s event)
      (fun _ _ _ _ => trivial) events trivial
  refine ⟨hiff, fun hfit => ?_⟩
  have hstart : Ascending (dayPrefix date) s.committed.length s := by
    have hnone : committedSince s.committed.length s = [] := by
      rw [committedSince, drop_length, map_nil]
    refine ⟨le_rfl, fun name hname => ?_, ?_⟩
    · rw [hnone] at hname
      exact absurd hname not_mem_nil
    · rw [hnone]
      exact List.Pairwise.nil
  refine (Run.Along.invariant (Ascending (dayPrefix date) s.committed.length) ?_ hstart
    ((hiff.mpr hfit).and_mem hday)).sorted
  intro t event h hstep
  exact h.step hstep.2 hstep.1

/-! ### Two runs -/

/-- A world with two wolves. -/
def wolves : AList (fun _ : ℕ => ℕ) := (AList.singleton 1 69).insert 2 69

/-- A commit on the fifth of January that is written. -/
def januaryCommit : CommitCall :=
  ⟨"", "/srv/sql/updates/world/3.3.5", true, true, ⟨2026, 1, 5⟩, .written⟩

/-- An update directory with one file of that day. -/
def januaryDirectory (name : String) : AList (fun _ : FileName => UpdateFile) :=
  AList.singleton name.toList ⟨"", []⟩

/-- Two wolves are deleted and committed one after the other. -/
def twoCommits : List Event :=
  [.deleteCreatureSpawn 1 "Wolf", .commit januaryCommit, .deleteCreatureSpawn 2 "Wolf",
    .commit januaryCommit]

/-- The numbers 08, 09 and 10 of a day. -/
theorem commits_sortLast_iff_twoCommits :
    Run.Along step NumbersFit
        (startup wolves (januaryDirectory "2026_01_05_08_world.sql")) twoCommits ∧
      (committedSince 0 (twoCommits.foldl step
        (startup wolves (januaryDirectory "2026_01_05_08_world.sql")))).Pairwise (· < ·) := by
  have hday : ∀ event ∈ twoCommits, OnDay ⟨2026, 1, 5⟩ event := by
    simp [twoCommits, OnDay, januaryCommit]
  have hmain := commits_sortLast_iff ⟨2026, 1, 5⟩
    (startup wolves (januaryDirectory "2026_01_05_08_world.sql")) twoCommits hday
  have hsorts : Run.Along step SortsLast
      (startup wolves (januaryDirectory "2026_01_05_08_world.sql")) twoCommits := by
    decide +kernel
  exact ⟨hmain.1.mp hsorts, hmain.2 (hmain.1.mp hsorts)⟩

/-- **The hundredth file of a day** sorts before the ninety-ninth. -/
theorem commit_not_sortLast :
    ¬ Run.Along step SortsLast (startup wolves (januaryDirectory "2026_01_05_99_world.sql"))
      twoCommits := by
  decide +kernel

end IscServer.DevTools
