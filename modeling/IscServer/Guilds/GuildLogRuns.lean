import IscServer.Guilds.GuildLog

/-!
# Guild Logs over Restarts

The record numbers of a log go round in a ring, while the loading query orders the rows of one second
by their number. When a log is loaded in whose events the ring goes from its last number to zero
within one second, the events of that second come in the wrong order: the log in memory is not what
was logged, and the next number is taken from an event that is to be kept.

## Main results

* `survives_iff` — a log survives all restarts of a run exactly when none of them comes while the
  ring goes round within one second of the events that are kept.
* `not_survives_of_ring` — three events in one second and a restart, when two records are kept.
-/

namespace IscServer.GuildLogs

open List Function

/-! ### Numbers in the ring -/

variable {α κ : Type}

variable {n : ℕ}

/-- Fewer than `n` steps do not lead back to the same number. -/
theorem mod_ne_of_lt {i j : ℕ} (hlt : i < j) (hnear : j < i + n) : i % n ≠ j % n := by
  intro h
  have hzero : (j - i) % n = 0 := Nat.sub_mod_eq_zero_of_mod_eq h.symm
  rw [Nat.mod_eq_of_lt (by omega)] at hzero
  omega

/-- Between two numbers that go down the ring starts again. -/
theorem exists_start {i j : ℕ} (hlt : i < j) (hdown : j % n < i % n) :
    ∃ m, i ≤ m ∧ m + 1 ≤ j ∧ (m + 1) % n = 0 := by
  have hj := Nat.div_add_mod j n
  have hbelow : i < n * (j / n) := by
    by_contra hle
    have hmod : i % n = (i - n * (j / n)) % n := by
      rw [Nat.sub_mul_mod (Nat.le_of_not_lt hle)]
    have hle' := Nat.mod_le (i - n * (j / n)) n
    omega
  refine ⟨n * (j / n) - 1, by omega, by omega, ?_⟩
  rw [Nat.sub_add_cancel (by omega), Nat.mul_mod_right]

/-- What is kept with one more event. -/
theorem drop_append_singleton (l : List α) (a : α) (hn : 0 < n) :
    (l ++ [a]).drop ((l ++ [a]).length - n) =
      (if l.length < n then l.drop (l.length - n) else (l.drop (l.length - n)).tail) ++ [a] := by
  rw [length_append, length_singleton, drop_append_of_le_length (by omega)]
  split_ifs with hroom
  · rw [show l.length + 1 - n = 0 by omega, show l.length - n = 0 by omega]
  · rw [tail_drop, show l.length + 1 - n = l.length - n + 1 by omega]

/-- Pairs of what is left of a list behind its first `n` entries. -/
theorem pairwise_drop_iff (l : List α) (n : ℕ) {R : α → α → Prop} :
    (l.drop n).Pairwise R ↔
      ∀ i j a b, n ≤ i → i < j → l[i]? = some a → l[j]? = some b → R a b := by
  rw [pairwise_iff_getElem]
  constructor
  · intro h i j a b hn hlt hi hj
    obtain ⟨hilt, rfl⟩ := List.getElem?_eq_some_iff.mp hi
    obtain ⟨hjlt, rfl⟩ := List.getElem?_eq_some_iff.mp hj
    have hpair := h (i - n) (j - n) (by rw [length_drop]; omega)
      (by rw [length_drop]; omega) (by omega)
    simpa only [getElem_drop, Nat.add_sub_cancel' hn,
      Nat.add_sub_cancel' (Nat.le_trans hn (Nat.le_of_lt hlt))] using hpair
  · intro h i j hi hj hlt
    rw [length_drop] at hi hj
    rw [getElem_drop, getElem_drop]
    exact h (n + i) (n + j) _ _ (Nat.le_add_right n i) (by omega)
      (List.getElem?_eq_getElem (by omega)) (List.getElem?_eq_getElem (by omega))

namespace LogTable

variable (T : LogTable κ α)

/-! ### What is kept -/

/-- The last events that have been logged, as many as the table keeps. -/
def kept (s : Server κ α) (key : κ) : List (LogEntry α) :=
  (s.logged key).drop ((s.logged key).length - T.maxRecords)

/-- Events are numbered round the ring in the order of their timestamps. -/
structure Numbered (s : Server κ α) (key : κ) : Prop where
  guid : ∀ i entry, (s.logged key)[i]? = some entry → entry.guid = i % T.maxRecords
  ordered : (s.logged key).Pairwise fun a b => a.timestamp ≤ b.timestamp
  past : ∀ entry ∈ s.logged key, entry.timestamp ≤ s.now
  accepted : ∀ entry ∈ s.logged key, T.accepts key entry.event = true

/-- Among the last `maxRecords` events, those after which the ring starts again with zero are not of
the same second as the next ones. -/
def SecondsUnbroken (timestamps : List ℕ) : Prop :=
  ∀ i t t', timestamps[i]? = some t → timestamps[i + 1]? = some t' →
    timestamps.length ≤ i + T.maxRecords → (i + 1) % T.maxRecords = 0 → t ≠ t'

section Kept

variable {T} {s : Server κ α} {key : κ}

theorem kept_getElem? (j : ℕ) :
    (T.kept s key)[j]? = (s.logged key)[(s.logged key).length - T.maxRecords + j]? :=
  List.getElem?_drop

theorem length_kept : (T.kept s key).length = min (s.logged key).length T.maxRecords := by
  rw [kept, length_drop]
  omega

section

variable (h : T.Numbered s key)
include h

/-- The oldest entry goes when the log is full, and it is the one with the next number. -/
theorem Numbered.filter_kept :
    (T.kept s key).filter (fun old => !(old.guid = (s.logged key).length % T.maxRecords)) =
      if (s.logged key).length < T.maxRecords then T.kept s key else (T.kept s key).tail := by
  have hpos := T.pos
  have hstays : ∀ j entry, (T.kept s key)[j]? = some entry →
      (s.logged key).length < (s.logged key).length - T.maxRecords + j + T.maxRecords →
      (!(entry.guid = (s.logged key).length % T.maxRecords : Bool)) = true := by
    intro j entry hj hnear
    rw [kept_getElem?] at hj
    obtain ⟨hlt, -⟩ := List.getElem?_eq_some_iff.mp hj
    have hne := mod_ne_of_lt hlt hnear
    rw [h.guid _ entry hj, decide_eq_false hne]
    rfl
  by_cases hroom : (s.logged key).length < T.maxRecords
  · rw [if_pos hroom, filter_eq_self]
    intro entry hmem
    obtain ⟨j, hj⟩ := mem_iff_getElem?.mp hmem
    exact hstays j entry hj (by omega)
  · rw [if_neg hroom]
    have hlength := (@length_kept _ _ T s key)
    cases hkept : T.kept s key with
    | nil =>
      rw [hkept, length_nil] at hlength
      omega
    | cons oldest others =>
      rw [hkept] at hstays
      have holdest : oldest.guid = (s.logged key).length % T.maxRecords := by
        have hzero : (T.kept s key)[0]? = some oldest := by rw [hkept]; rfl
        rw [kept_getElem?, Nat.add_zero] at hzero
        rw [h.guid _ oldest hzero, Nat.mod_eq_sub_mod (a := (s.logged key).length) (by omega)]
      rw [filter_cons_of_neg (by simp [holdest]), tail_cons, filter_eq_self]
      intro entry hmem
      obtain ⟨j, hj⟩ := mem_iff_getElem?.mp hmem
      exact hstays (j + 1) entry hj (by omega)

theorem Numbered.guid_lt {entry : LogEntry α} (hmem : entry ∈ T.kept s key) :
    entry.guid < T.maxRecords := by
  obtain ⟨i, hi⟩ := mem_iff_getElem?.mp (mem_of_mem_drop hmem)
  rw [h.guid i entry hi]
  exact Nat.mod_lt i T.pos

/-- Events that are kept have different numbers. -/
theorem Numbered.eq_of_guid {a b : LogEntry α} (ha : a ∈ T.kept s key)
    (hb : b ∈ T.kept s key) (hguid : a.guid = b.guid) : a = b := by
  obtain ⟨i, hi⟩ := mem_iff_getElem?.mp ha
  obtain ⟨j, hj⟩ := mem_iff_getElem?.mp hb
  rw [kept_getElem?] at hi hj
  rw [h.guid _ a hi, h.guid _ b hj] at hguid
  obtain ⟨hilt, -⟩ := List.getElem?_eq_some_iff.mp hi
  obtain ⟨hjlt, -⟩ := List.getElem?_eq_some_iff.mp hj
  rcases Nat.lt_trichotomy i j with hlt | rfl | hlt
  · exact absurd hguid (mod_ne_of_lt (by omega) (by omega))
  · exact Option.some.inj (hi.symm.trans hj)
  · exact absurd hguid.symm (mod_ne_of_lt (by omega) (by omega))

/-- The number of the last event that is kept. -/
theorem getLast?_guid :
    ((T.kept s key).getLast?.map LogEntry.guid).getD guidUndefined =
      if s.logged key = [] then guidUndefined
      else ((s.logged key).length - 1) % T.maxRecords := by
  have hpos := T.pos
  rw [kept, List.getLast?_drop]
  by_cases hnil : s.logged key = []
  · rw [if_pos hnil, if_pos (by rw [hnil]; exact Nat.zero_le _), Option.map_none, Option.getD_none]
  · have hlength := length_pos_iff.mpr hnil
    obtain ⟨last, hlast⟩ : ∃ last, (s.logged key)[(s.logged key).length - 1]? = some last :=
      ⟨_, List.getElem?_eq_getElem (by omega)⟩
    rw [if_neg hnil, if_neg (by omega), List.getLast?_eq_getElem?, hlast, Option.map_some,
      Option.getD_some, h.guid _ last hlast]

/-- **The order of the query** is that of logging if and only if no second is broken by the end of the
ring. -/
theorem Numbered.pairwise_iff :
    (T.kept s key).Pairwise (fun a b => QueryOrder b a) ↔
      T.SecondsUnbroken ((s.logged key).map LogEntry.timestamp) := by
  have hsorted : ∀ (i j : ℕ) (a b : LogEntry α), i ≤ j → (s.logged key)[i]? = some a → (s.logged key)[j]? = some b →
      a.timestamp ≤ b.timestamp := by
    intro i j a b hle hi hj
    rcases Nat.eq_or_lt_of_le hle with rfl | hlt
    · exact Nat.le_of_eq (congrArg LogEntry.timestamp (Option.some.inj (hi.symm.trans hj)))
    · exact (pairwise_drop_iff (s.logged key) 0).mp h.ordered i j a b (Nat.zero_le i) hlt hi hj
  rw [kept, pairwise_drop_iff]
  constructor
  · intro hpairwise i t t' hi hi' hkept hend heq
    rw [List.getElem?_map, Option.map_eq_some_iff] at hi hi'
    obtain ⟨a, ha, rfl⟩ := hi
    obtain ⟨b, hb, rfl⟩ := hi'
    rw [length_map] at hkept
    obtain ⟨hlt, -⟩ := List.getElem?_eq_some_iff.mp hb
    -- the later event has number zero, the earlier one has not
    have hne : i % T.maxRecords ≠ (i + 1) % T.maxRecords :=
      mod_ne_of_lt (Nat.lt_succ_self i) (by omega)
    rcases hpairwise i (i + 1) a b (by omega) (Nat.lt_succ_self i) ha hb with hearlier | ⟨-, hguid⟩
    · omega
    · rw [h.guid i a ha, h.guid (i + 1) b hb] at hguid
      omega
  · intro hunbroken i j a b hkept hlt hi hj
    rcases Nat.eq_or_lt_of_le (hsorted i j a b (Nat.le_of_lt hlt) hi hj) with heq | hearlier
    · refine Or.inr ⟨heq.symm, ?_⟩
      rw [h.guid i a hi, h.guid j b hj]
      by_contra hdown
      obtain ⟨m, him, hmj, hstart⟩ := exists_start hlt (Nat.lt_of_not_le hdown)
      obtain ⟨hjlt, -⟩ := List.getElem?_eq_some_iff.mp hj
      obtain ⟨c, hc⟩ : ∃ c, (s.logged key)[m]? = some c := ⟨_, List.getElem?_eq_getElem (by omega)⟩
      obtain ⟨d, hd⟩ : ∃ d, (s.logged key)[m + 1]? = some d :=
        ⟨_, List.getElem?_eq_getElem (by omega)⟩
      have hac := hsorted i m a c him hi hc
      have hcd := hsorted m (m + 1) c d (Nat.le_succ m) hc hd
      have hdb := hsorted (m + 1) j d b hmj hd hj
      refine hunbroken m c.timestamp d.timestamp ?_ ?_ ?_ hstart (by omega)
      · rw [List.getElem?_map, hc, Option.map_some]
      · rw [List.getElem?_map, hd, Option.map_some]
      · rw [length_map]
        omega
    · exact Or.inl hearlier

end

/-- Entries that are accepted and for which there is room go to the front one after the other. -/
theorem foldl_load (entries : List (LogEntry α)) (holder : LogHolder α)
    (haccepted : ∀ entry ∈ entries, T.accepts key entry.event = true)
    (hdefined : ∀ entry ∈ entries, entry.guid ≠ guidUndefined)
    (hroom : holder.log.length + entries.length ≤ T.maxRecords) :
    entries.foldl (T.load key) holder = ⟨entries.reverse ++ holder.log,
      if holder.nextGuid = guidUndefined then (entries.head?.map LogEntry.guid).getD guidUndefined
      else holder.nextGuid⟩ := by
  induction entries generalizing holder with
  | nil =>
    obtain ⟨log, nextGuid⟩ := holder
    by_cases hnext : nextGuid = guidUndefined
    · subst hnext
      rfl
    · rw [if_neg hnext]
      rfl
  | cons entry entries ih =>
    obtain ⟨hfirst, haccepted⟩ := forall_mem_cons.mp haccepted
    obtain ⟨hguid, hdefined⟩ := forall_mem_cons.mp hdefined
    rw [length_cons] at hroom
    have hload : T.load key holder entry = holder.loadEvent entry := by
      rw [T.load_eq, hfirst, LogHolder.canInsert, decide_eq_true (by omega)]
      rfl
    rw [foldl_cons, hload, ih _ haccepted hdefined (by
      rw [LogHolder.loadEvent, length_cons]
      omega)]
    rw [LogHolder.loadEvent, reverse_cons, append_assoc, singleton_append]
    by_cases hnext : holder.nextGuid = guidUndefined
    · rw [if_pos hnext, if_pos hnext, if_neg hguid]
      rfl
    · rw [if_neg hnext, if_neg hnext, if_neg hnext]

end Kept

variable [DecidableEq κ]

/-! ### What is asked of a log -/

/-- The rows of a holder. -/
def rowsOf (table : List (Row κ α)) (key : κ) : List (LogEntry α) :=
  (table.filter fun row => row.key = key).map Row.entry

/-- **The log is what was logged**: in memory it is the last events in their order, the table holds
exactly those, and the number of the next event is only taken from the oldest of them, when the log is
full. -/
structure Kept (s : Server κ α) (key : κ) : Prop where
  log : (s.holders key).log = T.kept s key
  table : (rowsOf s.table key).Perm (T.kept s key)
  next : ∀ entry ∈ (s.logged key).drop ((s.logged key).length - (T.maxRecords - 1)),
    entry.guid ≠ (s.holders key).getNextGuid T.maxRecords
  replaces : T.maxRecords ≤ (s.logged key).length → ∀ entry ∈ (T.kept s key).head?,
    entry.guid = (s.holders key).getNextGuid T.maxRecords

/-- **The log survives**: it is what was logged in every state of the run. -/
def Survives (key : κ) (ops : List T.Op) : Prop :=
  T.Kept start key ∧ Run.Along T.step (fun s op => T.Kept (T.step s op) key) start ops

/-- At a restart no second is broken by the end of the ring. -/
def Unbroken (key : κ) (s : Server κ α) : T.Op → Prop
  | .restart _ => T.SecondsUnbroken ((s.logged key).map LogEntry.timestamp)
  | _ => True

/-! ### The invariant -/

/-- **The invariant**: the last events are in memory and in the table, and the last number is that of
the last event. -/
structure Sound (s : Server κ α) (key : κ) : Prop where
  numbered : T.Numbered s key
  log : (s.holders key).log = T.kept s key
  nextGuid : (s.holders key).nextGuid = if s.logged key = [] then guidUndefined
    else ((s.logged key).length - 1) % T.maxRecords
  table : (rowsOf s.table key).Perm (T.kept s key)

variable {T} {s : Server κ α} {key : κ}

theorem getNextGuid_eq (h : T.Sound s key) :
    (s.holders key).getNextGuid T.maxRecords = (s.logged key).length % T.maxRecords := by
  have hpos := T.pos
  have hmax := T.lt
  rw [LogHolder.getNextGuid, h.nextGuid]
  by_cases hnil : s.logged key = []
  · rw [if_pos hnil, if_pos rfl, hnil, length_nil, Nat.zero_mod]
  · have hlength := length_pos_iff.mpr hnil
    have hlt := Nat.mod_lt ((s.logged key).length - 1) hpos
    have hdefined : ((s.logged key).length - 1) % T.maxRecords ≠ guidUndefined := by
      rw [guidUndefined]
      omega
    rw [if_neg hnil, if_neg hdefined, Nat.mod_eq_of_lt (a := _ + 1) (by omega), Nat.mod_add_mod,
      Nat.sub_add_cancel hlength]

/-- A sound log is what was logged. -/
theorem Sound.is_kept (h : T.Sound s key) : T.Kept s key := by
  refine ⟨h.log, h.table, fun entry hmem => ?_, fun hfull entry hhead => ?_⟩
  · obtain ⟨j, hj⟩ := mem_iff_getElem?.mp hmem
    rw [List.getElem?_drop] at hj
    obtain ⟨hlt, -⟩ := List.getElem?_eq_some_iff.mp hj
    rw [getNextGuid_eq h, h.numbered.guid _ entry hj]
    exact mod_ne_of_lt hlt (by omega)
  · rw [List.head?_eq_getElem?, kept_getElem?, Nat.add_zero] at hhead
    rw [getNextGuid_eq h, h.numbered.guid _ entry hhead, Nat.mod_eq_sub_mod hfull]

theorem sound_start : T.Sound start key := by
  have hkept : T.kept start key = [] := drop_nil
  refine ⟨⟨fun i entry h => ?_, List.Pairwise.nil, fun _ h => ?_, fun _ h => ?_⟩, hkept.symm, rfl, ?_⟩
  · cases h
  · cases h
  · cases h
  · rw [hkept]
    exact List.Perm.nil

/-! ### Logging -/

theorem Sound.wait (h : T.Sound s key) (seconds : ℕ) :
    T.Sound { s with now := s.now + seconds } key :=
  ⟨⟨h.numbered.guid, h.numbered.ordered,
    fun entry hmem => Nat.le_add_right_of_le (h.numbered.past entry hmem), h.numbered.accepted⟩,
    h.log, h.nextGuid, h.table⟩

variable (table : List (Row κ α))

theorem rowsOf_append (table' : List (Row κ α)) (key : κ) :
    rowsOf (table ++ table') key = rowsOf table key ++ rowsOf table' key := by
  rw [rowsOf, filter_append, map_append, rowsOf, rowsOf]

/-- The row with the number of the new one goes, if it is of the same holder. -/
theorem rowsOf_saveToDB (row : Row κ α) (key : κ) :
    rowsOf (saveToDB table row) key = if row.key = key then
      (rowsOf table key).filter (fun old => !(old.guid = row.entry.guid)) ++ [row.entry]
    else rowsOf table key := by
  rw [saveToDB, rowsOf_append, rowsOf, rowsOf, filter_filter, filter_cons, filter_nil]
  by_cases hkey : row.key = key
  · rw [if_pos hkey, rowsOf, filter_map, filter_filter, if_pos (decide_eq_true hkey)]
    congr 2
    refine filter_congr fun old _ => ?_
    by_cases hold : old.key = key
    · simp [hold, hkey]
    · simp [hold]
  · rw [if_neg hkey, rowsOf, if_neg (by simpa using hkey), map_nil, append_nil]
    congr 1
    refine filter_congr fun old _ => ?_
    by_cases hold : old.key = key
    · simp [hold, Ne.symm hkey]
    · simp [hold]

/-- Events of other holders change nothing. -/
theorem Sound.logEvent_of_ne (h : T.Sound s key) {key' : κ} (event : α) (hne : key ≠ key') :
    T.Sound (T.logEvent s key' event) key := by
  have hlogged : (T.logEvent s key' event).logged key = s.logged key := update_of_ne hne _ _
  have hholder : (T.logEvent s key' event).holders key = s.holders key := update_of_ne hne _ _
  have hkept : T.kept (T.logEvent s key' event) key = T.kept s key := by rw [kept, hlogged, kept]
  refine ⟨⟨?_, ?_, ?_, ?_⟩, ?_, ?_, ?_⟩
  · rw [hlogged]; exact h.numbered.guid
  · rw [hlogged]; exact h.numbered.ordered
  · rw [hlogged]; exact h.numbered.past
  · rw [hlogged]; exact h.numbered.accepted
  · rw [hholder, hkept, h.log]
  · rw [hholder, hlogged, h.nextGuid]
  · rw [hkept]
    refine List.Perm.trans (List.Perm.of_eq ?_) h.table
    exact (rowsOf_saveToDB s.table _ key).trans (if_neg (Ne.symm hne))

/-- **Logging** an event takes the next number round the ring and replaces the oldest record of a full
log. -/
theorem Sound.logEvent (h : T.Sound s key) {event : α} (haccepted : T.accepts key event = true) :
    T.Sound (T.logEvent s key event) key := by
  have hguid := getNextGuid_eq h
  let entry : LogEntry α := ⟨(s.logged key).length % T.maxRecords, s.now, event⟩
  have hlogged : (T.logEvent s key event).logged key = s.logged key ++ [entry] := by
    rw [LogTable.logEvent, hguid]
    exact update_self key _ _
  have hkept : T.kept (T.logEvent s key event) key =
      (if (s.logged key).length < T.maxRecords then T.kept s key else (T.kept s key).tail) ++
        [entry] := by
    rw [kept, hlogged, drop_append_singleton _ _ T.pos, kept]
  have hholder : (T.logEvent s key event).holders key =
      { s.holders key with nextGuid := entry.guid }.addEvent T.maxRecords entry := by
    rw [LogTable.logEvent, hguid]
    exact update_self key _ _
  have hnil : s.logged key ++ [entry] ≠ [] := append_ne_nil_of_right_ne_nil _ (cons_ne_nil _ _)
  refine ⟨⟨fun i e hi => ?_, ?_, fun e hmem => ?_, fun e hmem => ?_⟩, ?_, ?_, ?_⟩
  · rw [hlogged, List.getElem?_append] at hi
    split_ifs at hi with hold
    · exact h.numbered.guid i e hi
    · obtain ⟨hlast, rfl⟩ := List.getElem?_eq_some_iff.mp hi
      rw [length_singleton] at hlast
      obtain rfl : i = (s.logged key).length := by omega
      rw [getElem_singleton]
  · rw [hlogged, pairwise_append]
    refine ⟨h.numbered.ordered, pairwise_singleton _ _, fun a ha b hb => ?_⟩
    rw [mem_singleton.mp hb]
    exact h.numbered.past a ha
  · rw [hlogged] at hmem
    rcases mem_append.mp hmem with hmem | hmem
    · exact h.numbered.past e hmem
    · rw [mem_singleton.mp hmem]
      exact Nat.le_refl _
  · rw [hlogged] at hmem
    rcases mem_append.mp hmem with hmem | hmem
    · exact h.numbered.accepted e hmem
    · rw [mem_singleton.mp hmem]
      exact haccepted
  · have hroom : (T.kept s key).length < T.maxRecords ↔ (s.logged key).length < T.maxRecords := by
      rw [length_kept]
      omega
    rw [hholder, hkept, LogHolder.addEvent, LogHolder.canInsert]
    simp only [h.log, decide_eq_true_eq, hroom]
  · rw [hholder, hlogged, if_neg hnil, length_append, length_singleton, Nat.add_sub_cancel]
    rfl
  · have hrows : rowsOf (T.logEvent s key event).table key = (rowsOf s.table key).filter
        (fun old => !(old.guid = (s.logged key).length % T.maxRecords)) ++ [entry] := by
      rw [LogTable.logEvent, hguid]
      exact (rowsOf_saveToDB s.table _ key).trans (if_pos rfl)
    rw [hrows, hkept, ← h.numbered.filter_kept]
    exact (h.table.filter _).append_right [entry]

/-! ### Loading -/

/-- Each holder is loaded from its own rows. -/
theorem loadRows_apply (rows : List (Row κ α)) (holders : κ → LogHolder α) (key : κ) :
    T.loadRows rows holders key = (rowsOf rows key).foldl (T.load key) (holders key) := by
  induction rows generalizing holders with
  | nil => rfl
  | cons row rows ih =>
    rw [loadRows, foldl_cons, ← loadRows, ih, rowsOf, rowsOf, filter_cons]
    by_cases hkey : row.key = key
    · subst hkey
      rw [update_self, if_pos (decide_eq_true rfl), map_cons, foldl_cons]
    · rw [update_of_ne (Ne.symm hkey), if_neg (by simpa using hkey)]

/-- Before the query nothing is deleted. -/
theorem Sound.rows_trimmed (h : T.Sound s key) :
    rowsOf (T.trimmed s.table) key = rowsOf s.table key := by
  rw [rowsOf, trimmed, filter_filter, rowsOf]
  congr 1
  refine filter_congr fun row hmem => ?_
  by_cases hkey : row.key = key
  · have hrow : row.entry ∈ rowsOf s.table key :=
      mem_map_of_mem (mem_filter.mpr ⟨hmem, decide_eq_true hkey⟩)
    have hlt := h.numbered.guid_lt (h.table.mem_iff.mp hrow)
    rw [decide_eq_true hkey, decide_eq_true (Nat.le_of_lt hlt)]
    rfl
  · rw [decide_eq_false hkey]
    rfl

variable {rows : List (Row κ α)}

section

variable (h : T.Sound s key) (hanswers : T.Answers s (.restart rows))
include h hanswers

/-- What is read for a holder: its events, in the order of the query. -/
theorem Sound.entries :
    (rowsOf rows key).Perm (T.kept s key) ∧ (rowsOf rows key).Pairwise QueryOrder := by
  obtain ⟨hperm, horder⟩ := hanswers
  refine ⟨?_, ?_⟩
  · exact (((hperm.filter _).map _).trans (List.Perm.of_eq h.rows_trimmed)).trans h.table
  · exact pairwise_map.mpr (horder.filter _)

/-- What a restart makes of a holder. -/
theorem Sound.loaded :
    (T.step s (.restart rows)).holders key = ⟨(rowsOf rows key).reverse,
      ((rowsOf rows key).head?.map LogEntry.guid).getD guidUndefined⟩ := by
  obtain ⟨hperm, -⟩ := h.entries hanswers
  have hmax := T.lt
  refine (loadRows_apply rows _ key).trans ?_
  rw [foldl_load]
  · rw [LogHolder.new, if_pos rfl, append_nil]
  · exact fun entry hmem => h.numbered.accepted entry (mem_of_mem_drop (hperm.mem_iff.mp hmem))
  · intro entry hmem
    have hlt := h.numbered.guid_lt (hperm.mem_iff.mp hmem)
    rw [guidUndefined]
    omega
  · rw [hperm.length_eq, length_kept, LogHolder.new, length_nil]
    omega

/-- **A restart** brings the log back in order exactly when no second is broken. -/
theorem Sound.restart_iff :
    ((T.step s (.restart rows)).holders key).log = T.kept s key ↔
      T.SecondsUnbroken ((s.logged key).map LogEntry.timestamp) := by
  obtain ⟨hperm, horder⟩ := h.entries hanswers
  have hreverse : (rowsOf rows key).reverse.Pairwise (fun a b => QueryOrder b a) :=
    pairwise_reverse.mpr horder
  rw [← h.numbered.pairwise_iff, h.loaded hanswers]
  constructor
  · intro hlog
    rw [← hlog]
    exact hreverse
  · intro hkept
    refine List.Perm.eq_of_pairwise (fun a b ha hb hab hba => ?_) hreverse hkept
      ((reverse_perm _).trans hperm)
    have ha' : a ∈ T.kept s key := hperm.mem_iff.mp (mem_reverse.mp ha)
    rcases hab with hab | ⟨htime, hguid⟩
    · rcases hba with hba | ⟨hba, -⟩ <;> omega
    · rcases hba with hba | ⟨-, hguid'⟩
      · omega
      · exact h.numbered.eq_of_guid ha' hb (Nat.le_antisymm hguid hguid')

/-- After a restart that breaks no second the log is sound again. -/
theorem Sound.restart (hunbroken : T.SecondsUnbroken ((s.logged key).map LogEntry.timestamp)) :
    T.Sound (T.step s (.restart rows)) key := by
  have hlog := (h.restart_iff hanswers).mpr hunbroken
  refine ⟨⟨h.numbered.guid, h.numbered.ordered, h.numbered.past, h.numbered.accepted⟩, hlog, ?_, ?_⟩
  · have hloaded := h.loaded hanswers
    rw [hloaded] at hlog ⊢
    dsimp only at hlog ⊢
    rw [← List.getLast?_reverse, hlog]
    exact getLast?_guid h.numbered
  · exact (List.Perm.of_eq h.rows_trimmed).trans h.table

end

/-! ### Runs -/

theorem Sound.step {op : T.Op} (h : T.Sound s key) (hanswers : T.Answers s op)
    (hunbroken : T.Unbroken key s op) : T.Sound (T.step s op) key := by
  cases op with
  | wait seconds => exact h.wait seconds
  | log key' event haccepted =>
    by_cases hkey : key = key'
    · subst hkey
      exact h.logEvent haccepted
    · exact h.logEvent_of_ne event hkey
  | restart rows => exact h.restart hanswers hunbroken

/-- One step leaves the log as it was logged exactly when it breaks no second. -/
theorem Sound.kept_iff {op : T.Op} (h : T.Sound s key) (hanswers : T.Answers s op) :
    T.Kept (T.step s op) key ↔ T.Unbroken key s op := by
  refine ⟨fun hkept => ?_, fun hunbroken => (h.step hanswers hunbroken).is_kept⟩
  cases op with
  | wait seconds => trivial
  | log key' event haccepted => trivial
  | restart rows => exact (h.restart_iff hanswers).mp hkept.log

/-- **A guild log survives** all restarts of a run exactly when none of them comes while the ring of
record numbers starts again within one second of the events that are kept. -/
theorem survives_iff (T : LogTable κ α) (key : κ) (ops : List T.Op)
    (hanswers : Run.Along T.step T.Answers start ops) :
    T.Survives key ops ↔ Run.Along T.step (T.Unbroken key) start ops := by
  have hstart : T.Sound start key := sound_start
  rw [Survives, and_iff_right hstart.is_kept]
  exact Run.along_iff_of_along (fun s => T.Sound s key) (fun _ _ h ha => h.kept_iff ha)
    (fun _ _ h ha hunbroken => h.step ha hunbroken) hstart hanswers

/-- The logs of the guilds, of which two records are kept. -/
def twoRecords : LogTable ℕ GuildEvent :=
  guildEventLog 2 (fun _ => true) (by decide) (by decide)

/-- Three members leave a guild within one second, and the server is restarted. -/
def threeLeave : List twoRecords.Op :=
  [.log 1 ⟨6, 11, 0, 0⟩ rfl, .log 1 ⟨6, 12, 0, 0⟩ rfl, .log 1 ⟨6, 13, 0, 0⟩ rfl,
    .restart [⟨1, ⟨1, 0, ⟨6, 12, 0, 0⟩⟩⟩, ⟨1, ⟨0, 0, ⟨6, 13, 0, 0⟩⟩⟩]]

theorem survives_iff_threeLeave :
    twoRecords.Survives 1 threeLeave ↔
      Run.Along twoRecords.step (twoRecords.Unbroken 1) start threeLeave :=
  survives_iff twoRecords 1 threeLeave ⟨trivial, trivial, trivial, ⟨by decide, by decide⟩, trivial⟩

/-- The two events are in the wrong order after the restart. -/
theorem not_survives_of_ring : Run.Along twoRecords.step twoRecords.Answers start threeLeave ∧
    ¬ twoRecords.Survives 1 threeLeave := by
  refine ⟨⟨trivial, trivial, trivial, ⟨by decide, by decide⟩, trivial⟩, ?_⟩
  rintro ⟨-, -, -, -, hkept, -⟩
  exact absurd hkept.log (by decide)

end LogTable

end IscServer.GuildLogs
