import IscServer.Chat.ChatCommand

/-!
# Commands Resolve Exactly

What the search for a command finds, in terms of the tree: for each leading token the visible child
of that name, or else the only visible child whose name starts with the token.

## Main results

* `visited_filteredIterator` — the filtering iterator visits the visible entries of the prefix.
* `select_spec` — what one token selects.
* `tryExecuteCommand_resolves` — at most one handler is called, that of the command at the end of the
  path, with the rest of the string.
-/

namespace IscServer.ChatCommands

open List

open ChatCommandNode PrefixOrder

variable {ι : Type} {tolower : Char → ℕ} {who : Caller} {map it : List (Entry ι)}
  {token str cmdStr : List Char} {e : Entry ι}

/-! ### What a token selects -/

/-- A visible child whose name starts with the token, ignoring case. -/
structure Matching (tolower : Char → ℕ) (who : Caller) (map : List (Entry ι)) (token : List Char)
    (e : Entry ι) : Prop where
  child : e ∈ map
  visible : e.2.isVisible who = true
  starts : token.map tolower <+: e.1.map tolower

/-- The name equals the token, ignoring case. -/
def Named (tolower : Char → ℕ) (token : List Char) (e : Entry ι) : Prop :=
  e.1.map tolower = token.map tolower

/-- **The choice for a token**: the visible child of that name, or else the only visible child whose
name starts with it. -/
def Chosen (tolower : Char → ℕ) (who : Caller) (map : List (Entry ι)) (token : List Char)
    (e : Entry ι) : Prop :=
  Matching tolower who map token e ∧
    (Named tolower token e ∨
      (∀ e', Matching tolower who map token e' → ¬ Named tolower token e') ∧
        ∀ e', Matching tolower who map token e' → e' = e)

/-- No visible child starts with the token. -/
def Unmatched (tolower : Char → ℕ) (who : Caller) (map : List (Entry ι)) (token : List Char) : Prop :=
  ∀ e, ¬ Matching tolower who map token e

/-- Several visible children start with the token, none of which has it as its name. -/
def Ambiguous (tolower : Char → ℕ) (who : Caller) (map : List (Entry ι)) (token : List Char) : Prop :=
  (∀ e, Matching tolower who map token e → ¬ Named tolower token e) ∧
    ∃ e e', Matching tolower who map token e ∧ Matching tolower who map token e' ∧ e ≠ e'

/-- The name of an entry without case. -/
def foldedName (tolower : Char → ℕ) (e : Entry ι) : List ℕ := e.1.map tolower

theorem Ordered.sortedBy (h : Ordered tolower map) : SortedBy (foldedName tolower) map := by
  obtain ⟨hpairwise, -⟩ := h
  exact hpairwise.imp fun hless => stringCompareLessI_iff.mp hless

theorem Ordered.sub (h : Ordered tolower map) (he : e ∈ map) : Ordered tolower e.2.subCommands := by
  obtain ⟨-, hsub⟩ := h
  exact hsub e he

/-- The choice is unique. -/
theorem Chosen.unique (h : SortedBy (foldedName tolower) map) {e' : Entry ι}
    (he : Chosen tolower who map token e) (he' : Chosen tolower who map token e') : e = e' := by
  rcases he.2 with hnamed | ⟨-, honly⟩
  · rcases he'.2 with hnamed' | ⟨hnone, -⟩
    · exact h.eq_of_key he.1.child he'.1.child (hnamed.trans hnamed'.symm)
    · exact absurd hnamed (hnone e he.1)
  · exact (honly e' he'.1).symm

/-! ### The filtering iterator -/

theorem visited_nil : visited tolower who token ([] : List (Entry ι)) = [] := by
  rw [visited]

theorem visited_cons (rest : List (Entry ι)) :
    visited tolower who token (e :: rest) =
      e :: visited tolower who token (skip tolower who token rest) := by
  rw [visited]

/-- From any position, the iterator visits the visible entries before the first one that does not
start with the token. -/
theorem visited_skip (it : List (Entry ι)) :
    visited tolower who token (skip tolower who token it) =
      (it.takeWhile fun e => stringStartsWithI tolower e.1 token).filter fun e =>
        e.2.isVisible who := by
  induction it with
  | nil => rw [skip, visited_nil]; rfl
  | cons e rest ih =>
    rw [skip, takeWhile_cons]
    by_cases hstarts : stringStartsWithI tolower e.1 token = true
    · rw [if_pos hstarts, if_pos hstarts, filter_cons]
      by_cases hvisible : e.2.isVisible who = true
      · rw [if_pos hvisible, if_pos hvisible, visited_cons, ih]
      · rw [if_neg hvisible, if_neg hvisible, ih]
    · rw [if_neg hstarts, if_neg hstarts, visited_nil]
      rfl

section

variable (h : SortedBy (foldedName tolower) map)
include h

/-- **The filtering iterator** visits the visible entries of the prefix, in order. -/
theorem visited_filteredIterator (token : List Char) :
    visited tolower who token (filteredIterator tolower who token map) =
      map.filter fun e => stringStartsWithI tolower e.1 token && e.2.isVisible who := by
  rw [filteredIterator, visited_skip, lowerBound,
    (@takeWhile_prefix_lowerBound _ _ _ (token.map tolower) (foldedName tolower))
      (fun _ => stringStartsWithI_iff) (fun _ => stringCompareLessI_iff) h, filter_filter]
  congr 1
  funext e
  exact Bool.and_comm _ _

theorem mem_visited_iff :
    e ∈ visited tolower who token (filteredIterator tolower who token map) ↔
      Matching tolower who map token e := by
  rw [visited_filteredIterator h, mem_filter, Bool.and_eq_true, stringStartsWithI_iff]
  exact ⟨fun ⟨hmem, hstarts, hvisible⟩ => ⟨hmem, hvisible, hstarts⟩,
    fun ⟨hmem, hvisible, hstarts⟩ => ⟨hmem, hstarts, hvisible⟩⟩

/-- **What one token selects.** -/
theorem select_spec (token : List Char) :
    match select tolower who token map with
    | .nothing => Unmatched tolower who map token
    | .entry e => Chosen tolower who map token e
    | .several matching => Ambiguous tolower who map token ∧
        ∀ e, e ∈ matching ↔ Matching tolower who map token e := by
  have hmem := fun e => @mem_visited_iff ι tolower who map token e h
  have hsorted : SortedBy (foldedName tolower)
      (visited tolower who token (filteredIterator tolower who token map)) := by
    rw [visited_filteredIterator h]
    exact h.filter _
  rw [select]
  cases hit : filteredIterator tolower who token map with
  | nil =>
    rw [hit, visited_nil] at hmem
    exact fun e he => not_mem_nil ((hmem e).mpr he)
  | cons first rest =>
    rw [hit, visited_cons] at hmem hsorted
    have hfirst := (hmem first).mp mem_cons_self
    dsimp only
    split_ifs with hequal hlast
    · exact ⟨hfirst, Or.inl (stringEqualI_iff.mp hequal)⟩
    · rw [isEmpty_iff.mp hlast, visited_nil] at hmem
      have honly : ∀ e', Matching tolower who map token e' → e' = first := fun e' he' =>
        mem_singleton.mp ((hmem e').mpr he')
      refine ⟨hfirst, Or.inr ⟨fun e' he' hnamed => hequal ?_, honly⟩⟩
      rw [honly e' he'] at hnamed
      exact stringEqualI_iff.mpr hnamed
    · obtain ⟨second, more, hskip⟩ := exists_cons_of_ne_nil (mt isEmpty_iff.mpr hlast)
      obtain ⟨habove, -⟩ := pairwise_cons.mp hsorted
      have hin : second ∈ visited tolower who token (skip tolower who token rest) := by
        rw [hskip, visited_cons]
        exact mem_cons_self
      refine ⟨⟨fun e' he' hnamed => ?_, first, second, hfirst,
        (hmem second).mp (mem_cons_of_mem _ hin), fun heq => ?_⟩, hmem⟩
      · rcases mem_cons.mp ((hmem e').mpr he') with rfl | hlater
        · exact hequal (stringEqualI_iff.mpr hnamed)
        · -- a later entry is above the first one, which starts with the token
          have hlt : foldedName tolower first < token.map tolower :=
            lt_of_lt_of_eq (habove e' hlater) hnamed
          exact not_lt.mpr (le_of_starts hfirst.starts) hlt
      · exact lt_irrefl _ (heq ▸ habove second hin)

end

/-! ### The path -/

/-- **The path of a string**: the choices for its leading tokens, and the rest of the string. -/
inductive Path (tolower : Char → ℕ) (who : Caller) :
    List (Entry ι) → List Char → List (Entry ι) → List Char → Prop
  | nil {map : List (Entry ι)} {str : List Char} : Path tolower who map str [] str
  | cons {map path : List (Entry ι)} {str rest : List Char} {e : Entry ι} :
      str ≠ [] → Chosen tolower who map (firstToken str) e →
      Path tolower who e.2.subCommands (afterToken str) path rest →
      Path tolower who map str (e :: path) rest

/-- The map in which the token after a path is looked up. -/
def mapAfter (map path : List (Entry ι)) : List (Entry ι) :=
  match path.getLast? with
  | none => map
  | some e => e.2.subCommands

/-- The command at the end of a path. -/
def commandAfter (cmd : Option (ChatCommandNode ι)) (path : List (Entry ι)) :
    Option (ChatCommandNode ι) :=
  match path.getLast? with
  | none => cmd
  | some e => some e.2

theorem mapAfter_cons (map path : List (Entry ι)) (e : Entry ι) :
    mapAfter map (e :: path) = mapAfter e.2.subCommands path := by
  rw [mapAfter, mapAfter, List.getLast?_cons]
  cases path.getLast? with
  | none => rfl
  | some last => rfl

variable (cmd : Option (ChatCommandNode ι))

theorem commandAfter_cons (path : List (Entry ι)) (e : Entry ι) : commandAfter cmd (e :: path) = commandAfter (some e.2) path := by
  rw [commandAfter, commandAfter, List.getLast?_cons]
  cases path.getLast? with
  | none => rfl
  | some last => rfl

/-- How the loop over the tokens ends after a path. -/
inductive Ends (tolower : Char → ℕ) (who : Caller) (map : List (Entry ι))
    (cmd : Option (ChatCommandNode ι)) (rest : List Char) : Descent ι → Prop
  | stopped : rest = [] ∨ Unmatched tolower who map (firstToken rest) →
      Ends tolower who map cmd rest (.stopped cmd rest)
  | ambiguous {matching : List (Entry ι)} : rest ≠ [] →
      Ambiguous tolower who map (firstToken rest) →
      (∀ e, e ∈ matching ↔ Matching tolower who map (firstToken rest) e) →
      Ends tolower who map cmd rest (.ambiguous cmd (firstToken rest) matching)

/-- **The loop over the tokens** follows the path. -/
theorem descend_spec (hordered : Ordered tolower map) (hstripped : Stripped str)
    (cmd : Option (ChatCommandNode ι)) :
    ∃ path rest, Path tolower who map str path rest ∧
      Ends tolower who (mapAfter map path) (commandAfter cmd path) rest
        (descend tolower who cmd map str) := by
  induction hn : str.length using Nat.strong_induction_on generalizing str map cmd with
  | _ n ih =>
  rw [descend, tokenize_eq]
  split_ifs with hempty htoken
  · exact ⟨[], str, Path.nil, Ends.stopped (Or.inl hempty)⟩
  · exact absurd htoken (hstripped.firstToken_ne_nil hempty)
  have hselect := (@select_spec _ _ who) hordered.sortedBy (firstToken str)
  cases hcase : select tolower who (firstToken str) map with
  | nothing =>
    rw [hcase] at hselect
    exact ⟨[], str, Path.nil, Ends.stopped (Or.inr hselect)⟩
  | several matching =>
    rw [hcase] at hselect
    exact ⟨[], str, Path.nil, Ends.ambiguous hempty hselect.1 hselect.2⟩
  | entry e =>
    rw [hcase] at hselect
    obtain ⟨path, rest, hpath, hends⟩ := ih (afterToken str).length
      (hn ▸ length_afterToken_lt htoken) (hordered.sub hselect.1.child)
      (stripped_afterToken str) (some e.2) rfl
    refine ⟨e :: path, rest, Path.cons hempty hselect hpath, ?_⟩
    rw [mapAfter_cons, commandAfter_cons]
    exact hends

/-! ### The help -/

theorem select_of_chosen (h : SortedBy (foldedName tolower) map)
    (hchosen : Chosen tolower who map token e) : select tolower who token map = .entry e := by
  have hselect := (@select_spec _ _ who) h token
  cases hcase : select tolower who token map with
  | nothing =>
    rw [hcase] at hselect
    exact absurd hchosen.1 (hselect e)
  | entry e' =>
    rw [hcase] at hselect
    rw [Chosen.unique h hselect hchosen]
  | several matching =>
    rw [hcase] at hselect
    obtain ⟨⟨hnone, a, b, ha, hb, hne⟩, -⟩ := hselect
    rcases hchosen.2 with hnamed | ⟨-, honly⟩
    · exact absurd hnamed (hnone e hchosen.1)
    · exact absurd ((honly a ha).trans (honly b hb).symm) hne

/-- The loop over all tokens of a string that is matched to its end goes down the same path. -/
theorem helpDescend_of_path {path : List (Entry ι)} {rest : List Char}
    (hpath : Path tolower who map str path rest) (hrest : rest = [])
    (hordered : Ordered tolower map) (hstripped : Stripped str) (cmd : Option (ChatCommandNode ι)) :
    helpDescend tolower who cmd map (tokenizeAll str commandDelimiter) =
      .resolved (commandAfter cmd path) (mapAfter map path) := by
  induction hpath generalizing cmd with
  | nil =>
    rw [hrest, tokenizeAll_nil]
    rfl
  | cons hne hchosen _ ih =>
    rw [tokenizeAll_stripped hstripped hne, helpDescend,
      select_of_chosen hordered.sortedBy hchosen, mapAfter_cons, commandAfter_cons]
    exact ih hrest (hordered.sub hchosen.1.child) (stripped_afterToken _) _

/-! ### Execution -/

theorem trim_eq (cmdStr : List Char) :
    trim cmdStr = (cmdStr.dropWhile (!inToken ·)).rdropWhile (!inToken ·) := by
  have hspace : (fun c : Char => decide (c = commandDelimiter)) = fun c => !inToken c := by
    simp [inToken]
  rw [trim, hspace]

theorem stripped_trim (cmdStr : List Char) : Stripped (trim cmdStr) := by
  rw [trim_eq]
  exact Stripped.prefix (dropWhile_idempotent _ cmdStr) ( rdropWhile_prefix _ _)

theorem tokenizeAll_trim (cmdStr : List Char) :
    tokenizeAll (trim cmdStr) commandDelimiter = tokenizeAll cmdStr commandDelimiter := by
  rw [trim_eq, tokenizeAll_rdropWhile, tokenizeAll_dropWhile]

/-- The calls of handlers among the events: the command, and the argument of its handler. -/
def invocations (events : List (Event ι)) : List (ChatCommandNode ι × List Char) :=
  events.filterMap fun event =>
    match event with
    | .invoked node args => some (node, args)
    | _ => none

theorem invocations_listMatches (matching : List (Entry ι)) :
    invocations (listMatches who cmd token matching) = [] := by
  rw [invocations, filterMap_eq_nil_iff]
  intro event hevent
  rcases mem_cons.mp hevent with rfl | hevent
  · rfl
  · obtain ⟨e, -, rfl⟩ := mem_map.mp hevent
    rfl

theorem invocations_invoke (run : ι → List Char → Bool × Bool) (cmd : ChatCommandNode ι)
    (oldTail : List Char) : invocations (invoke who run cmd oldTail cmdStr) =
      if cmd.isInvokerVisible who then [(cmd, oldTail)] else [] := by
  rw [invoke]
  cases hinvoker : cmd.invoker with
  | none =>
    have hhidden : ¬ cmd.isInvokerVisible who = true := by simp [isInvokerVisible, hinvoker]
    rw [if_neg hhidden]
    rfl
  | some invoker =>
    dsimp only
    split_ifs <;> rfl

/-- The handlers that are called when the search has ended with a command and a rest. -/
def callsAt (who : Caller) (cmd : Option (ChatCommandNode ι)) (rest : List Char) :
    List (ChatCommandNode ι × List Char) :=
  match cmd with
  | none => []
  | some cmd => if cmd.isInvokerVisible who then [(cmd, rest)] else []

theorem length_callsAt_le (rest : List Char) : (callsAt who cmd rest).length ≤ 1 := by
  cases cmd with
  | none => exact Nat.zero_le _
  | some cmd =>
    rw [callsAt]
    split_ifs
    · exact Nat.le_refl _
    · exact Nat.zero_le _

theorem isInvokerVisible_of_mem_callsAt {cmd : Option (ChatCommandNode ι)} {rest : List Char}
    {call : ChatCommandNode ι × List Char} (h : call ∈ callsAt who cmd rest) :
    call.1.isInvokerVisible who = true := by
  cases cmd with
  | none => exact absurd h not_mem_nil
  | some cmd =>
    rw [callsAt] at h
    split_ifs at h with hvisible
    · rw [mem_singleton.mp h]
      exact hvisible
    · exact absurd h not_mem_nil

/-- What is executed when the loop over the tokens has ended. -/
theorem tryExecuteCommand_of_ends {run : ι → List Char → Bool × Bool} {top : CommandTree tolower ι}
    {cmd : Option (ChatCommandNode ι)} {rest : List Char}
    (hends : Ends tolower who map cmd rest (descend tolower who none top.entries (trim cmdStr))) :
    ∃ events handled, tryExecuteCommand tolower who run top cmdStr = some (events, handled) ∧
      ((rest = [] ∨ Unmatched tolower who map (firstToken rest)) ∧
          invocations events = callsAt who cmd rest ∨
        Ambiguous tolower who map (firstToken rest) ∧ invocations events = []) := by
  rw [tryExecuteCommand]
  generalize descend tolower who none top.entries (trim cmdStr) = descent at hends
  cases hends with
  | stopped hstop =>
    cases cmd with
    | none => exact ⟨[], false, rfl, Or.inl ⟨hstop, rfl⟩⟩
    | some cmd =>
      exact ⟨_, true, rfl, Or.inl ⟨hstop, invocations_invoke run cmd rest⟩⟩
  | ambiguous _ hambiguous _ =>
    exact ⟨_, true, rfl, Or.inr ⟨hambiguous, invocations_listMatches cmd _⟩⟩

/-- **Commands resolve exactly.** No `ASSERT` fires. The string leads along a path of choices, one
for each leading token, that ends where no visible child starts with the next token, where the
string ends, or at an ambiguous token. In the last case nothing is called, and otherwise the handler
of the command at the end of the path is called exactly when it is visible for the caller, with the
rest of the string. A string that is matched to its end is resolved in the same way by
`SendCommandHelpFor`. -/
theorem tryExecuteCommand_resolves (tolower : Char → ℕ) (who : Caller)
    (run : ι → List Char → Bool × Bool) (top : CommandTree tolower ι) (cmdStr : List Char) :
    ∃ events handled path rest,
      tryExecuteCommand tolower who run top cmdStr = some (events, handled) ∧
      (invocations events).length ≤ 1 ∧
      (∀ call ∈ invocations events, call.1.isInvokerVisible who = true) ∧
      Path tolower who top.entries (trim cmdStr) path rest ∧
      ((rest = [] ∨ Unmatched tolower who (mapAfter top.entries path) (firstToken rest)) ∧
          invocations events = callsAt who (commandAfter none path) rest ∨
        Ambiguous tolower who (mapAfter top.entries path) (firstToken rest) ∧
          invocations events = []) ∧
      (rest = [] → resolveHelp tolower who top cmdStr =
        .resolved (commandAfter none path) (mapAfter top.entries path)) := by
  obtain ⟨path, rest, hpath, hends⟩ :=
    (@descend_spec _ _ who) top.ordered (stripped_trim cmdStr) none
  obtain ⟨events, handled, hrun, hcalls⟩ := (@tryExecuteCommand_of_ends _ _ _ _ _ run) hends
  refine ⟨events, handled, path, rest, hrun, ?_, fun call hcall => ?_, hpath, hcalls,
    fun hrest => ?_⟩
  · rcases hcalls with ⟨-, hcalls⟩ | ⟨-, hcalls⟩
    · rw [hcalls]
      exact length_callsAt_le _ _
    · rw [hcalls]
      exact Nat.zero_le _
  · rcases hcalls with ⟨-, hcalls⟩ | ⟨-, hcalls⟩
    · exact isInvokerVisible_of_mem_callsAt (hcalls ▸ hcall)
    · exact absurd (hcalls ▸ hcall) not_mem_nil
  · rw [resolveHelp, ← tokenizeAll_trim]
    exact helpDescend_of_path hpath hrest top.ordered (stripped_trim cmdStr) none

end IscServer.ChatCommands
