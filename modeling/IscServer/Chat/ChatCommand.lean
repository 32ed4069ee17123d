import IscServer.Chat.ChatCommandHelpers

/-!
# Chat Commands

`ChatCommandNode` (`game/Chat/ChatCommands/ChatCommand.h`, `ChatCommand.cpp`): the tree of the
commands and the search in it for what a player or the console has typed.

* A `std::map` ordered by `StringCompareLessI` is the list of its entries in that order. An iterator
  is the list of the entries from its position on, so that the end is the empty list.
* What a search does to the outside is the list of its events: the invocations of handlers and the
  messages. The texts of the messages are left out, their arguments are kept.
* A handler is an element of a type `ι`; what it returns, and whether it has sent an error message
  to the player, is a parameter.
* A failed `ASSERT` aborts the server: the result is then `none`.
-/

namespace IscServer.ChatCommands

/-- `ChatCommandNode`, without its help text: the full name, the handler, the permission that it
requires, whether the console may use it, and the sub-commands. -/
inductive ChatCommandNode (ι : Type) where
  | mk (name : List Char) (invoker : Option ι) (requiredPermission : ℕ) (allowConsole : Bool)
      (subCommands : List (List Char × ChatCommandNode ι))

/-- An entry of a map of commands. -/
abbrev Entry (ι : Type) := List Char × ChatCommandNode ι

/-- The part of `ChatHandler` that the visibility of commands depends on. -/
structure Caller where
  isConsole : Bool
  hasPermission : ℕ → Bool

namespace ChatCommandNode

variable {ι : Type}

/-- `_name`. -/
def name : ChatCommandNode ι → List Char
  | mk name _ _ _ _ => name

/-- `_invoker`. -/
def invoker : ChatCommandNode ι → Option ι
  | mk _ invoker _ _ _ => invoker

/-- `_permission.RequiredPermission`. -/
def requiredPermission : ChatCommandNode ι → ℕ
  | mk _ _ permission _ _ => permission

/-- `_permission.AllowConsole`. -/
def allowConsole : ChatCommandNode ι → Bool
  | mk _ _ _ allow _ => allow

/-- `_subCommands`. -/
def subCommands : ChatCommandNode ι → List (Entry ι)
  | mk _ _ _ _ subCommands => subCommands

/-- `IsInvokerVisible`. -/
def isInvokerVisible (who : Caller) (node : ChatCommandNode ι) : Bool :=
  if node.invoker.isNone then false
  else if who.isConsole && !node.allowConsole then false
  else who.hasPermission node.requiredPermission

mutual

/-- `IsVisible`. -/
def isVisible (who : Caller) : ChatCommandNode ι → Bool
  | mk name invoker permission allow subCommands =>
    isInvokerVisible who (mk name invoker permission allow subCommands) ||
      anyVisible who subCommands

/-- The loop of `HasVisibleSubCommands`. -/
def anyVisible (who : Caller) : List (Entry ι) → Bool
  | [] => false
  | e :: rest => isVisibleEntry who e || anyVisible who rest

/-- `IsVisible` of the command of an entry. -/
def isVisibleEntry (who : Caller) : Entry ι → Bool
  | (_, node) => isVisible who node

end

/-- `HasVisibleSubCommands`. -/
def hasVisibleSubCommands (who : Caller) (node : ChatCommandNode ι) : Bool :=
  anyVisible who node.subCommands

end ChatCommandNode

open ChatCommandNode

section Search

variable {ι : Type} (tolower : Char → ℕ) (who : Caller)

/-- A map of commands, and those of its sub-commands, are ordered by `StringCompareLessI`. -/
inductive Ordered : List (Entry ι) → Prop
  | mk {entries : List (Entry ι)} :
      (entries.Pairwise fun a b => stringCompareLessI tolower a.1 b.1 = true) →
      (∀ e ∈ entries, Ordered e.2.subCommands) → Ordered entries

/-- A **command tree**: the top level map, with the order of its maps. -/
structure CommandTree (ι : Type) where
  entries : List (Entry ι)
  ordered : Ordered tolower entries

/-- `map::lower_bound`. -/
def lowerBound (token : List Char) (map : List (Entry ι)) : List (Entry ι) :=
  map.dropWhile fun e => stringCompareLessI tolower e.1 token

/-- `FilteredCommandListIterator::_skip`: on to the next visible command, or to the end where a name
does not start with the token any more. -/
def skip (token : List Char) : List (Entry ι) → List (Entry ι)
  | [] => []
  | e :: rest =>
    if stringStartsWithI tolower e.1 token then
      if e.2.isVisible who then e :: rest else skip token rest
    else []

/-- The iterator that `FilteredCommandListIterator` is constructed as. -/
def filteredIterator (token : List Char) (map : List (Entry ι)) : List (Entry ι) :=
  skip tolower who token (lowerBound tolower token map)

theorem length_skip_le (token : List Char) (it : List (Entry ι)) :
    (skip tolower who token it).length ≤ it.length := by
  induction it with
  | nil => exact Nat.le_refl _
  | cons e rest ih =>
    rw [skip]
    split_ifs
    · exact Nat.le_refl _
    · exact Nat.le_succ_of_le ih
    · exact Nat.zero_le _

/-- The entries that an iterator still visits when it is incremented to its end. -/
def visited (token : List Char) : List (Entry ι) → List (Entry ι)
  | [] => []
  | e :: rest => e :: visited token (skip tolower who token rest)
termination_by it => it.length
decreasing_by exact Nat.lt_succ_of_le (length_skip_le tolower who token rest)

/-- What a command does to the outside. -/
inductive Event (ι : Type)
  /-- `LANG_SUBCMD_AMBIGUOUS` with the name of the command, or `LANG_CMD_AMBIGUOUS`. -/
  | ambiguous (cmd : Option (List Char)) (token : List Char)
  /-- `LANG_SUBCMDS_LIST_ENTRY` or `LANG_SUBCMDS_LIST_ENTRY_ELLIPSIS`. -/
  | listEntry (ellipsis : Bool) (name : List Char)
  /-- The handler of a command is called. -/
  | invoked (node : ChatCommandNode ι) (args : List Char)
  /-- `LogCommandUsage`. -/
  | logged (permission : ℕ) (cmdStr : List Char)
  /-- `SendCommandHelp` of a command. -/
  | help (node : ChatCommandNode ι)
  /-- `LANG_SUBCMD_INVALID` with the name of the command, or `LANG_CMD_INVALID`. -/
  | invalid (cmd : Option (List Char)) (token : List Char)
  /-- `LANG_AVAILABLE_CMDS`. -/
  | available

/-- How the search for a command ends. -/
inductive Descent (ι : Type)
  /-- `ASSERT(!token.empty())` has failed. -/
  | aborted
  /-- A token has several partial matches. -/
  | ambiguous (cmd : Option (ChatCommandNode ι)) (token : List Char) (matching : List (Entry ι))
  /-- No further token matches; the rest of the string is left. -/
  | stopped (cmd : Option (ChatCommandNode ι)) (oldTail : List Char)

/-- What one token selects from a map: nothing, the entry to go down to, or several. -/
inductive Selection (ι : Type)
  | nothing
  | entry (e : Entry ι)
  | several (matching : List (Entry ι))

/-- The two iterators of `TryExecuteCommand` and `SendCommandHelpFor`: the first match, unless it is
a partial one and a second one follows. -/
def select (token : List Char) (map : List (Entry ι)) : Selection ι :=
  match filteredIterator tolower who token map with
  | [] => .nothing
  | e :: rest =>
    if stringEqualI tolower e.1 token then .entry e
    else if (skip tolower who token rest).isEmpty then .entry e
    else .several (e :: visited tolower who token (skip tolower who token rest))

/-- The loop of `TryExecuteCommand`. -/
def descend (cmd : Option (ChatCommandNode ι)) (map : List (Entry ι)) (oldTail : List Char) :
    Descent ι :=
  if oldTail = [] then .stopped cmd oldTail
  else if _htoken : (tokenize oldTail).token = [] then .aborted
  else
    match select tolower who (tokenize oldTail).token map with
    | .nothing => .stopped cmd oldTail
    | .several matching => .ambiguous cmd (tokenize oldTail).token matching
    | .entry e => descend (some e.2) e.2.subCommands (tokenize oldTail).tail
termination_by oldTail.length
decreasing_by
  rw [tokenize_eq] at _htoken ⊢
  exact length_afterToken_lt _htoken

/-- The string without delimiters at its ends. -/
def trim (cmdStr : List Char) : List Char :=
  (cmdStr.dropWhile (· = commandDelimiter)).rdropWhile (· = commandDelimiter)

/-- The messages about several partial matches. -/
def listMatches (cmd : Option (ChatCommandNode ι)) (token : List Char)
    (matching : List (Entry ι)) : List (Event ι) :=
  .ambiguous (cmd.map name) token ::
    matching.map fun e => .listEntry (e.2.hasVisibleSubCommands who) e.1

/-- The end of `TryExecuteCommand`, where a command has matched. `run` is what a handler returns for
its argument, and whether it has sent an error message. -/
def invoke (run : ι → List Char → Bool × Bool) (cmd : ChatCommandNode ι) (oldTail cmdStr : List Char) :
    List (Event ι) :=
  match cmd.invoker with
  | some invoker =>
    if cmd.isInvokerVisible who then
      let (succeeded, sentError) := run invoker oldTail
      .invoked cmd oldTail ::
        if succeeded then if who.isConsole then [] else [.logged cmd.requiredPermission cmdStr]
        else if sentError then [] else [.help cmd]
    else [.help cmd]
  | none => [.help cmd]

/-- `TryExecuteCommand`: its events and what it returns. -/
def tryExecuteCommand (run : ι → List Char → Bool × Bool) (top : CommandTree tolower ι)
    (cmdStr : List Char) : Option (List (Event ι) × Bool) :=
  match descend tolower who none top.entries (trim cmdStr) with
  | .aborted => none
  | .ambiguous cmd token matching => some (listMatches who cmd token matching, true)
  | .stopped none _ => some ([], false)
  | .stopped (some cmd) oldTail => some (invoke who run cmd oldTail (trim cmdStr), true)

/-- How the search of `SendCommandHelpFor` ends. -/
inductive HelpDescent (ι : Type)
  | invalid (cmd : Option (ChatCommandNode ι)) (token : List Char)
  | ambiguous (cmd : Option (ChatCommandNode ι)) (token : List Char) (matching : List (Entry ι))
  | resolved (cmd : Option (ChatCommandNode ι)) (map : List (Entry ι))

/-- The loop of `SendCommandHelpFor` over the tokens. -/
def helpDescend (cmd : Option (ChatCommandNode ι)) (map : List (Entry ι)) :
    List (List Char) → HelpDescent ι
  | [] => .resolved cmd map
  | token :: tokens =>
    match select tolower who token map with
    | .nothing => .invalid cmd token
    | .several matching => .ambiguous cmd token matching
    | .entry e => helpDescend (some e.2) e.2.subCommands tokens

/-- The search of `SendCommandHelpFor`. -/
def resolveHelp (top : CommandTree tolower ι) (cmdStr : List Char) : HelpDescent ι :=
  helpDescend tolower who none top.entries (tokenizeAll cmdStr commandDelimiter)

/-- `SendCommandHelpFor`. -/
def sendCommandHelpFor (top : CommandTree tolower ι) (cmdStr : List Char) : List (Event ι) :=
  match resolveHelp tolower who top cmdStr with
  | .invalid none token => [.invalid none token]
  | .invalid (some cmd) token => [.help cmd, .invalid (some cmd.name) token]
  | .ambiguous cmd token matching => listMatches who cmd token matching
  | .resolved (some cmd) _ => [.help cmd]
  | .resolved none map =>
    if cmdStr.isEmpty then
      match filteredIterator tolower who [] map with
      | [] => []
      | it => .available :: (visited tolower who [] it).map fun e =>
        .listEntry (e.2.hasVisibleSubCommands who) e.2.name
    else [.invalid none cmdStr]

end Search

end IscServer.ChatCommands
