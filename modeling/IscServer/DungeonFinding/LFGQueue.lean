import Mathlib
import IscServer.Library.Traced

/-!
# The Dungeon Finder Queue

`LFGQueue` keeps the waiting players and groups of a team. `FindGroups` takes the new arrivals one
by one and searches for a combination with the waiting ones that makes a full group; the search is
cut short by a cache of compatibilities, keyed by the decimal guids joined with `|`. A match
becomes a proposal of `LFGMgr`, and the proposal's entries leave the two lists until it ends.

* A guid is its raw value; the role map of an entry is a list in the order of the map.
* `judge` is the part of `CheckCompatibility` that only reads: it says what becomes of a
  combination. What `LFGMgr` answers (`AllQueued`, `IsLfgGroup`, `HasIgnore`) is an oracle that
  may answer differently after every step.
* Every change of the state is a `QueueOp`, one of the functions of the source that write, and the
  model logs them (`Traced`). The log is not part of the server.

Texts for the log, waiting times and what a proposal holds beside its entries and players (leader,
dungeon, deadline) are left out: no modelled function reads them.
-/

namespace IscServer.DungeonFinding

/-- The raw value of an `ObjectGuid`. -/
abbrev Guid := ℕ

/-- `ObjectGuid::IsGroup`: the high part is `HighGuid::Group`. -/
def isGroup (guid : Guid) : Bool := guid / 0x1000000000000 % 0x10000 = 0x1F50

/-- `LfgRolesMap`: the role bits of each player, in the order of the map. -/
abbrev LfgRolesMap := List (Guid × ℕ)

/-- A key of the cache of compatibilities. -/
abbrev Key := List Char

/-! ### Roles -/

/-- `PLAYER_ROLE_TANK`. -/
def roleTank : ℕ := 0x02

/-- `PLAYER_ROLE_HEALER`. -/
def roleHealer : ℕ := 0x04

/-- `PLAYER_ROLE_DAMAGE`. -/
def roleDamage : ℕ := 0x08

/-- The roles of a player without `PLAYER_ROLE_LEADER`. -/
def withoutLeader (role : ℕ) : ℕ := role &&& 0xFE

/-- The loop of `CheckGroupRoles` over the players after `before`. A player with one role is
counted, up to the number needed; a player with several roles is tried without each of them. -/
def scanRoles (retry : LfgRolesMap → Option LfgRolesMap) :
    LfgRolesMap → LfgRolesMap → ℕ → ℕ → ℕ → Option LfgRolesMap
  | before, [], damage, healer, tank =>
    if tank + healer + damage = before.length % 256 then some before else none
  | before, (player, mask) :: rest, damage, healer, tank =>
    let role := withoutLeader mask
    let attempt := fun flag =>
      if role &&& flag ≠ 0 then retry (before ++ (player, mask - flag) :: rest) else none
    let next := scanRoles retry (before ++ [(player, mask)]) rest
    if role = 0 then none
    else if role = roleDamage then
      if damage = 3 then none else next (damage + 1) healer tank
    else if role = roleHealer then
      if healer = 1 then none else next damage (healer + 1) tank
    else if role = roleTank then
      if tank = 1 then none else next damage healer (tank + 1)
    else
      match (attempt roleDamage).or ((attempt roleHealer).or (attempt roleTank)) with
      | some roles => some roles
      | none => next damage healer tank

/-- `CheckGroupRoles` with a bound on the depth of the recursion. -/
def checkRoles : ℕ → LfgRolesMap → Option LfgRolesMap
  | 0, _ => none
  | fuel + 1, roles =>
    if roles = [] then none else scanRoles (checkRoles fuel) [] roles 0 0 0

/-- `LFGMgr::CheckGroupRoles`: the roles assigned, if each player can get one. Every call of the
recursion takes a role away, so the bound is not reached. -/
def checkGroupRoles (roles : LfgRolesMap) : Option LfgRolesMap :=
  checkRoles ((roles.map Prod.snd).sum + 1) roles

/-- The roles after `CheckGroupRoles`, whatever it returned. -/
def assignRoles (roles : LfgRolesMap) : LfgRolesMap := (checkGroupRoles roles).getD roles

/-- `roles[player] = role` in the order of the map. -/
def insertRole (player role : ℕ) : LfgRolesMap → LfgRolesMap
  | [] => [(player, role)]
  | entry :: roles =>
    if player < entry.1 then (player, role) :: entry :: roles
    else if player = entry.1 then (player, role) :: roles
    else entry :: insertRole player role roles

/-! ### The state -/

/-- `LfgCompatibility`. -/
inductive LfgCompatibility
  | pending
  | wrongGroupSize
  | tooMuchPlayers
  | multipleLfgGroups
  | hasIgnores
  | noRoles
  | noDungeons
  | withLessPlayers
  | badStates
  | matched
  deriving DecidableEq, Repr

/-- Not under `LFG_COMPATIBLES_WITH_LESS_PLAYERS` in the order of the enumeration. -/
def LfgCompatibility.compatible : LfgCompatibility → Bool
  | .withLessPlayers | .badStates | .matched => true
  | _ => false

/-- `LfgCompatibilityData`. -/
structure LfgCompatibilityData where
  compatibility : LfgCompatibility
  roles : LfgRolesMap
  deriving DecidableEq, Repr

/-- `LfgQueueData`. -/
structure LfgQueueData where
  joinTime : ℕ
  tanks : ℕ
  healers : ℕ
  dps : ℕ
  dungeons : List ℕ
  roles : LfgRolesMap
  bestCompatible : Key
  deriving DecidableEq, Repr

/-- `LfgProposalPlayer`, under its guid: the role and the original group (0 if none). -/
structure LfgProposalPlayer where
  guid : Guid
  role : ℕ
  group : Guid
  deriving DecidableEq, Repr

/-- `LfgProposal`. -/
structure LfgProposal where
  queues : List Guid
  players : List LfgProposalPlayer
  deriving DecidableEq, Repr

/-- `LFGQueue`. -/
structure LFGQueue where
  queueDataStore : Guid → Option LfgQueueData
  compatibleMapStore : AList (fun _ : Key => LfgCompatibilityData)
  newToQueueStore : List Guid
  currentQueueStore : List Guid

/-- A queue with the proposals of `LFGMgr`. -/
structure QueueState extends LFGQueue where
  lfgProposalId : ℕ
  proposalsStore : AList (fun _ : ℕ => LfgProposal)

/-- The entries in live proposals. -/
def QueueState.inProposals (s : QueueState) : List Guid :=
  s.proposalsStore.entries.flatMap fun entry => entry.2.queues

/-! ### Keys -/

/-- The decimal form of a guid. -/
def sguid (guid : Guid) : Key := Nat.toDigits 10 guid

/-- `ConcatenateGuids`: the guids in order, each once, joined with `|`. -/
def concatenateGuids (check : List Guid) : Key :=
  List.intercalate ['|'] ((check.dedup.insertionSort (· ≤ ·)).map sguid)

/-- The number of guids in a key. -/
def keySize (key : Key) : ℕ := if key = [] then 0 else key.count '|' + 1

/-! ### The best compatible group -/

/-- `--` on a `uint8`. -/
def decrement (n : ℕ) : ℕ := (n + 255) % 256

/-- A role taken off the roles needed. -/
def takeRole (data : LfgQueueData) (role : ℕ) : LfgQueueData :=
  if role &&& roleTank ≠ 0 then { data with tanks := decrement data.tanks }
  else if role &&& roleHealer ≠ 0 then { data with healers := decrement data.healers }
  else { data with dps := decrement data.dps }

/-- `LFGQueue::UpdateBestCompatibleInQueue`: a key with more guids replaces the stored one. -/
def updateBestCompatible (key : Key) (roles : LfgRolesMap) (data : LfgQueueData) : LfgQueueData :=
  if key.count '|' + 1 ≤ keySize data.bestCompatible then data
  else
    (roles.map Prod.snd).foldl takeRole
      { data with bestCompatible := key, tanks := 1, healers := 1, dps := 3 }

/-- The entries of the cache in the order of their keys. -/
def cacheEntries (cache : AList (fun _ : Key => LfgCompatibilityData)) :
    List (Sigma fun _ : Key => LfgCompatibilityData) :=
  cache.entries.insertionSort fun a b => a.1 ≤ b.1

/-- `LFGQueue::FindBestCompatibleInQueue`: the keys that contain the decimal form of the guid are
tried in order. -/
def findBestCompatible (cache : AList (fun _ : Key => LfgCompatibilityData)) (guid : Guid)
    (data : LfgQueueData) : LfgQueueData :=
  (cacheEntries cache).foldl
    (fun data entry =>
      if entry.2.compatibility = .withLessPlayers ∧ sguid guid <:+: entry.1 then
        updateBestCompatible entry.1 entry.2.roles data
      else data) data

/-! ### The functions that write -/

/-- `LFGQueue::SetCompatibles`: the roles stored for the key stay. -/
def setCompatibles (key : Key) (compatibles : LfgCompatibility)
    (cache : AList (fun _ : Key => LfgCompatibilityData)) :
    AList (fun _ : Key => LfgCompatibilityData) :=
  cache.insert key ⟨compatibles, ((cache.lookup key).map LfgCompatibilityData.roles).getD []⟩

/-- `LFGQueue::RemoveFromCompatibles`: the keys that contain the decimal form of the guid. -/
def removeFromCompatibles (guid : Guid) (cache : AList (fun _ : Key => LfgCompatibilityData)) :
    AList (fun _ : Key => LfgCompatibilityData) :=
  (cache.keys.filter fun key => sguid guid <:+: key).foldl (fun cache key => cache.erase key) cache

/-- `LFGQueue::RemoveFromQueue`. -/
def removeFromQueue (guid : Guid) (s : QueueState) : QueueState :=
  let cache := removeFromCompatibles guid s.compatibleMapStore
  { s with
    newToQueueStore := s.newToQueueStore.filter (· ≠ guid)
    currentQueueStore := s.currentQueueStore.filter (· ≠ guid)
    compatibleMapStore := cache
    queueDataStore := fun other =>
      if other = guid then none
      else (s.queueDataStore other).map fun data =>
        if sguid guid <:+: data.bestCompatible then
          findBestCompatible cache other { data with bestCompatible := [] }
        else data }

/-- A combination of entries with a place left: the best group of each of them, then
`LFGQueue::SetCompatibilityData`. -/
def setWithLess (check : List Guid) (roles : LfgRolesMap) (s : QueueState) : QueueState :=
  { s with
    queueDataStore := fun guid =>
      if guid ∈ check then
        (s.queueDataStore guid).map (updateBestCompatible (concatenateGuids check) roles)
      else s.queueDataStore guid
    compatibleMapStore :=
      s.compatibleMapStore.insert (concatenateGuids check) ⟨.withLessPlayers, roles⟩ }

/-- The end of `CheckCompatibility` for a match: the entries leave the lists, `LFGMgr::AddProposal`
stores the proposal, and the match is cached. -/
def addProposal (check : List Guid) (players : List LfgProposalPlayer) (s : QueueState) :
    QueueState :=
  let id := (s.lfgProposalId + 1) % UInt32.size
  { s with
    newToQueueStore := s.newToQueueStore.filter (· ∉ check)
    currentQueueStore := s.currentQueueStore.filter (· ∉ check)
    lfgProposalId := id
    proposalsStore := s.proposalsStore.insert id ⟨check, players⟩
    compatibleMapStore := setCompatibles (concatenateGuids check) .matched s.compatibleMapStore }

/-- The changes that `UpdateQueueTimers` makes: entries without a best group look for one. -/
def updateQueueTimers (s : QueueState) : QueueState :=
  { s with
    queueDataStore := fun guid => (s.queueDataStore guid).map fun data =>
      if data.bestCompatible = [] then findBestCompatible s.compatibleMapStore guid data
      else data }

/-- The writing functions of the queue. -/
inductive QueueOp
  /-- `QueueDataStore[guid] = LfgQueueData(...)` -/
  | setQueueData (guid : Guid) (joinTime : ℕ) (dungeons : List ℕ) (roles : LfgRolesMap)
  /-- `AddToNewQueue` -/
  | addToNewQueue (guid : Guid)
  /-- `RemoveFromNewQueue` -/
  | removeFromNewQueue (guid : Guid)
  /-- `AddToCurrentQueue` -/
  | addToCurrentQueue (guid : Guid)
  /-- `AddToFrontCurrentQueue` -/
  | addToFrontCurrentQueue (guid : Guid)
  /-- `RemoveFromQueue` -/
  | removeFromQueue (guid : Guid)
  /-- `SetCompatibles` for a combination that is no match -/
  | setCompatibles (check : List Guid) (compatibles : LfgCompatibility)
  /-- `UpdateBestCompatibleInQueue` and `SetCompatibilityData` -/
  | setWithLess (check : List Guid) (roles : LfgRolesMap)
  /-- the proposal of a match -/
  | addProposal (check : List Guid) (players : List LfgProposalPlayer)
  /-- `SetCompatibles` of `FindNewGroups`: bad states have become a match -/
  | assumeMatch (check : List Guid)
  /-- `UpdateQueueTimers` -/
  | updateQueueTimers
  /-- `ProposalsStore.erase` -/
  | eraseProposal (id : ℕ)

/-- What a writing function does. -/
def applyOp (s : QueueState) : QueueOp → QueueState
  | .setQueueData guid joinTime dungeons roles =>
    { s with
      queueDataStore := fun other =>
        if other = guid then some ⟨joinTime, 1, 1, 3, dungeons, roles, []⟩
        else s.queueDataStore other }
  | .addToNewQueue guid => { s with newToQueueStore := s.newToQueueStore ++ [guid] }
  | .removeFromNewQueue guid =>
    { s with newToQueueStore := s.newToQueueStore.filter (· ≠ guid) }
  | .addToCurrentQueue guid => { s with currentQueueStore := s.currentQueueStore ++ [guid] }
  | .addToFrontCurrentQueue guid => { s with currentQueueStore := guid :: s.currentQueueStore }
  | .removeFromQueue guid => removeFromQueue guid s
  | .setCompatibles check compatibles =>
    { s with
      compatibleMapStore :=
        setCompatibles (concatenateGuids check) compatibles s.compatibleMapStore }
  | .setWithLess check roles => setWithLess check roles s
  | .addProposal check players => addProposal check players s
  | .assumeMatch check =>
    { s with
      compatibleMapStore :=
        setCompatibles (concatenateGuids check) .matched s.compatibleMapStore }
  | .updateQueueTimers => updateQueueTimers s
  | .eraseProposal id => { s with proposalsStore := s.proposalsStore.erase id }

/-- A queue with the log of what was written. -/
abbrev Finder := Traced QueueState QueueOp

/-- Write and log. -/
def Finder.write (s : Finder) (op : QueueOp) : Finder := s.emit applyOp op

/-! ### What becomes of a combination -/

/-- What `LFGMgr` answers. -/
structure Answers where
  allQueued : List Guid → Bool
  isLfgGroup : Guid → Bool
  hasIgnore : Guid → Guid → Bool

/-- The roles of an entry. -/
def rolesOf (q : LFGQueue) (guid : Guid) : LfgRolesMap :=
  ((q.queueDataStore guid).map LfgQueueData.roles).getD []

/-- The dungeons of an entry. -/
def dungeonsOf (q : LFGQueue) (guid : Guid) : List ℕ :=
  ((q.queueDataStore guid).map LfgQueueData.dungeons).getD []

/-- The first loop of `CheckCompatibility`: the number of players and of dungeon finder groups,
counted until one of them is too high, or an entry without data. -/
def countMembers (answers : Answers) (q : LFGQueue) : List Guid → ℕ → ℕ → Except Guid (ℕ × ℕ)
  | [], numPlayers, numLfgGroups => .ok (numPlayers, numLfgGroups)
  | guid :: check, numPlayers, numLfgGroups =>
    if numLfgGroups < 2 ∧ numPlayers ≤ 5 then
      match q.queueDataStore guid with
      | none => .error guid
      | some data =>
        countMembers answers q check ((numPlayers + data.roles.length) % 256)
          (if answers.isLfgGroup guid then numLfgGroups + 1 else numLfgGroups)
    else .ok (numPlayers, numLfgGroups)

/-- The second loop: the roles of all players that nobody before them ignores. -/
def mergeRoles (answers : Answers) (q : LFGQueue) (check : List Guid) : LfgRolesMap :=
  (check.flatMap (rolesOf q)).foldl
    (fun roles entry =>
      if roles.any fun other => other.1 != entry.1 && answers.hasIgnore entry.1 other.1 then roles
      else insertRole entry.1 entry.2 roles) []

/-- The dungeons that all entries have chosen. -/
def commonDungeons (q : LFGQueue) : List Guid → List ℕ
  | [] => []
  | guid :: check =>
    check.foldl (fun dungeons other => dungeons.filter (· ∈ dungeonsOf q other))
      (dungeonsOf q guid)

/-- `proposalGroups`: the group of a player is that of the last entry it belongs to. -/
def proposalGroup (q : LFGQueue) (check : List Guid) (player : Guid) : Guid :=
  match check.reverse.find? fun guid => (rolesOf q guid).any fun entry => entry.1 = player with
  | some guid => if isGroup guid then guid else 0
  | none => 0

/-- What becomes of a combination. -/
inductive Verdict
  | missing (guid : Guid)
  | incompatible (compatibles : LfgCompatibility)
  | withLess (roles : LfgRolesMap)
  | badStates
  | proposal (players : List LfgProposalPlayer)

/-- The end of `CheckCompatibility` for compatible entries: too few players, or not all of them
queued, or a proposal. -/
def conclude (answers : Answers) (q : LFGQueue) (check : List Guid) (numPlayers : ℕ)
    (roles : LfgRolesMap) : Verdict :=
  if numPlayers ≠ 5 then .withLess roles
  else if answers.allQueued check then
    .proposal (roles.map fun entry => ⟨entry.1, entry.2, proposalGroup q check entry.1⟩)
  else .badStates

/-- The checks of `CheckCompatibility` on a combination of the right size, after the one on all
entries but the first. -/
def judge (answers : Answers) (q : LFGQueue) (check : List Guid) : Verdict :=
  match countMembers answers q check 0 0 with
  | .error guid => .missing guid
  | .ok (numPlayers, numLfgGroups) =>
    if check.length = 1 ∧ numPlayers ≠ 5 then
      .withLess (assignRoles (check.flatMap (rolesOf q)))
    else if numLfgGroups > 1 then .incompatible .multipleLfgGroups
    else if numPlayers > 5 then .incompatible .tooMuchPlayers
    else if check.length > 1 then
      if (numPlayers + (256 - (mergeRoles answers q check).length % 256)) % 256 ≠ 0 then
        .incompatible .hasIgnores
      else match checkGroupRoles (mergeRoles answers q check) with
        | none => .incompatible .noRoles
        | some roles =>
          if commonDungeons q check = [] then .incompatible .noDungeons
          else conclude answers q check numPlayers roles
    else conclude answers q check numPlayers (assignRoles (check.flatMap (rolesOf q)))

/-! ### The search -/

/-- What `LFGMgr` answers after the steps made so far. -/
abbrev Oracle := List QueueOp → Answers

/-- Everybody is queued and nobody is ignored. -/
def everybodyQueued : Oracle := fun _ =>
  { allQueued := fun check => check ≠ [], isLfgGroup := fun _ => false
    hasIgnore := fun _ _ => false }

/-- `CheckCompatibility` after the check of all entries but the first. -/
def decideCompatibility (oracle : Oracle) (s : Finder) (check : List Guid) :
    LfgCompatibility × Finder :=
  match judge (oracle s.trace) s.core.toLFGQueue check with
  | .missing guid => (.pending, s.write (.removeFromQueue guid))
  | .incompatible compatibles => (compatibles, s.write (.setCompatibles check compatibles))
  | .withLess roles => (.withLessPlayers, s.write (.setWithLess check roles))
  | .badStates => (.badStates, s.write (.setCompatibles check .badStates))
  | .proposal players => (.matched, s.write (.addProposal check players))

/-- `LFGQueue::CheckCompatibility`: more than two entries are compatible only if all but the first
are. -/
def checkCompatibility (oracle : Oracle) : Finder → List Guid → LfgCompatibility × Finder
  | s, [] => (.wrongGroupSize, s)
  | s, guid :: rest =>
    if rest.length ≥ 5 then (.wrongGroupSize, s)
    else if rest.length ≥ 2 then
      let child := checkCompatibility oracle s rest
      if child.1.compatible then decideCompatibility oracle child.2 (guid :: rest)
      else (child.1, child.2.write (.setCompatibles (guid :: rest) child.1))
    else decideCompatibility oracle s (guid :: rest)

/-- `LFGQueue::GetCompatibles`. -/
def getCompatibles (q : LFGQueue) (key : Key) : LfgCompatibility :=
  ((q.compatibleMapStore.lookup key).map LfgCompatibilityData.compatibility).getD .pending

/-- The compatibility of a combination, from the cache if it is there. -/
def lookUpOrCheck (oracle : Oracle) (s : Finder) (check : List Guid) :
    LfgCompatibility × Finder :=
  if getCompatibles s.core.toLFGQueue (concatenateGuids check) = .pending then
    checkCompatibility oracle s check
  else (getCompatibles s.core.toLFGQueue (concatenateGuids check), s)

/-- `FindNewGroups` before its loop: bad states become a match once all entries are queued. -/
def evaluate (oracle : Oracle) (s : Finder) (check : List Guid) : LfgCompatibility × Finder :=
  let found := lookUpOrCheck oracle s check
  if found.1 = .badStates ∧ (oracle found.2.trace).allQueued check then
    (.matched, found.2.write (.assumeMatch check))
  else found

/-- The loop of `FindNewGroups` over the waiting entries. The inner calls take from the same list:
one that goes on searching leaves nothing for the loops around it. -/
def tryWaiting (oracle : Oracle) : Finder → List Guid → List Guid → Bool × Finder
  | s, _, [] => (false, s)
  | s, check, guid :: all =>
    let found := evaluate oracle s (check ++ [guid])
    if found.1 = .matched then (true, found.2)
    else if found.1 = .withLessPlayers then tryWaiting oracle found.2 (check ++ [guid]) all
    else tryWaiting oracle found.2 check all

/-- `LFGQueue::FindNewGroups`: whether a match was found. -/
def findNewGroups (oracle : Oracle) (s : Finder) (check all : List Guid) : Bool × Finder :=
  let found := evaluate oracle s check
  if found.1 = .matched then (true, found.2)
  else if found.1 = .withLessPlayers then tryWaiting oracle found.2 check all
  else (false, found.2)

/-- The loop of `FindGroups`, at most `fuel` times: a new entry that finds no group waits. -/
def findGroupsLoop (oracle : Oracle) : ℕ → Finder → Finder
  | 0, s => s
  | fuel + 1, s =>
    match s.core.newToQueueStore with
    | [] => s
    | front :: _ =>
      let taken := s.write (.removeFromNewQueue front)
      let found := findNewGroups oracle taken [front] taken.core.currentQueueStore
      findGroupsLoop oracle fuel
        (if found.1 then found.2 else found.2.write (.addToCurrentQueue front))

/-- `LFGQueue::FindGroups`: every round takes an entry from the new ones. -/
def findGroups (oracle : Oracle) (s : Finder) : Finder :=
  findGroupsLoop oracle s.core.newToQueueStore.length s

/-! ### What happens to a queue -/

/-- `LFGQueue::AddToQueue` for an entry that comes back. -/
def readdToQueue (s : Finder) (guid : Guid) : Finder :=
  if (s.core.queueDataStore guid).isSome then s.write (.addToFrontCurrentQueue guid) else s

/-- `RemoveFromQueue` for each of the entries. -/
def removeAllFromQueue (s : Finder) (guids : List Guid) : Finder :=
  guids.foldl (fun s guid => Finder.write s (.removeFromQueue guid)) s

/-- `AddToQueue(guid, true)` for each of the entries. -/
def readdAllToQueue (s : Finder) (guids : List Guid) : Finder := guids.foldl readdToQueue s

/-- What happens to a queue: the calls of `LFGMgr`. -/
inductive Event
  /-- `AddQueueData` -/
  | addQueueData (guid : Guid) (joinTime : ℕ) (dungeons : List ℕ) (roles : LfgRolesMap)
  /-- `RemoveFromQueue` -/
  | removeFromQueue (guid : Guid)
  /-- `FindGroups` -/
  | findGroups (oracle : Oracle)
  /-- `UpdateQueueTimers` -/
  | updateQueueTimers
  /-- the end of `UpdateProposal`: all players have agreed -/
  | proposalSucceeded (id : ℕ)
  /-- `RemoveProposal`: the entries of `removed` leave the queue, the others come back -/
  | proposalFailed (id : ℕ) (removed : List Guid)

/-- An event on a queue, with its log. -/
def perform (s : QueueState) : Event → Finder
  | .addQueueData guid joinTime dungeons roles =>
    (Finder.write ⟨s, []⟩ (.setQueueData guid joinTime dungeons roles)).write
      (.addToNewQueue guid)
  | .removeFromQueue guid => Finder.write ⟨s, []⟩ (.removeFromQueue guid)
  | .findGroups oracle => findGroups oracle ⟨s, []⟩
  | .updateQueueTimers => Finder.write ⟨s, []⟩ .updateQueueTimers
  | .proposalSucceeded id =>
    match s.proposalsStore.lookup id with
    | none => ⟨s, []⟩
    | some proposal =>
      (removeAllFromQueue ⟨s, []⟩ proposal.queues).write (.eraseProposal id)
  | .proposalFailed id removed =>
    match s.proposalsStore.lookup id with
    | none => ⟨s, []⟩
    | some proposal =>
      (readdAllToQueue (removeAllFromQueue ⟨s, []⟩ removed)
        (proposal.queues.filter (· ∉ removed))).write (.eraseProposal id)

/-- The state after an event. -/
def step (s : QueueState) (event : Event) : QueueState := (perform s event).core

/-- The empty queue. -/
def emptyQueue : QueueState :=
  { queueDataStore := fun _ => none
    compatibleMapStore := ∅
    newToQueueStore := []
    currentQueueStore := []
    lfgProposalId := 1
    proposalsStore := ∅ }

end IscServer.DungeonFinding
