import IscServer.Library.Run

/-!
# Groups

`Group` (`game/Groups/Group.h`, `Group.cpp`): a party of up to five players, or a raid of up to
forty in eight subgroups. Each member has a slot with its subgroup and its flags; a raid also
counts the members of its subgroups by hand. Parties and raids are stored in the tables `groups`
and `group_member`, the raids of battlegrounds and battlefields are not.

* Of `m_groupType` the two bits are kept that are read, `GROUPTYPE_RAID` and `GROUPTYPE_LFG`.
  Member flags are the three bits of `GroupMemberFlags`.
* A player is found by `FindConnectedPlayer` when it is `online` at the time of the call;
  `m_memberMgr` has a reference for each member that is online.
* Of the table `group_member` the rows of this group are kept: flags and subgroup under the guid
  of the member, which is the primary key.
* `Disband` deletes the group. The model keeps it as a state that is no longer `alive`.

Loot settings, instance binds, difficulties, roles and packets are left out.
-/

namespace IscServer.Groups

/-- The guid of a player. -/
abbrev Guid := ℕ

/-- `MAX_GROUP_SIZE`. -/
def maxGroupSize : ℕ := 5

/-- `MAX_RAID_SIZE`. -/
def maxRaidSize : ℕ := 40

/-- `MAX_RAID_SUBGROUPS`. -/
def maxRaidSubgroups : ℕ := 8

/-- `GroupMemberFlags`. -/
inductive GroupMemberFlags
  | assistant
  | mainTank
  | mainAssist
  deriving DecidableEq, Repr

/-- The flags of a member: which bits are set. -/
abbrev Flags := GroupMemberFlags → Bool

/-- `MemberSlot`. -/
structure MemberSlot where
  guid : Guid
  group : ℕ
  flags : Flags

/-- `Group`. -/
structure Group where
  raid : Bool
  lfg : Bool
  bg : Bool
  bf : Bool
  memberSlots : List MemberSlot
  leaderGuid : Guid
  subGroupsCounts : Option (ℕ → ℕ)

/-- A row of `group_member`. -/
structure MemberRow where
  memberFlags : Flags
  subgroup : ℕ

/-- A group and its rows in the table. -/
structure State where
  alive : Bool
  group : Group
  rows : Guid → Option MemberRow

/-! ### Members and counters -/

/-- The guids of the members. -/
def Group.guids (g : Group) : List Guid := g.memberSlots.map MemberSlot.guid

/-- `_getMemberWSlot`. -/
def getMemberSlot (guid : Guid) (slots : List MemberSlot) : Option MemberSlot :=
  slots.find? fun slot => slot.guid = guid

/-- A change of the slot that `_getMemberWSlot` finds. -/
def modifySlot (guid : Guid) (change : MemberSlot → MemberSlot) :
    List MemberSlot → List MemberSlot
  | [] => []
  | slot :: slots =>
    if slot.guid = guid then change slot :: slots else slot :: modifySlot guid change slots

/-- `Group::IsFull`. -/
def Group.isFull (g : Group) : Bool :=
  if g.raid then maxRaidSize ≤ g.memberSlots.length else maxGroupSize ≤ g.memberSlots.length

/-- Parties and raids are stored in the database. -/
def Group.stored (g : Group) : Bool := !g.bg && !g.bf

/-- How many slots are in a subgroup. -/
def slotsIn (slots : List MemberSlot) (subgroup : ℕ) : ℕ :=
  slots.countP fun slot => slot.group = subgroup

/-- `_initRaidSubGroupsCounter`: the counters are `uint8`. -/
def initRaidSubGroupsCounter (slots : List MemberSlot) : ℕ → ℕ := fun subgroup =>
  slotsIn slots subgroup % 256

/-- `SubGroupCounterIncrease`. -/
def subGroupCounterIncrease (counts : ℕ → ℕ) (subgroup : ℕ) : ℕ → ℕ :=
  Function.update counts subgroup ((counts subgroup + 1) % 256)

/-- `SubGroupCounterDecrease`. -/
def subGroupCounterDecrease (counts : ℕ → ℕ) (subgroup : ℕ) : ℕ → ℕ :=
  Function.update counts subgroup ((counts subgroup + 255) % 256)

/-- `HasFreeSlotSubGroup`. -/
def Group.hasFreeSlotSubGroup (g : Group) (subgroup : ℕ) : Bool :=
  g.subGroupsCounts.any fun counts => counts subgroup < maxGroupSize

/-- The first subgroup that is not full; the only one of a party. -/
def Group.firstFree (g : Group) : Option ℕ :=
  match g.subGroupsCounts with
  | none => some 0
  | some _ => (List.range maxRaidSubgroups).find? g.hasFreeSlotSubGroup

/-! ### The operations -/

/-- `ToggleGroupMemberFlag`. -/
def toggleGroupMemberFlag (flag : GroupMemberFlags) (apply : Bool) (slot : MemberSlot) :
    MemberSlot :=
  { slot with flags := Function.update slot.flags flag apply }

/-- `Group::AddMember`. -/
def addMember (guid : Guid) (s : State) : Bool × State :=
  match s.group.firstFree with
  | none => (false, s)
  | some subGroup =>
    let slot : MemberSlot := ⟨guid, subGroup, fun _ => false⟩
    (true,
      { s with
        group :=
          { s.group with
            memberSlots := s.group.memberSlots ++ [slot]
            subGroupsCounts :=
              s.group.subGroupsCounts.map fun counts => subGroupCounterIncrease counts subGroup }
        rows :=
          -- an `INSERT` with a key that is there fails
          if s.group.stored ∧ (s.rows guid).isNone then
            Function.update s.rows guid (some ⟨slot.flags, slot.group⟩)
          else s.rows })

/-- `Group::ChangeLeader`: not to members who are offline. -/
def changeLeader (online : Guid → Bool) (guid : Guid) (s : State) : State :=
  if (getMemberSlot guid s.group.memberSlots).isSome ∧ online guid then
    { s with
      group :=
        { s.group with
          leaderGuid := guid
          memberSlots :=
            modifySlot guid (toggleGroupMemberFlag .assistant false) s.group.memberSlots } }
  else s

/-- `Group::Disband`. -/
def disband (s : State) : State :=
  { alive := false
    group := { s.group with memberSlots := [] }
    rows := if s.group.stored then fun _ => none else s.rows }

/-- The part of `RemoveMember` that takes the member out of the table and out of its slot. -/
def removeSlot (guid : Guid) (s : State) : State :=
  { s with
    group :=
      { s.group with
        memberSlots := s.group.memberSlots.eraseP fun slot => slot.guid = guid
        subGroupsCounts :=
          match getMemberSlot guid s.group.memberSlots with
          | none => s.group.subGroupsCounts
          | some slot =>
            s.group.subGroupsCounts.map fun counts => subGroupCounterDecrease counts slot.group }
    rows := if s.group.stored then Function.update s.rows guid none else s.rows }

/-- The part of `RemoveMember` that replaces the leader by the first member who is online. -/
def pickNewLeader (online : Guid → Bool) (guid : Guid) (s : State) : State :=
  if s.group.leaderGuid = guid then
    match s.group.memberSlots.find? fun slot => online slot.guid with
    | none => s
    | some slot => changeLeader online slot.guid s
  else s

/-- `m_memberMgr.size()`. -/
def Group.onlineCount (online : Guid → Bool) (g : Group) : ℕ :=
  g.memberSlots.countP fun slot => online slot.guid

/-- A group of more members than this survives the removal of one. -/
def Group.removeThreshold (g : Group) : ℕ := if g.bg || g.lfg || g.bf then 1 else 2

/-- A group of fewer references than this is disbanded after a removal. -/
def Group.disbandThreshold (g : Group) : ℕ := if g.lfg || g.bg then 1 else 2

/-- `Group::RemoveMember`. `kick` is the method `GROUP_REMOVEMETHOD_KICK`; `outside` says that the
last member of a dungeon finder group has no dungeon or is alive on another map. -/
def removeMember (guid : Guid) (kick outside : Bool) (online : Guid → Bool) (s : State) :
    Bool × State :=
  if s.group.lfg ∧ kick then (!s.group.memberSlots.isEmpty, s)
  else if s.group.removeThreshold < s.group.memberSlots.length then
    let left := pickNewLeader online guid (removeSlot guid s)
    if left.group.lfg ∧ left.group.memberSlots.length = 1 ∧
        (¬ online left.group.leaderGuid ∨ outside) then (false, disband left)
    else if left.group.onlineCount online < left.group.disbandThreshold then (true, disband left)
    else (true, left)
  else (false, disband s)

/-- `Group::ChangeMembersGroup`. -/
def changeMembersGroup (guid : Guid) (group : ℕ) (s : State) : State :=
  match getMemberSlot guid s.group.memberSlots with
  | none => s
  | some slot =>
    if ¬ s.group.raid ∨ slot.group = group then s
    else
      { s with
        group :=
          { s.group with
            memberSlots :=
              modifySlot guid (fun slot => { slot with group := group }) s.group.memberSlots
            subGroupsCounts := s.group.subGroupsCounts.map fun counts =>
              subGroupCounterDecrease (subGroupCounterIncrease counts group) slot.group }
        rows :=
          if s.group.stored then
            Function.update s.rows guid
              ((s.rows guid).map fun row => { row with subgroup := group })
          else s.rows }

/-- `Group::ConvertToRaid`. -/
def convertToRaid (s : State) : State :=
  { s with
    group :=
      { s.group with
        raid := true
        subGroupsCounts := some (initRaidSubGroupsCounter s.group.memberSlots) } }

/-- `RemoveUniqueGroupMemberFlag`: in memory only. -/
def removeUniqueGroupMemberFlag (flag : GroupMemberFlags) (s : State) : State :=
  { s with
    group :=
      { s.group with
        memberSlots := s.group.memberSlots.map (toggleGroupMemberFlag flag false) } }

/-- The flags of a member; no flags for others. -/
def Group.getMemberFlags (g : Group) (guid : Guid) : Flags :=
  match getMemberSlot guid g.memberSlots with
  | none => fun _ => false
  | some slot => slot.flags

/-- `Group::SetGroupMemberFlag`. -/
def setGroupMemberFlag (guid : Guid) (apply : Bool) (flag : GroupMemberFlags) (s : State) :
    State :=
  if s.group.raid ∧ (getMemberSlot guid s.group.memberSlots).isSome then
    let unique := match flag with
      | .mainAssist | .mainTank => removeUniqueGroupMemberFlag flag s
      | .assistant => s
    let group :=
      { unique.group with
        memberSlots :=
          modifySlot guid (toggleGroupMemberFlag flag apply) unique.group.memberSlots }
    { unique with
      group := group
      rows := Function.update s.rows guid
        ((s.rows guid).map fun row => { row with memberFlags := group.getMemberFlags guid }) }
  else s

/-! ### Events -/

/-- What happens to a group. -/
inductive Event
  | addMember (guid : Guid)
  | removeMember (guid : Guid) (kick outside : Bool) (online : Guid → Bool)
  | changeMembersGroup (guid : Guid) (group : ℕ)
  | convertToRaid
  | changeLeader (guid : Guid) (online : Guid → Bool)
  | disband
  | setGroupMemberFlag (guid : Guid) (apply : Bool) (flag : GroupMemberFlags)
  /-- `HandlePartyAssignmentOpcode` for the main tank or the main assist -/
  | partyAssignment (guid : Guid) (apply : Bool) (flag : GroupMemberFlags)

/-- An event of a group that exists. -/
def perform (s : State) : Event → State
  | .addMember guid => (addMember guid s).2
  | .removeMember guid kick outside online => (removeMember guid kick outside online s).2
  | .changeMembersGroup guid group => changeMembersGroup guid group s
  | .convertToRaid => convertToRaid s
  | .changeLeader guid online => changeLeader online guid s
  | .disband => disband s
  | .setGroupMemberFlag guid apply flag => setGroupMemberFlag guid apply flag s
  | .partyAssignment guid apply flag =>
    setGroupMemberFlag guid apply flag (removeUniqueGroupMemberFlag flag s)

/-- The state after an event; a deleted group takes part in none. -/
def step (s : State) (event : Event) : State := if s.alive then perform s event else s

/-- The kinds of groups that are created. -/
inductive GroupKind
  | party
  | dungeonFinder
  | battleground
  | battlefield
  deriving DecidableEq, Repr

/-- `Group::Create` up to the call of `AddMember`. The raids of battlegrounds and battlefields are
raids from the beginning. -/
def newGroup (kind : GroupKind) (leader : Guid) : State where
  alive := true
  group :=
    { raid := kind = .battleground ∨ kind = .battlefield
      lfg := kind = .dungeonFinder
      bg := kind = .battleground
      bf := kind = .battlefield
      memberSlots := []
      leaderGuid := leader
      subGroupsCounts :=
        if kind = .battleground ∨ kind = .battlefield then some (initRaidSubGroupsCounter [])
        else none }
  rows := fun _ => none

/-- `Group::Create`. -/
def create (kind : GroupKind) (leader : Guid) : State := (addMember leader (newGroup kind leader)).2

end IscServer.Groups
