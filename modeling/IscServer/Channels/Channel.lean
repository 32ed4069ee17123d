import IscServer.Library.Keyed

/-!
# Chat Channels

Custom channels (`game/Chat/Channels/Channel.h`, `Channel.cpp`): their members, their owner and their ban
list.

* Players are given by their guids, and an empty guid is `none`. Who is connected, with which name, team and
  permissions, is a parameter of the operations. Names are normalised, as the handlers pass them.
* An operation that uses the record of a member after it was erased has no result.
* Notifications are left out.
-/

namespace IscServer.Channels

/-! ### Data -/

/-- `Channel::PlayerInfo`, with its guid; the flags are bits of `_flags`. -/
structure PlayerInfo where
  guid : ℕ
  owner : Bool
  moderator : Bool
  muted : Bool
  invisible : Bool
  deriving DecidableEq, Repr

/-- A custom `Channel`. `playersStore` is in the order of the guids. -/
structure Channel where
  channelName : String
  isDirty : Bool
  nextActivityUpdateTime : ℤ
  announceEnabled : Bool
  ownershipEnabled : Bool
  isOwnerInvisible : Bool
  ownerGuid : Option ℕ
  channelPassword : String
  playersStore : List PlayerInfo
  bannedStore : List ℕ
  deriving DecidableEq, Repr

/-- The players: `FindConnectedPlayerByName`, `RBAC_PERM_CHANGE_CHANNEL_NOT_MODERATOR`,
`RBAC_PERM_TWO_SIDE_INTERACTION_CHANNEL` and what else is read of a `Player`. -/
structure Players where
  name : ℕ → String
  team : ℕ → ℕ
  isGMVisible : ℕ → Bool
  changeNotModerator : ℕ → Bool
  twoSideInteraction : ℕ → Bool
  connected : String → Option ℕ
  connected_name : ∀ {n guid}, connected n = some guid → name guid = n
  connected_guid : ∀ {n guid}, connected n = some guid → 0 < guid ∧ guid < 2 ^ 64

/-- The constructor of a custom channel. -/
def Channel.new (name : String) (banned : List ℕ) : Channel :=
  ⟨name, false, 0, true, true, false, none, "", [], banned⟩

variable (channel : Channel) (players : Players)

/-! ### Members -/

/-- `_playersStore.find`. -/
def Channel.find (guid : ℕ) : Option PlayerInfo := Keyed.find PlayerInfo.guid channel.playersStore guid

/-- `Channel::IsOn`. -/
def Channel.isOn (guid : ℕ) : Bool := (channel.find guid).isSome

/-- `Channel::IsBanned`. -/
def Channel.isBanned (guid : ℕ) : Bool := guid ∈ channel.bannedStore

/-- `Channel::CheckPassword`. -/
def Channel.checkPassword (password : String) : Bool :=
  channel.channelPassword = "" || channel.channelPassword = password

/-- A write to the record of a member. -/
def Channel.modify (guid : ℕ) (f : PlayerInfo → PlayerInfo) : Channel :=
  { channel with playersStore := channel.playersStore.map fun info => if info.guid = guid then f info else info }

/-- `_playersStore[guid]`, for a guid that is not in it. -/
def Channel.insert (info : PlayerInfo) : Channel :=
  { channel with
    playersStore := channel.playersStore.orderedInsert (fun a b => a.guid ≤ b.guid) info }

/-- `_playersStore.erase`. -/
def Channel.erase (guid : ℕ) : Channel :=
  { channel with playersStore := channel.playersStore.filter fun info => !(info.guid = guid) }

/-- `PlayerInfo::SetOwner`. -/
def PlayerInfo.setOwner (state : Bool) (info : PlayerInfo) : PlayerInfo := { info with owner := state }

/-- `PlayerInfo::SetModerator`. -/
def PlayerInfo.setModerator (state : Bool) (info : PlayerInfo) : PlayerInfo := { info with moderator := state }

/-- `PlayerInfo::SetMuted`. -/
def PlayerInfo.setMuted (state : Bool) (info : PlayerInfo) : PlayerInfo := { info with muted := state }

/-- `PlayerInfo::SetInvisible`. -/
def PlayerInfo.setInvisible (on : Bool) (info : PlayerInfo) : PlayerInfo := { info with invisible := on }

/-- `Channel::SetOwner` for a guid. -/
def Channel.setOwner (guid : ℕ) : Channel :=
  let channel := match channel.ownerGuid with
    | some owner => channel.modify owner (PlayerInfo.setOwner false)
    | none => channel
  let channel := { channel with ownerGuid := some guid }
  if channel.isOn guid then
    { channel.modify guid (PlayerInfo.setOwner true ∘ PlayerInfo.setModerator true) with isDirty := true }
  else channel

/-! ### Joining and leaving -/

/-- The checks of `JoinChannel`. -/
def Channel.canJoin (guid : ℕ) (pass : String) : Bool :=
  !channel.isOn guid && !channel.isBanned guid && channel.checkPassword pass

/-- `Channel::JoinChannel`. -/
def Channel.joinChannel (guid : ℕ) (pass : String) : Channel :=
  if channel.canJoin guid pass then
    let newChannel := channel.playersStore.isEmpty
    let invisible := !players.isGMVisible guid
    let channel := { channel with
      nextActivityUpdateTime := if newChannel then 0 else channel.nextActivityUpdateTime }
    let channel := channel.insert ⟨guid, false, false, false, invisible⟩
    if channel.ownershipEnabled && (newChannel || !invisible) &&
        (channel.ownerGuid.isNone || channel.isOwnerInvisible) then
      let channel := { channel with isOwnerInvisible := invisible }
      (channel.setOwner guid).modify guid (PlayerInfo.setModerator true)
    else channel
  else channel

/-- The member that becomes the owner when the owner has left. -/
def Channel.nextOwner : Option PlayerInfo :=
  (channel.playersStore.find? fun info => !info.invisible).or channel.playersStore.head?

/-- `Channel::LeaveChannel`. -/
def Channel.leaveChannel (guid : ℕ) : Channel :=
  match channel.find guid with
  | none => channel
  | some info =>
    let channel := channel.erase guid
    if info.owner && channel.ownershipEnabled then
      match channel.nextOwner with
      | none => channel
      | some itr =>
        let channel := (channel.modify itr.guid (PlayerInfo.setModerator true)).setOwner itr.guid
        if itr.invisible then { channel with isOwnerInvisible := true } else channel
    else channel

/-! ### Commands -/

/-- A member that is a moderator or may do without. -/
def Channel.mayModerate (guid : ℕ) : Bool :=
  (channel.find guid).any fun info => info.moderator || players.changeNotModerator guid

/-- Whether the team checks of a command admit a player. -/
def Players.reaches (guid victim : ℕ) : Bool :=
  players.team guid = players.team victim ||
    (players.twoSideInteraction guid && players.twoSideInteraction victim)

/-- Whom `KickOrBan` removes, after its checks. -/
def Channel.kickTarget (guid : ℕ) (badname : String) : Option ℕ :=
  if channel.mayModerate players guid then
    (players.connected badname).filter fun victim => channel.isOn victim &&
      !(!players.changeNotModerator guid && channel.ownerGuid = some victim && !(channel.ownerGuid = some guid))
  else none

/-- `Channel::KickOrBan`. -/
def Channel.kickOrBan (guid : ℕ) (badname : String) (ban : Bool) : Option Channel :=
  match channel.kickTarget players guid badname with
  | none => some channel
  | some victim =>
    let changeowner := channel.ownerGuid = some victim
    let channel := if ban && !channel.isBanned victim then
      { channel with bannedStore := channel.bannedStore ++ [victim], isDirty := true } else channel
    let channel := channel.erase victim
    if changeowner && channel.ownershipEnabled && !channel.playersStore.isEmpty then
      -- the record of the player has been looked up before the victim's was erased
      if channel.isOn guid then some ((channel.modify guid (PlayerInfo.setModerator true)).setOwner guid)
      else none
    else some channel

/-- `Channel::UnBan`. -/
def Channel.unBan (guid : ℕ) (badname : String) : Channel :=
  if channel.mayModerate players guid then
    match players.connected badname with
    | none => channel
    | some victim =>
      if channel.isBanned victim then
        { channel with bannedStore := channel.bannedStore.filter (!· = victim), isDirty := true }
      else channel
  else channel

/-- `Channel::Password`. -/
def Channel.password (guid : ℕ) (pass : String) : Channel :=
  if channel.mayModerate players guid then { channel with channelPassword := pass, isDirty := true } else channel

/-- Whom `SetMode` changes, after its checks. -/
def Channel.modeTarget (guid : ℕ) (p2n : String) (mod : Bool) : Option ℕ :=
  if channel.mayModerate players guid then
    if channel.ownerGuid = some guid && p2n = players.name guid && mod then none
    else (players.connected p2n).filter fun victim => channel.isOn victim && players.reaches guid victim &&
      !(channel.ownerGuid = some victim && !(channel.ownerGuid = some guid))
  else none

/-- `Channel::SetMode`. -/
def Channel.setMode (guid : ℕ) (p2n : String) (mod set : Bool) : Channel :=
  match channel.modeTarget players guid p2n mod with
  | none => channel
  | some victim =>
    if mod then channel.modify victim (PlayerInfo.setModerator set)
    else channel.modify victim (PlayerInfo.setMuted set)

/-- `Channel::SetInvisible`. -/
def Channel.setInvisible (guid : ℕ) (on : Bool) : Channel :=
  if channel.isOn guid then
    let channel := channel.modify guid (PlayerInfo.setInvisible on)
    if channel.ownerGuid = some guid then { channel with isOwnerInvisible := on } else channel
  else channel

/-- Who becomes the owner by `SetOwner`, after its checks. -/
def Channel.ownerTarget (guid : ℕ) (newname : String) : Option ℕ :=
  if channel.isOn guid && (players.changeNotModerator guid || channel.ownerGuid = some guid) then
    (players.connected newname).filter fun victim => channel.isOn victim && players.reaches guid victim
  else none

/-- `Channel::SetOwner` for a name. -/
def Channel.setOwnerByName (guid : ℕ) (newname : String) : Channel :=
  match channel.ownerTarget players guid newname with
  | none => channel
  | some victim => (channel.modify victim (PlayerInfo.setModerator true)).setOwner victim

/-- `Channel::Announce`. -/
def Channel.announce (guid : ℕ) : Channel :=
  if channel.mayModerate players guid then
    { channel with announceEnabled := !channel.announceEnabled, isDirty := true }
  else channel

/-! ### Steps -/

/-- What players do, with the guid of the player. -/
inductive Command
  | joinChannel (pass : String)
  | leaveChannel
  | kickOrBan (badname : String) (ban : Bool)
  | unBan (badname : String)
  | password (pass : String)
  | setMode (p2n : String) (mod set : Bool)
  | setInvisible (on : Bool)
  | setOwner (newname : String)
  | announce
  deriving DecidableEq, Repr

/-- One operation; `none` when it has used a record that was erased. -/
def Channel.step (guid : ℕ) : Command → Option Channel
  | .joinChannel pass => some (channel.joinChannel players guid pass)
  | .leaveChannel => some (channel.leaveChannel guid)
  | .kickOrBan badname ban => channel.kickOrBan players guid badname ban
  | .unBan badname => some (channel.unBan players guid badname)
  | .password pass => some (channel.password players guid pass)
  | .setMode p2n mod set => some (channel.setMode players guid p2n mod set)
  | .setInvisible on => some (channel.setInvisible guid on)
  | .setOwner newname => some (channel.setOwnerByName players guid newname)
  | .announce => some (channel.announce players guid)

end IscServer.Channels
