import IscServer.Channels.Channel
import IscServer.Chat.ChatCommandHelpers
import IscServer.Library.Decimal

/-!
# Custom Channels and Their Table

`ChannelMgr` (`game/Chat/Channels/ChannelMgr.h`, `ChannelMgr.cpp`) with the writing of a channel
(`Channel.cpp`) and the case of wide characters (`common/Utilities/Util.h`). Custom channels are
preserved, and the teams have channels of their own.

* A wide text is the list of its UTF-16 units, as `utf8::utf8to16` writes them.
* The table `channels` has one row for a name and a team; which names are one name there is up to the
  collation of the column, a parameter that gives each name its weight. The width of the columns is
  left out.
* The containers are lists. Their order is that in which channels were created or rows were read.
-/

namespace IscServer.Channels

open IscServer.ChatCommands (commandDelimiter tokenizeAll)

/-! ### Wide texts -/

/-- `std::wstring`. -/
abbrev WString := List ℕ

/-- `WcharToLower`. -/
def wcharToLower (wchar : ℕ) : ℕ :=
  if 0x41 ≤ wchar ∧ wchar ≤ 0x5A then wchar + 0x20
  else if 0xC0 ≤ wchar ∧ wchar ≤ 0xD6 then wchar + 0x20
  else if 0xD8 ≤ wchar ∧ wchar ≤ 0xDE then wchar + 0x20
  else if (0x100 ≤ wchar ∧ wchar ≤ 0x12E) ∧ wchar % 2 = 0 then wchar + 1
  else if wchar = 0x1E9E then 0xDF
  else if wchar = 0x401 then 0x451
  else if 0x410 ≤ wchar ∧ wchar ≤ 0x42F then wchar + 0x20
  else wchar

/-- `wstrToLower`. -/
def wstrToLower (str : WString) : WString := str.map wcharToLower

/-- The UTF-16 units of a character. -/
def utf16 (c : Char) : WString :=
  if c.toNat < 0x10000 then [c.toNat]
  else [0xD800 + (c.toNat - 0x10000) / 0x400, 0xDC00 + (c.toNat - 0x10000) % 0x400]

/-- `Utf8toWStr`, of a text that is valid. -/
def utf8ToWStr (utf8str : String) : WString := utf8str.toList.flatMap utf16

/-! ### The table -/

/-- `DAY`. -/
def DAY : ℕ := 86400

/-- The teams that have a `ChannelMgr`. -/
inductive Team
  | alliance
  | horde
  deriving DecidableEq, Repr

/-- `ALLIANCE` and `HORDE`. -/
def Team.id : Team → ℕ
  | .alliance => 469
  | .horde => 67

/-- `ChannelMgr::ForTeam`, without channels for both teams. -/
def forTeam (team : ℕ) : Option Team :=
  if team = Team.alliance.id then some .alliance
  else if team = Team.horde.id then some .horde
  else none

/-- A row of `channels`. -/
structure Row where
  name : String
  team : ℕ
  announce : Bool
  ownership : Bool
  password : String
  bannedList : List Char
  lastUsed : ℕ
  deriving DecidableEq, Repr

/-- `CHAR_DEL_OLD_CHANNELS`: whether a row is deleted. The days are multiplied as `uint32`. -/
def Row.isOld (days now : ℕ) (row : Row) : Bool :=
  days ≠ 0 && row.ownership && row.lastUsed + days * DAY % 2 ^ 32 < now

variable (weight : String → String)

/-- The primary key. -/
def Row.key (row : Row) : String × ℕ := (weight row.name, row.team)

/-- `CHAR_UPD_CHANNEL`: a row that is there keeps its name. -/
def updChannel (rows : List Row) (row : Row) : List Row :=
  match Keyed.find (Row.key weight) rows (row.key weight) with
  | some old => Keyed.put (Row.key weight) rows { row with name := old.name, team := old.team }
  | none => rows ++ [row]

/-- `CHAR_UPD_CHANNEL_USAGE`. -/
def updChannelUsage (rows : List Row) (name : String) (team now : ℕ) : List Row :=
  match Keyed.find (Row.key weight) rows (weight name, team) with
  | some old => Keyed.put (Row.key weight) rows { old with lastUsed := now }
  | none => rows

/-! ### Writing a channel -/

/-- The text of a ban list: each raw guid and a space. -/
def writeBanList (bannedStore : List ℕ) : List Char :=
  bannedStore.flatMap fun guid => Nat.toDigits 10 guid ++ [commandDelimiter]

/-- The row of a channel that is used now. -/
def Channel.toRow (team : Team) (now : ℕ) (channel : Channel) : Row :=
  ⟨channel.channelName, team.id, channel.announceEnabled, channel.ownershipEnabled,
    channel.channelPassword, writeBanList channel.bannedStore, now⟩

/-- The statements of `Channel::UpdateChannelInDB`. -/
def Channel.writeInDB (now : ℕ) (rows : List Row) (team : Team) (channel : Channel) : List Row :=
  if channel.isDirty then updChannel weight rows (channel.toRow team now)
  else if channel.nextActivityUpdateTime ≤ now && !channel.playersStore.isEmpty then
    updChannelUsage weight rows channel.channelName team.id now
  else rows

/-- What `Channel::UpdateChannelInDB` leaves in the channel, with the delay that `urand` and the
configured interval give. -/
def Channel.written (now delay : ℕ) (channel : Channel) : Channel :=
  if channel.isDirty || channel.nextActivityUpdateTime ≤ now then
    { channel with isDirty := false, nextActivityUpdateTime := now + delay }
  else channel

/-! ### Reading a channel -/

/-- `Trinity::StringTo<uint64>`: digits only, at least one, without overflow. -/
def stringToUInt64 (text : List Char) : Option ℕ :=
  if text ≠ [] ∧ Decimal.IsWord text ∧ Decimal.value text < 2 ^ 64 then some (Decimal.value text) else none

/-- The ban list of the constructor of a custom channel. -/
def readBanList (banList : List Char) : List ℕ :=
  (tokenizeAll banList commandDelimiter).foldl
    (fun bannedStore token =>
      let banned := (stringToUInt64 token).getD 0
      if banned = 0 ∨ banned ∈ bannedStore then bannedStore else bannedStore ++ [banned]) []

/-- The channel that `LoadFromDB` makes of a row. -/
def Row.toChannel (row : Row) : Channel :=
  { Channel.new row.name (readBanList row.bannedList) with
    announceEnabled := row.announce
    ownershipEnabled := row.ownership
    channelPassword := row.password }

/-! ### The managers -/

/-- `CustomChannelContainer`. -/
abbrev CustomChannels := List (WString × Channel)

/-- `_customChannels` of the manager of each team. -/
abbrev Managers := Team → CustomChannels

/-- `ChannelMgr::GetCustomChannel`. -/
def getCustomChannel (customChannels : CustomChannels) (name : String) : Option Channel :=
  (Keyed.find Prod.fst customChannels (wstrToLower (utf8ToWStr name))).map Prod.snd

/-- `ChannelMgr::CreateCustomChannel`: a name that is taken changes nothing. -/
def createCustomChannel (customChannels : CustomChannels) (name : String) : CustomChannels :=
  match Keyed.find Prod.fst customChannels (wstrToLower (utf8ToWStr name)) with
  | some _ => customChannels
  | none => customChannels ++
      [(wstrToLower (utf8ToWStr name), { Channel.new name [] with isDirty := true })]

/-- `try_emplace` of `LoadFromDB`, under the name as it is in the row. -/
def loadRow (managers : Managers) (row : Row) : Managers :=
  match forTeam row.team with
  | none => managers
  | some team =>
    match Keyed.find Prod.fst (managers team) (utf8ToWStr row.name) with
    | some _ => managers
    | none => Function.update managers team
        (managers team ++ [(utf8ToWStr row.name, row.toChannel)])

/-- `ChannelMgr::LoadFromDB`: the managers, and the table without old rows and rows of no team. -/
def loadFromDB (days now : ℕ) (rows : List Row) : Managers × List Row :=
  let kept := rows.filter fun row => !row.isOld days now
  let toDelete := kept.filter fun row => (forTeam row.team).isNone
  (kept.foldl loadRow fun _ => [],
    kept.filter fun row => row.key weight ∉ toDelete.map (Row.key weight))

/-! ### Steps -/

/-- The managers and the table; `saved` is a copy of the channels as they were last saved. -/
structure World where
  managers : Managers
  channels : List Row
  saved : Managers

/-- A world without channels. -/
def World.new : World := ⟨fun _ => [], [], fun _ => []⟩

/-- The channels of both managers. -/
def Managers.all (managers : Managers) : List (Team × Channel) :=
  ((managers .alliance).map fun entry => (.alliance, entry.2)) ++
    (managers .horde).map fun entry => (.horde, entry.2)

/-- `ChannelMgr::SaveToDB` of both managers. -/
def World.saveToDB (w : World) (now : ℕ) (delay : Team → WString → ℕ) : World where
  managers team := (w.managers team).map fun entry => (entry.1, entry.2.written now (delay team entry.1))
  channels := w.managers.all.foldl
    (fun rows entry => entry.2.writeInDB weight now rows entry.1) w.channels
  saved := w.managers

/-- What happens to the channels of a team. -/
inductive Operation
  | createCustomChannel (name : String)
  /-- Joining a channel that is not there (`HandleJoinChannel`). -/
  | createAndJoin (players : Players) (guid : ℕ) (name pass : String)
  | command (players : Players) (guid : ℕ) (name : WString) (command : Command)

/-- The first joining of a channel that was made for it. -/
def createAndJoin (customChannels : CustomChannels) (players : Players) (guid : ℕ) (name pass : String) :
    CustomChannels :=
  match getCustomChannel customChannels name with
  | some _ => customChannels
  | none =>
    (createCustomChannel customChannels name).map fun entry =>
      if entry.1 = wstrToLower (utf8ToWStr name) then
        (entry.1, { entry.2 with channelPassword := pass }.joinChannel players guid pass)
      else entry

/-- One operation; `none` when it has used a record that was erased. -/
def CustomChannels.operate (customChannels : CustomChannels) : Operation → Option CustomChannels
  | .createCustomChannel name => some (Channels.createCustomChannel customChannels name)
  | .createAndJoin players guid name pass =>
    some (Channels.createAndJoin customChannels players guid name pass)
  | .command players guid name command =>
    match Keyed.find Prod.fst customChannels name with
    | none => some customChannels
    | some entry => (entry.2.step players guid command).map fun channel =>
      Keyed.put Prod.fst customChannels (name, channel)

/-- What happens in a world. -/
inductive Event
  | operation (team : Team) (operation : Operation)
  | saveToDB (now : ℕ) (delay : Team → WString → ℕ)

/-- One event. -/
def World.step (w : World) : Event → Option World
  | .operation team operation =>
    ((w.managers team).operate operation).map fun customChannels =>
      { w with managers := Function.update w.managers team customChannels }
  | .saveToDB now delay => some (w.saveToDB weight now delay)

end IscServer.Channels
