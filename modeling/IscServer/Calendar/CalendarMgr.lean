import IscServer.Library.IdPool
import IscServer.Library.Keyed

/-!
# The Calendar

The calendar keeps its events and invites in memory and writes each change to two tables. Ids of
events and of invites come from two pools: the destructors of the objects give the ids back. The
map from an event's id to its invites is one list here, from which the invites of an event are
filtered out.

## Main definitions

* `CalendarMgr` — the store, its tables, and the invitations that wait for the answer of a query.
* `CalendarMgr.removeEvent`, `CalendarMgr.removeInvite` and the loops that call them.
* `CalendarMgr.handleAddEvent` and the handlers after it — the packets.
* `step` — one packet, or one call of the server.
-/

namespace IscServer.Calendar

/-- A player's guid; zero is nobody's. -/
abbrev Guid := ℕ

/-- `CalendarInvite`, which is also a row of `calendar_invites`. -/
structure CalendarInvite where
  inviteId : ℕ
  eventId : ℕ
  invitee : Guid
  senderGUID : Guid
  responseTime : ℕ
  status : ℕ
  rank : ℕ
  note : String
  deriving DecidableEq, Repr

/-- What a packet says about an event. -/
structure EventData where
  eventType : ℕ
  textureId : ℤ
  date : ℕ
  flags : ℕ
  title : String
  description : String
  lockDate : ℕ
  deriving DecidableEq, Repr

/-- A row of `calendar_events`. -/
structure EventRow where
  id : ℕ
  creator : Guid
  data : EventData
  deriving DecidableEq, Repr

/-- `CalendarEvent`. -/
structure CalendarEvent where
  eventId : ℕ
  ownerGUID : Guid
  guildId : ℕ
  data : EventData
  deriving DecidableEq, Repr

/-- `CALENDAR_STATUS_INVITED`. -/
def calendarStatusInvited : ℕ := 0

/-- `CALENDAR_STATUS_SIGNED_UP`. -/
def calendarStatusSignedUp : ℕ := 6

/-- `CALENDAR_STATUS_NOT_SIGNED_UP`. -/
def calendarStatusNotSignedUp : ℕ := 7

/-- `CALENDAR_STATUS_TENTATIVE`. -/
def calendarStatusTentative : ℕ := 8

/-- `CALENDAR_STATUS_REMOVED`. -/
def calendarStatusRemoved : ℕ := 9

/-- `CALENDAR_RANK_PLAYER`. -/
def calendarRankPlayer : ℕ := 0

/-- `CALENDAR_RANK_MODERATOR`. -/
def calendarRankModerator : ℕ := 1

/-- `CALENDAR_RANK_OWNER`. -/
def calendarRankOwner : ℕ := 2

/-- `CALENDAR_DEFAULT_RESPONSE_TIME`. -/
def calendarDefaultResponseTime : ℕ := 946684800

/-- `CALENDAR_MAX_EVENTS`. -/
def calendarMaxEvents : ℕ := 30

/-- `CALENDAR_MAX_GUILD_EVENTS`. -/
def calendarMaxGuildEvents : ℕ := 100

/-- `CALENDAR_OLD_EVENTS_DELETION_TIME`, a month of thirty days. -/
def calendarOldEventsDeletionTime : ℕ := 30 * 24 * 60 * 60

/-- `IsGuildEvent`: `CALENDAR_FLAG_GUILD_EVENT` is set. -/
def EventData.isGuildEvent (d : EventData) : Bool := d.flags &&& 0x400 != 0

/-- `IsGuildAnnouncement`: `CALENDAR_FLAG_WITHOUT_INVITES` is set. -/
def EventData.isGuildAnnouncement (d : EventData) : Bool := d.flags &&& 0x040 != 0

/-- `IsLocked`: `CALENDAR_FLAG_INVITES_LOCKED` is set. -/
def EventData.isLocked (d : EventData) : Bool := d.flags &&& 0x010 != 0

/-- The event belongs to a guild, as an event or as an announcement. -/
def EventData.isOfGuild (d : EventData) : Bool := d.isGuildEvent || d.isGuildAnnouncement

/-- What `UpdateEvent` writes. -/
def CalendarEvent.toRow (event : CalendarEvent) : EventRow :=
  ⟨event.eventId, event.ownerGUID, event.data⟩

/-- The invitation of a player whose name is not that of a connected player waits for the query
about his ignore list, with what the closure has captured. -/
structure InviteRequest where
  playerGuid : Guid
  eventId : Option ℕ
  isSignUp : Bool
  inviteeGuid : Guid
  inviteeGuildId : ℕ
  deriving DecidableEq, Repr

/-- `CalendarMgr`, the two tables and the invitations that wait. A pool holds the free ids and, as
its bound, the number after `_maxEventId` or `_maxInviteId`. The events are in the order of their
addresses. `stale` says that a loop has gone on from an event it had just removed. -/
structure CalendarMgr where
  events : List CalendarEvent
  invites : List CalendarInvite
  eventIds : IdPool
  inviteIds : IdPool
  eventRows : List EventRow
  inviteRows : List CalendarInvite
  pending : List InviteRequest
  stale : Bool
  deriving DecidableEq, Repr

namespace CalendarMgr

variable (m : CalendarMgr)

/-! ### Looking things up -/

/-- `GetEvent`. -/
def getEvent (eventId : ℕ) : Option CalendarEvent := Keyed.find CalendarEvent.eventId m.events eventId

/-- `GetInvite`. -/
def getInvite (inviteId : ℕ) : Option CalendarInvite :=
  Keyed.find CalendarInvite.inviteId m.invites inviteId

/-- `GetEventInvites`. -/
def getEventInvites (eventId : ℕ) : List CalendarInvite :=
  m.invites.filter fun invite => invite.eventId = eventId

/-- `GetPlayerInvites`. -/
def getPlayerInvites (guid : Guid) : List CalendarInvite :=
  m.invites.filter fun invite => invite.invitee = guid

/-- `GetEventsCreatedBy`, without guild events. -/
def getEventsCreatedBy (guid : Guid) : List CalendarEvent :=
  m.events.filter fun event => event.ownerGUID = guid && !event.data.isOfGuild

/-- `GetGuildEvents`. -/
def getGuildEvents (guildId : ℕ) : List CalendarEvent :=
  if guildId = 0 then []
  else m.events.filter fun event => event.data.isOfGuild && event.guildId = guildId

/-! ### The store -/

/-- `UpdateEvent`. -/
def updateEvent (event : CalendarEvent) : CalendarMgr :=
  { m with eventRows := Keyed.assign EventRow.id m.eventRows event.toRow }

/-- `UpdateInvite`. -/
def updateInvite (invite : CalendarInvite) : CalendarMgr :=
  { m with inviteRows := Keyed.assign CalendarInvite.inviteId m.inviteRows invite }

/-- `AddEvent`. The set is ordered by address: `place` is where that of the new event falls. -/
def addEvent (event : CalendarEvent) (place : ℕ) : CalendarMgr :=
  { m with events := m.events.take place ++ event :: m.events.drop place }.updateEvent event

/-- `AddInvite`. Nothing is stored for a guild announcement. -/
def addInvite (event : CalendarEvent) (invite : CalendarInvite) : CalendarMgr :=
  if event.data.isGuildAnnouncement then m
  else { m with invites := m.invites ++ [invite] }.updateInvite invite

/-- The destructor of an invite gives its id back, if it is a real invite and not just a pre-invite
or guild announcement. -/
def destroyInvite (pool : IdPool) (invite : CalendarInvite) : IdPool :=
  if invite.inviteId ≠ 0 ∧ invite.eventId ≠ 0 then pool.give invite.inviteId else pool

/-- `RemoveEvent`: the invites of the event and then the event itself are deleted, in memory and in
the tables. -/
def removeEvent (event : CalendarEvent) : CalendarMgr :=
  let eventInvites := m.getEventInvites event.eventId
  { m with
    inviteRows := eventInvites.foldl (fun rows invite =>
      rows.filter fun row => !(row.inviteId = invite.inviteId)) m.inviteRows
    inviteIds := eventInvites.foldl destroyInvite m.inviteIds
    invites := m.invites.filter fun invite => !(invite.eventId = event.eventId)
    eventRows := m.eventRows.filter fun row => !(row.id = event.eventId)
    events := m.events.filter fun e => !(e.eventId = event.eventId)
    eventIds := m.eventIds.give event.eventId }

/-- `RemoveEvent`, by id. -/
def removeEventById (eventId : ℕ) : CalendarMgr :=
  match m.getEvent eventId with
  | none => m
  | some event => m.removeEvent event

/-- `RemoveInvite`. -/
def removeInvite (inviteId eventId : ℕ) : CalendarMgr :=
  match m.getEvent eventId with
  | none => m
  | some _ =>
    match (m.getEventInvites eventId).find? fun invite => invite.inviteId = inviteId with
    | none => m
    | some invite =>
      { m with
        inviteRows := m.inviteRows.filter fun row => !(row.inviteId = invite.inviteId)
        inviteIds := destroyInvite m.inviteIds invite
        invites := m.invites.eraseP fun i => i.eventId = eventId && i.inviteId = inviteId }

/-- The calls of `RemoveInvite` for some invites, one after the other. -/
def removeInvites (invites : List CalendarInvite) : CalendarMgr :=
  invites.foldl (fun m invite => m.removeInvite invite.inviteId invite.eventId) m

/-- `RemoveAllPlayerEventsAndInvites`. -/
def removeAllPlayerEventsAndInvites (guid : Guid) : CalendarMgr :=
  let removed := m.events.foldl (fun m event =>
    if event.ownerGUID = guid then m.removeEvent event else m) m
  removed.removeInvites (removed.getPlayerInvites guid)

/-- The invite is for an event of the guild. -/
def isGuildSignup (guildId : ℕ) (invite : CalendarInvite) : Bool :=
  match m.getEvent invite.eventId with
  | none => false
  | some event => event.data.isGuildEvent && event.guildId = guildId

/-- `RemovePlayerGuildEventsAndSignups`. The first loop removes an event of the player and then steps
on from it: what follows is not defined. -/
def removePlayerGuildEventsAndSignups (guid : Guid) (guildId : ℕ) : CalendarMgr :=
  match m.events.find? fun event => event.ownerGUID = guid && event.data.isOfGuild with
  | some event => { m.removeEventById event.eventId with stale := true }
  | none =>
    (m.getPlayerInvites guid).foldl (fun m invite =>
      if m.isGuildSignup guildId invite then m.removeInvite invite.inviteId invite.eventId else m) m

/-- `DeleteOldEvents`. -/
def deleteOldEvents (now : ℕ) : CalendarMgr :=
  m.events.foldl (fun m event =>
    if (event.data.date : ℤ) < now - calendarOldEventsDeletionTime then m.removeEvent event
    else m) m

/-- A new invite, with an id from the pool, is added to an event. -/
def newInvite (event : CalendarEvent) (invite : ℕ → CalendarInvite) : CalendarMgr :=
  { m with inviteIds := m.inviteIds.take }.addInvite event (invite m.inviteIds.next)

/-! ### The packets -/

/-- The player has reached the number of events he, or his guild, may have. -/
def isAtEventLimit (guid : Guid) (guildId : ℕ) (isOfGuild : Bool) : Bool :=
  if isOfGuild then decide (calendarMaxGuildEvents ≤ (m.getGuildEvents guildId).length)
  else decide (calendarMaxEvents ≤ (m.getEventsCreatedBy guid).length)

/-- An invite of `HandleCalendarAddEvent`, with the status and the rank the packet gives it. -/
def packetInvite (guid : Guid) (eventId : ℕ) (i : Guid × ℕ × ℕ) (inviteId : ℕ) : CalendarInvite :=
  ⟨inviteId, eventId, i.1, guid, calendarDefaultResponseTime, i.2.1, i.2.2, ""⟩

/-- The invite of a guild announcement, which is a local variable. -/
def announcement (guid : Guid) (eventId : ℕ) : CalendarInvite :=
  ⟨0, eventId, 0, guid, calendarDefaultResponseTime, calendarStatusNotSignedUp, calendarRankPlayer, ""⟩

/-- `HandleCalendarAddEvent`. -/
def handleAddEvent (guid : Guid) (guildId : ℕ) (isPast onCooldown : Bool) (data : EventData)
    (invites : List (Guid × ℕ × ℕ)) (place : ℕ) : CalendarMgr :=
  if isPast then m
  else if data.isOfGuild && guildId = 0 then m
  else if m.isAtEventLimit guid guildId data.isOfGuild then m
  else if onCooldown then m
  else
    let event : CalendarEvent :=
      ⟨m.eventIds.next, guid, if data.isOfGuild then guildId else 0, data⟩
    let taken := { m with eventIds := m.eventIds.take }
    let invited :=
      if data.isGuildAnnouncement then taken.addInvite event (announcement guid event.eventId)
      else invites.foldl (fun m i => m.newInvite event (packetInvite guid event.eventId i)) taken
    invited.addEvent event place

/-- `HandleCalendarUpdateEvent`. -/
def handleUpdateEvent (isPast : Bool) (eventId : ℕ) (data : EventData) : CalendarMgr :=
  if isPast then m
  else
    match m.getEvent eventId with
    | none => m
    | some event =>
      { m with events := Keyed.put CalendarEvent.eventId m.events { event with data := data }
        }.updateEvent { event with data := data }

/-- The player has access to the event he copies. -/
def mayCopy (guid : Guid) (guildId : ℕ) (event : CalendarEvent) : Bool :=
  if event.data.isOfGuild then decide (event.guildId = guildId) else decide (event.ownerGUID = guid)

/-- The copy of an invite. -/
def copyInvite (eventId : ℕ) (invite : CalendarInvite) (inviteId : ℕ) : CalendarInvite :=
  { invite with inviteId := inviteId, eventId := eventId }

/-- `HandleCalendarCopyEvent`. -/
def handleCopyEvent (guid : Guid) (guildId : ℕ) (isPast onCooldown : Bool) (eventId date : ℕ)
    (place : ℕ) : CalendarMgr :=
  if isPast then m
  else
    match m.getEvent eventId with
    | none => m
    | some oldEvent =>
      if !mayCopy guid guildId oldEvent then m
      else if m.isAtEventLimit guid guildId oldEvent.data.isOfGuild then m
      else if onCooldown then m
      else
        let event : CalendarEvent :=
          { oldEvent with
            eventId := m.eventIds.next
            data := { oldEvent.data with date := date } }
        let added := { m with eventIds := m.eventIds.take }.addEvent event place
        (added.getEventInvites eventId).foldl (fun m invite =>
          m.newInvite event (copyInvite event.eventId invite)) added

/-- The closure of `HandleCalendarEventInvite`. A pre-invite only takes an id: its destructor does
not give it back. -/
def createInvite (request : InviteRequest) (isSamePlayer : Bool) (guildId : ℕ)
    (isNotAllied isIgnoring : Bool) : CalendarMgr :=
  if !isSamePlayer then m
  else if isNotAllied then m
  else if isIgnoring then m
  else
    match request.eventId with
    | some eventId =>
      match m.getEvent eventId with
      | none => m
      | some event =>
        if event.data.isGuildEvent && event.guildId = request.inviteeGuildId then m
        else
          m.newInvite event fun inviteId => ⟨inviteId, eventId, request.inviteeGuid,
            request.playerGuid, calendarDefaultResponseTime, calendarStatusInvited,
            calendarRankPlayer, ""⟩
    | none =>
      if request.isSignUp && request.inviteeGuildId = guildId then m
      else { m with inviteIds := m.inviteIds.take }

/-- The query about an ignore list comes back. -/
def inviteQueryCallback (index : ℕ) (isSamePlayer : Bool) (guildId : ℕ)
    (isNotAllied isIgnoring : Bool) : CalendarMgr :=
  match m.pending[index]? with
  | none => m
  | some request => { m with pending := m.pending.eraseIdx index }.createInvite request isSamePlayer
      guildId isNotAllied isIgnoring

/-- `HandleCalendarEventSignup`. -/
def handleEventSignup (guid : Guid) (guildId eventId : ℕ) (isTentative : Bool) (now : ℕ) :
    CalendarMgr :=
  match m.getEvent eventId with
  | none => m
  | some event =>
    if event.data.isGuildEvent && event.guildId != guildId then m
    else
      m.newInvite event fun inviteId => ⟨inviteId, eventId, guid, guid, now,
        if isTentative then calendarStatusTentative else calendarStatusSignedUp,
        calendarRankPlayer, ""⟩

/-- An invite is changed in place and written to its table. -/
def setInvite (invite : CalendarInvite) : CalendarMgr :=
  { m with invites := Keyed.put CalendarInvite.inviteId m.invites invite }.updateInvite invite

/-- The three handlers that look an event up by one id and an invite by another, and change the
invite. -/
def changeInvite (eventId inviteId : ℕ) (allowed : CalendarEvent → Bool)
    (change : CalendarInvite → CalendarInvite) : CalendarMgr :=
  match m.getEvent eventId with
  | none => m
  | some event =>
    if !allowed event then m
    else
      match m.getInvite inviteId with
      | none => m
      | some invite => m.setInvite (change invite)

/-- `HandleCalendarEventRsvp`. -/
def handleEventRsvp (eventId inviteId status now : ℕ) : CalendarMgr :=
  m.changeInvite eventId inviteId
    (fun event => status = calendarStatusRemoved || !event.data.isLocked)
    fun invite => { invite with status := status, responseTime := now }

/-- `HandleCalendarEventRemoveInvite`. The owner is compared with the guid in the packet, not with
the invitee of the invite that is removed. -/
def handleEventRemoveInvite (eventId inviteId : ℕ) (inviteeGuid : Guid) : CalendarMgr :=
  match m.getEvent eventId with
  | none => m
  | some event =>
    if event.ownerGUID = inviteeGuid then m
    else m.removeInvite inviteId eventId

/-- `HandleCalendarEventStatus`. -/
def handleEventStatus (eventId inviteId status : ℕ) : CalendarMgr :=
  m.changeInvite eventId inviteId (fun _ => true) fun invite => { invite with status := status }

/-- `HandleCalendarEventModeratorStatus`. -/
def handleEventModeratorStatus (eventId inviteId rank : ℕ) : CalendarMgr :=
  m.changeInvite eventId inviteId (fun _ => true) fun invite => { invite with rank := rank }

/-! ### Start-up -/

/-- The ids below the largest one that are not in use. -/
def unusedIds (maxId : ℕ) (used : List ℕ) : List ℕ :=
  (List.range maxId).filter fun id => id ≠ 0 && !used.contains id

/-- The pool that `LoadFromDB` makes of the ids in a table. -/
def loadPool (used : List ℕ) : IdPool :=
  let maxId := used.foldl max 0
  ⟨unusedIds maxId used, maxId + 1⟩

/-- `LoadFromDB`. The guild of an event is that of its owner in the character cache. -/
def loadFromDB (getCharacterGuildId : Guid → ℕ) (eventRows : List EventRow)
    (inviteRows : List CalendarInvite) : CalendarMgr where
  events := eventRows.map fun row =>
    ⟨row.id, row.creator, if row.data.isOfGuild then getCharacterGuildId row.creator else 0, row.data⟩
  invites := inviteRows
  eventIds := loadPool (eventRows.map EventRow.id)
  inviteIds := loadPool (inviteRows.map CalendarInvite.inviteId)
  eventRows := eventRows
  inviteRows := inviteRows
  pending := []
  stale := false

end CalendarMgr

/-! ### Runs -/

/-- What happens to the calendar: a player sends a packet, a query comes back, or the server calls
one of the functions that remove events. A player's guild, the clock and the answers of other
systems are part of the action. -/
inductive Action
  | addEvent (guid : Guid) (guildId : ℕ) (isPast onCooldown : Bool) (data : EventData)
      (invites : List (Guid × ℕ × ℕ)) (place : ℕ)
  | updateEvent (guid : Guid) (isPast : Bool) (eventId : ℕ) (data : EventData)
  | removeEvent (guid : Guid) (eventId : ℕ)
  | copyEvent (guid : Guid) (guildId : ℕ) (isPast onCooldown : Bool) (eventId date place : ℕ)
  | eventInvite (request : InviteRequest) (isOnline : Bool) (guildId : ℕ)
      (isNotAllied isIgnoring : Bool)
  | inviteQueryCallback (index : ℕ) (isSamePlayer : Bool) (guildId : ℕ)
      (isNotAllied isIgnoring : Bool)
  | eventSignup (guid : Guid) (guildId eventId : ℕ) (isTentative : Bool) (now : ℕ)
  | eventRsvp (guid : Guid) (eventId inviteId status now : ℕ)
  | eventRemoveInvite (guid : Guid) (eventId inviteId : ℕ) (inviteeGuid : Guid)
  | eventStatus (guid : Guid) (eventId inviteId status : ℕ)
  | eventModeratorStatus (guid : Guid) (eventId inviteId rank : ℕ)
  | deleteOldEvents (now : ℕ)
  | removeAllPlayerEventsAndInvites (guid : Guid)
  | removePlayerGuildEventsAndSignups (guid : Guid) (guildId : ℕ)
  deriving Repr

open CalendarMgr in
/-- One action. The sender of a packet is not even looked at by most handlers. -/
def step (m : CalendarMgr) : Action → CalendarMgr
  | .addEvent guid guildId isPast onCooldown data invites place =>
    m.handleAddEvent guid guildId isPast onCooldown data invites place
  | .updateEvent _ isPast eventId data => m.handleUpdateEvent isPast eventId data
  | .removeEvent _ eventId => m.removeEventById eventId
  | .copyEvent guid guildId isPast onCooldown eventId date place =>
    m.handleCopyEvent guid guildId isPast onCooldown eventId date place
  | .eventInvite request isOnline guildId isNotAllied isIgnoring =>
    if isOnline then m.createInvite request true guildId isNotAllied isIgnoring
    else { m with pending := m.pending ++ [request] }
  | .inviteQueryCallback index isSamePlayer guildId isNotAllied isIgnoring =>
    m.inviteQueryCallback index isSamePlayer guildId isNotAllied isIgnoring
  | .eventSignup guid guildId eventId isTentative now =>
    m.handleEventSignup guid guildId eventId isTentative now
  | .eventRsvp _ eventId inviteId status now => m.handleEventRsvp eventId inviteId status now
  | .eventRemoveInvite _ eventId inviteId inviteeGuid =>
    m.handleEventRemoveInvite eventId inviteId inviteeGuid
  | .eventStatus _ eventId inviteId status => m.handleEventStatus eventId inviteId status
  | .eventModeratorStatus _ eventId inviteId rank =>
    m.handleEventModeratorStatus eventId inviteId rank
  | .deleteOldEvents now => m.deleteOldEvents now
  | .removeAllPlayerEventsAndInvites guid => m.removeAllPlayerEventsAndInvites guid
  | .removePlayerGuildEventsAndSignups guid guildId =>
    m.removePlayerGuildEventsAndSignups guid guildId

end IscServer.Calendar
