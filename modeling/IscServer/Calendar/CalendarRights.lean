import IscServer.Calendar.CalendarRuns

/-!
# Who May Change the Calendar

A player is authorised for an event if he owns it or has an invite of moderator or owner rank in it
(`Authorised`). A packet respects the rights of others (`Respects`) if it changes or removes an event
only when its sender is authorised for it, an invite of somebody else only when he is authorised for
its event, adds an invite to an event only when he is authorised or it is his own and he may see the
event, and never removes the owner's invite while the event exists.

The handlers ask for none of this, apart from the guild of a player who signs up and the owner's
guid in the packet that removes an invite. `Oversteps` says, of the state and the packet, when the
rights are not respected.

## Main results

* `respectful_step_iff` — one packet, from a sound store.
* `respectful_run_iff` — runs.
* `stranger_removes_event` — a player who has nothing to do with an event removes it.
-/

namespace IscServer.Calendar

open List Keyed

variable {m m' : CalendarMgr} {event : CalendarEvent} {invite : CalendarInvite} {p : Guid}
  {guildId eventId inviteId : ℕ}

namespace CalendarMgr

/-- The player owns the event or has an invite of moderator or owner rank in it. -/
def Authorised (m : CalendarMgr) (p : Guid) (event : CalendarEvent) : Prop :=
  event.ownerGUID = p ∨ ∃ invite ∈ m.invites, invite.eventId = event.eventId ∧ invite.invitee = p ∧
    (invite.rank = calendarRankModerator ∨ invite.rank = calendarRankOwner)

/-- The player owns the event, is invited to it, or it belongs to his guild. -/
def MaySee (m : CalendarMgr) (p : Guid) (guildId : ℕ) (event : CalendarEvent) : Prop :=
  event.ownerGUID = p ∨ (∃ invite ∈ m.invites, invite.eventId = event.eventId ∧ invite.invitee = p) ∨
    (guildId ≠ 0 ∧ event.guildId = guildId)

/-- What the player did to the calendar respects the rights of others. -/
structure Respects (m m' : CalendarMgr) (p : Guid) (guildId : ℕ) : Prop where
  events : ∀ event ∈ m.events, event ∉ m'.events → m.Authorised p event
  invites : ∀ invite ∈ m.invites, invite ∉ m'.invites → invite.invitee = p ∨
    ∃ event ∈ m.events, event.eventId = invite.eventId ∧ m.Authorised p event
  added : ∀ invite ∈ m'.invites, invite.inviteId ∉ m.invites.map CalendarInvite.inviteId →
    ∀ event ∈ m.events, event.eventId = invite.eventId →
      m.Authorised p event ∨ (invite.invitee = p ∧ m.MaySee p guildId event)
  owners : ∀ invite ∈ m.invites, invite.inviteId ∉ m'.invites.map CalendarInvite.inviteId →
    ∀ event ∈ m'.events, event.eventId = invite.eventId → event.ownerGUID ≠ invite.invitee

/-! ### What is respected in any case -/

/-- Events and invites that are only added, and no invite to an event that was there. -/
theorem Respects.of_grow (hevents : ∀ event ∈ m.events, event ∈ m'.events)
    (hinvites : ∀ invite ∈ m.invites, invite ∈ m'.invites)
    (hnew : ∀ invite ∈ m'.invites, invite ∈ m.invites ∨
      invite.eventId ∉ m.events.map CalendarEvent.eventId) : m.Respects m' p guildId where
  events event hmem hnot := absurd (hevents event hmem) hnot
  invites invite hmem hnot := absurd (hinvites invite hmem) hnot
  added invite hmem hfresh event hevent heq := by
    rcases hnew invite hmem with hold | hother
    · exact absurd (mem_map_of_mem hold) hfresh
    · exact absurd (heq ▸ mem_map_of_mem hevent) hother
  owners invite hmem hgone := absurd (mem_map_of_mem (hinvites invite hmem)) hgone

theorem Respects.of_eq (hevents : m'.events = m.events) (hinvites : m'.invites = m.invites) :
    m.Respects m' p guildId :=
  Respects.of_grow (fun _ h => hevents ▸ h) (fun _ h => hinvites ▸ h)
    fun _ h => Or.inl (hinvites ▸ h)

/-! ### The five kinds of changes -/

section

variable (h : m.Sound)
include h

/-- An event of the store is changed. -/
theorem Sound.respects_update (hmem : event ∈ m.events) (data : EventData)
    (hevents : m'.events = Keyed.put CalendarEvent.eventId m.events { event with data := data })
    (hinvites : m'.invites = m.invites) :
    m.Respects m' p guildId ↔ (event.data ≠ data → m.Authorised p event) := by
  have hkey : event.eventId ∈ m.events.map CalendarEvent.eventId := mem_map_of_mem hmem
  constructor
  · intro hr hne
    refine hr.events event hmem fun hin => hne ?_
    rw [hevents] at hin
    rcases mem_put_iff.mp hin with ⟨heq, -⟩ | ⟨-, hother⟩
    · exact congrArg CalendarEvent.data heq
    · exact absurd rfl hother
  · intro hauth
    refine ⟨fun e he hnot => ?_, fun i hi hnot => ?_, fun i hi hfresh => ?_, fun i hi hgone => ?_⟩
    · rw [hevents, mem_put_iff, not_or] at hnot
      by_cases hsame : e.eventId = event.eventId
      · obtain rfl := eq_of_key h.events.nodup he hmem hsame
        refine hauth fun heq => hnot.1 ⟨?_, hkey⟩
        rw [← heq]
      · exact absurd ⟨he, hsame⟩ hnot.2
    · exact absurd (hinvites ▸ hi) hnot
    · exact absurd (mem_map_of_mem (hinvites ▸ hi)) hfresh
    · exact absurd (mem_map_of_mem (hinvites ▸ hi)) hgone

/-- An event of the store is removed. -/
theorem Sound.respects_remove (hmem : event ∈ m.events) :
    m.Respects (m.removeEvent event) p guildId ↔ m.Authorised p event := by
  have hevents : ∀ e, e ∈ (m.removeEvent event).events ↔
      e ∈ m.events ∧ e.eventId ≠ event.eventId := fun e => by
    simp [CalendarMgr.removeEvent]
  have hinvites : ∀ i, i ∈ (m.removeEvent event).invites ↔
      i ∈ m.invites ∧ i.eventId ≠ event.eventId := fun i => by
    simp [CalendarMgr.removeEvent]
  constructor
  · exact fun hr => hr.events event hmem fun hin => ((hevents event).mp hin).2 rfl
  · intro hauth
    refine ⟨fun e he hnot => ?_, fun i hi hnot => Or.inr ⟨event, hmem, ?_, hauth⟩,
      fun i hi hfresh => ?_, fun i hi hgone e he heq => ?_⟩
    · by_cases hkey : e.eventId = event.eventId
      · obtain rfl := eq_of_key h.events.nodup he hmem hkey
        exact hauth
      · exact absurd ((hevents e).mpr ⟨he, hkey⟩) hnot
    · by_contra hkey
      exact hnot ((hinvites i).mpr ⟨hi, Ne.symm hkey⟩)
    · exact absurd (mem_map_of_mem ((hinvites i).mp hi).1) hfresh
    · refine absurd (mem_map_of_mem ((hinvites i).mpr ⟨hi, ?_⟩)) hgone
      rw [← heq]
      exact ((hevents e).mp he).2

/-- An invite is added to an event of the store. -/
theorem Sound.respects_newInvite (hmem : event ∈ m.events) (invitee : Guid)
    {invite : ℕ → CalendarInvite} (hid : ∀ id, (invite id).inviteId = id)
    (heventId : ∀ id, (invite id).eventId = event.eventId)
    (hinvitee : ∀ id, (invite id).invitee = invitee) :
    m.Respects (m.newInvite event invite) p guildId ↔
      (event.data.isGuildAnnouncement = false →
        m.Authorised p event ∨ (invitee = p ∧ m.MaySee p guildId event)) := by
  rw [CalendarMgr.newInvite, addInvite]
  by_cases hann : event.data.isGuildAnnouncement = true
  · rw [if_pos hann]
    refine iff_of_true (Respects.of_eq rfl rfl) fun hfalse => ?_
    rw [hann] at hfalse
    cases hfalse
  · rw [if_neg hann]
    have hinvites : ∀ i, i ∈ m.invites ++ [invite m.inviteIds.next] ↔
        i ∈ m.invites ∨ i = invite m.inviteIds.next := fun i => by
      rw [mem_append, mem_singleton]
    have hfresh : (invite m.inviteIds.next).inviteId ∉ m.invites.map CalendarInvite.inviteId := by
      rw [hid]
      exact h.invites.ids.take_notMem
    constructor
    · intro hr _
      have hadded := hr.added (invite m.inviteIds.next) ((hinvites _).mpr (Or.inr rfl)) hfresh event
        hmem (heventId _).symm
      rwa [hinvitee] at hadded
    · intro hright
      refine ⟨fun e he hnot => absurd he hnot,
        fun i hi hnot => absurd ((hinvites i).mpr (Or.inl hi)) hnot, fun i hi hnew e he heq => ?_,
        fun i hi hgone => absurd (mem_map_of_mem ((hinvites i).mpr (Or.inl hi))) hgone⟩
      rcases (hinvites i).mp hi with hold | rfl
      · exact absurd (mem_map_of_mem hold) hnew
      · obtain rfl := eq_of_key h.events.nodup he hmem (heq.trans (heventId _))
        rw [hinvitee]
        exact hright (Bool.eq_false_iff.mpr hann)

/-- An invite of the store is changed, but not its ids. -/
theorem Sound.respects_setInvite (hmem : invite ∈ m.invites)
    (invite' : CalendarInvite) (hid : invite'.inviteId = invite.inviteId) :
    m.Respects (m.setInvite invite') p guildId ↔ (invite' ≠ invite → invite.invitee = p ∨
      ∃ event ∈ m.events, event.eventId = invite.eventId ∧ m.Authorised p event) := by
  have hkey : invite'.inviteId ∈ m.invites.map CalendarInvite.inviteId := hid ▸ mem_map_of_mem hmem
  have hinvites : ∀ i, i ∈ (m.setInvite invite').invites ↔
      i = invite' ∨ (i ∈ m.invites ∧ i.inviteId ≠ invite'.inviteId) := fun i =>
    mem_put_iff.trans (or_congr_left (and_iff_left hkey))
  have hids : (m.setInvite invite').invites.map CalendarInvite.inviteId =
      m.invites.map CalendarInvite.inviteId := keys_put
  constructor
  · intro hr hne
    refine hr.invites invite hmem fun hin => ?_
    rcases (hinvites invite).mp hin with heq | ⟨-, hother⟩
    · exact hne heq.symm
    · exact hother hid.symm
  · intro hright
    refine ⟨fun e he hnot => absurd he hnot, fun i hi hnot => ?_, fun i hi hnew => ?_,
      fun i hi hgone => ?_⟩
    · by_cases hsame : i.inviteId = invite'.inviteId
      · obtain rfl := eq_of_key h.invites.nodup hi hmem (hsame.trans hid)
        exact hright fun heq => hnot ((hinvites i).mpr (Or.inl heq.symm))
      · exact absurd ((hinvites i).mpr (Or.inr ⟨hi, hsame⟩)) hnot
    · refine absurd ?_ hnew
      rw [← hids]
      exact mem_map_of_mem hi
    · refine absurd ?_ hgone
      rw [hids]
      exact mem_map_of_mem hi

/-- An invite of the store is removed. -/
theorem Sound.respects_removeInvite (hmem : invite ∈ m.invites)
    (hevent : event ∈ m.events) (heq : event.eventId = invite.eventId) (hevents : m'.events = m.events)
    (hinvites : m'.invites = m.invites.filter fun i => !(i.inviteId = invite.inviteId)) :
    m.Respects m' p guildId ↔
      (invite.invitee = p ∨ m.Authorised p event) ∧ event.ownerGUID ≠ invite.invitee := by
  have hin : ∀ i, i ∈ m'.invites ↔ i ∈ m.invites ∧ i.inviteId ≠ invite.inviteId := fun i => by
    simp [hinvites]
  have hgone : invite.inviteId ∉ m'.invites.map CalendarInvite.inviteId := by
    intro hid
    obtain ⟨i, hi, hid⟩ := mem_map.mp hid
    exact ((hin i).mp hi).2 hid
  constructor
  · intro hr
    refine ⟨?_, hr.owners invite hmem hgone event (hevents ▸ hevent) heq⟩
    refine (hr.invites invite hmem fun hi => ((hin _).mp hi).2 rfl).imp_right ?_
    rintro ⟨e, he, hid, hauth⟩
    obtain rfl := eq_of_key h.events.nodup he hevent (hid.trans heq.symm)
    exact hauth
  · rintro ⟨hright, howner⟩
    refine ⟨fun e he hnot => absurd (hevents ▸ he) hnot, fun i hi hnot => ?_,
      fun i hi hnew => absurd (mem_map_of_mem ((hin i).mp hi).1) hnew,
      fun i hi hnot e he hid => ?_⟩
    · by_cases hsame : i.inviteId = invite.inviteId
      · obtain rfl := eq_of_key h.invites.nodup hi hmem hsame
        exact hright.imp_right fun hauth => ⟨event, hevent, heq, hauth⟩
      · exact absurd ((hin i).mpr ⟨hi, hsame⟩) hnot
    · by_cases hsame : i.inviteId = invite.inviteId
      · obtain rfl := eq_of_key h.invites.nodup hi hmem hsame
        obtain rfl := eq_of_key h.events.nodup (hevents ▸ he) hevent (hid.trans heq.symm)
        exact howner
      · exact absurd (mem_map_of_mem ((hin i).mpr ⟨hi, hsame⟩)) hnot

end

/-! ### The packets -/

/-- The sender of a packet respects the rights of others; an RSVP, moreover, changes nothing but the
sender's own invite of the event it names. The server's own calls are no packets. -/
def Respectful (m : CalendarMgr) (a : Action) : Prop :=
  match a with
  | .addEvent p guildId .. | .copyEvent p guildId .. | .eventSignup p guildId .. =>
    m.Respects (step m a) p guildId
  | .updateEvent p .. | .removeEvent p .. | .eventRemoveInvite p .. | .eventStatus p ..
  | .eventModeratorStatus p .. => m.Respects (step m a) p 0
  | .eventInvite request _ guildId .. => m.Respects (step m a) request.playerGuid guildId
  | .inviteQueryCallback index _ guildId .. =>
    ∀ request, m.pending[index]? = some request →
      m.Respects (step m a) request.playerGuid guildId
  | .eventRsvp p eventId .. => m.Respects (step m a) p 0 ∧ ∀ invite ∈ m.invites,
      invite ∉ (step m a).invites → invite.invitee = p ∧ invite.eventId = eventId
  | .deleteOldEvents .. | .removeAllPlayerEventsAndInvites ..
  | .removePlayerGuildEventsAndSignups .. => True

/-- An invite gets through the checks of `HandleCalendarEventInvite`, and its sender is neither
authorised for the event nor invites himself to an event he may see. -/
def InvitesUnauthorised (m : CalendarMgr) (request : InviteRequest) (guildId : ℕ)
    (isNotAllied isIgnoring : Bool) : Prop :=
  isNotAllied = false ∧ isIgnoring = false ∧ ∃ event ∈ m.events,
    request.eventId = some event.eventId ∧
    ¬ (event.data.isGuildEvent = true ∧ event.guildId = request.inviteeGuildId) ∧
    event.data.isGuildAnnouncement = false ∧ ¬ m.Authorised request.playerGuid event ∧
    ¬ (request.inviteeGuid = request.playerGuid ∧ m.MaySee request.playerGuid guildId event)

/-- An invite, found by its own id alone, is of somebody else, and the player is not authorised for
its event. -/
def IsOthersInvite (m : CalendarMgr) (p : Guid) (invite : CalendarInvite) : Prop :=
  invite.invitee ≠ p ∧
    ∀ event ∈ m.events, event.eventId = invite.eventId → ¬ m.Authorised p event

/-- The packet oversteps the rights of its sender. -/
def Oversteps (m : CalendarMgr) : Action → Prop
  | .updateEvent p isPast eventId data => isPast = false ∧ ∃ event ∈ m.events,
      event.eventId = eventId ∧ event.data ≠ data ∧ ¬ m.Authorised p event
  | .removeEvent p eventId => ∃ event ∈ m.events, event.eventId = eventId ∧ ¬ m.Authorised p event
  | .eventInvite request isOnline guildId isNotAllied isIgnoring =>
    isOnline = true ∧ m.InvitesUnauthorised request guildId isNotAllied isIgnoring
  | .inviteQueryCallback index isSamePlayer guildId isNotAllied isIgnoring =>
    isSamePlayer = true ∧ ∃ request, m.pending[index]? = some request ∧
      m.InvitesUnauthorised request guildId isNotAllied isIgnoring
  | .eventSignup p guildId eventId _ _ => ∃ event ∈ m.events, event.eventId = eventId ∧
      ¬ (event.data.isGuildEvent = true ∧ event.guildId ≠ guildId) ∧
      event.data.isGuildAnnouncement = false ∧ ¬ m.Authorised p event ∧ ¬ m.MaySee p guildId event
  | .eventRsvp p eventId inviteId status now => ∃ event ∈ m.events, event.eventId = eventId ∧
      (status = calendarStatusRemoved ∨ event.data.isLocked = false) ∧
      ∃ invite ∈ m.invites, invite.inviteId = inviteId ∧
        (invite.status ≠ status ∨ invite.responseTime ≠ now) ∧
        ¬ (invite.invitee = p ∧ invite.eventId = eventId)
  | .eventRemoveInvite p eventId inviteId inviteeGuid => ∃ event ∈ m.events,
      event.eventId = eventId ∧ event.ownerGUID ≠ inviteeGuid ∧
      ∃ invite ∈ m.invites, invite.inviteId = inviteId ∧ invite.eventId = eventId ∧
        ((invite.invitee ≠ p ∧ ¬ m.Authorised p event) ∨ event.ownerGUID = invite.invitee)
  | .eventStatus p eventId inviteId status => (∃ event ∈ m.events, event.eventId = eventId) ∧
      ∃ invite ∈ m.invites, invite.inviteId = inviteId ∧ invite.status ≠ status ∧
        m.IsOthersInvite p invite
  | .eventModeratorStatus p eventId inviteId rank => (∃ event ∈ m.events, event.eventId = eventId) ∧
      ∃ invite ∈ m.invites, invite.inviteId = inviteId ∧ invite.rank ≠ rank ∧
        m.IsOthersInvite p invite
  | .addEvent .. | .copyEvent .. | .deleteOldEvents .. | .removeAllPlayerEventsAndInvites ..
  | .removePlayerGuildEventsAndSignups .. => False

theorem getEvent_eq_none (h : m.getEvent eventId = none) : ∀ event ∈ m.events,
    event.eventId ≠ eventId := find_eq_none_iff.mp h

theorem getInvite_eq_none (h : m.getInvite inviteId = none) : ∀ invite ∈ m.invites,
    invite.inviteId ≠ inviteId := find_eq_none_iff.mp h

/-- Events with the id of an event of the store are that event. -/
theorem Sound.event_unique (h : m.Sound) {e : CalendarEvent} (he : e ∈ m.events)
    (hmem : event ∈ m.events) (hid : e.eventId = event.eventId) : e = event :=
  eq_of_key h.events.nodup he hmem hid

variable {i : CalendarInvite}

section

variable (h : m.Sound)
include h

theorem Sound.invite_unique (hi : i ∈ m.invites) (hmem : invite ∈ m.invites)
    (hid : i.inviteId = invite.inviteId) : i = invite :=
  eq_of_key h.invites.nodup hi hmem hid

theorem Sound.respectful_update (isPast : Bool) (data : EventData) :
    Respectful m (.updateEvent p isPast eventId data) ↔
      ¬ Oversteps m (.updateEvent p isPast eventId data) := by
  rw [Respectful, Calendar.step, CalendarMgr.handleUpdateEvent]
  by_cases hpast : isPast = true
  · rw [if_pos hpast]
    refine iff_of_true (Respects.of_eq rfl rfl) ?_
    rintro ⟨hfalse, -⟩
    rw [hpast] at hfalse
    cases hfalse
  · rw [if_neg hpast]
    cases hget : m.getEvent eventId with
    | none =>
      refine iff_of_true (Respects.of_eq rfl rfl) ?_
      rintro ⟨-, e, he, hid, -⟩
      exact getEvent_eq_none hget e he hid
    | some event =>
      obtain ⟨hmem, hid⟩ := h.mem_of_getEvent hget
      refine Iff.trans (h.respects_update hmem data ?_ ?_) ⟨?_, fun hnot hne => ?_⟩
      · rfl
      · rfl
      · rintro hauth ⟨-, e, he, heq, hne, hno⟩
        obtain rfl := h.event_unique he hmem (heq.trans hid.symm)
        exact hno (hauth hne)
      · by_contra hno
        exact hnot ⟨Bool.eq_false_iff.mpr hpast, event, hmem, hid, hne, hno⟩

theorem Sound.respectful_remove :
    Respectful m (.removeEvent p eventId) ↔ ¬ Oversteps m (.removeEvent p eventId) := by
  rw [Respectful, Calendar.step, CalendarMgr.removeEventById]
  cases hget : m.getEvent eventId with
  | none =>
    refine iff_of_true (Respects.of_eq rfl rfl) ?_
    rintro ⟨e, he, hid, -⟩
    exact getEvent_eq_none hget e he hid
  | some event =>
    obtain ⟨hmem, hid⟩ := h.mem_of_getEvent hget
    refine (h.respects_remove hmem).trans ⟨?_, fun hnot => ?_⟩
    · rintro hauth ⟨e, he, heq, hno⟩
      obtain rfl := h.event_unique he hmem (heq.trans hid.symm)
      exact hno hauth
    · by_contra hno
      exact hnot ⟨event, hmem, hid, hno⟩

/-- The closure of `HandleCalendarEventInvite`. -/
theorem Sound.respects_createInvite (request : InviteRequest) (isSamePlayer : Bool)
    (guildId : ℕ) (isNotAllied isIgnoring : Bool) :
    m.Respects (m.createInvite request isSamePlayer guildId isNotAllied isIgnoring)
      request.playerGuid guildId ↔
    ¬ (isSamePlayer = true ∧ m.InvitesUnauthorised request guildId isNotAllied isIgnoring) := by
  cases isSamePlayer with
  | false => exact iff_of_true (Respects.of_eq rfl rfl) fun hc => Bool.false_ne_true hc.1
  | true =>
    cases isNotAllied with
    | true => exact iff_of_true (Respects.of_eq rfl rfl) fun hc => Bool.false_ne_true hc.2.1.symm
    | false =>
      cases isIgnoring with
      | true => exact iff_of_true (Respects.of_eq rfl rfl) fun hc => Bool.false_ne_true hc.2.2.1.symm
      | false =>
        rw [CalendarMgr.createInvite]
        rw [if_neg (by decide), if_neg (by decide), if_neg (by decide)]
        cases heventId : request.eventId with
        | none =>
          refine iff_of_true ?_ ?_
          · split_ifs <;> exact Respects.of_eq rfl rfl
          · rintro ⟨-, -, -, e, -, heq, -⟩
            rw [heventId] at heq
            cases heq
        | some eventId =>
          dsimp only
          cases hget : m.getEvent eventId with
          | none =>
            refine iff_of_true (Respects.of_eq rfl rfl) ?_
            rintro ⟨-, -, -, e, he, heq, -⟩
            rw [heventId] at heq
            exact getEvent_eq_none hget e he (Option.some.inj heq).symm
          | some event =>
            obtain ⟨hmem, rfl⟩ := h.mem_of_getEvent hget
            dsimp only
            by_cases hguild : (event.data.isGuildEvent &&
                decide (event.guildId = request.inviteeGuildId)) = true
            · rw [if_pos hguild]
              refine iff_of_true (Respects.of_eq rfl rfl) ?_
              rintro ⟨-, -, -, e, he, heq, hno, -⟩
              rw [heventId] at heq
              obtain rfl := h.event_unique he hmem (Option.some.inj heq).symm
              exact hno (by simpa using hguild)
            · rw [if_neg hguild]
              refine (h.respects_newInvite hmem request.inviteeGuid (fun _ => rfl)
                (fun _ => rfl) fun _ => rfl).trans ⟨?_, fun hnot hann => ?_⟩
              · rintro hright ⟨-, -, -, e, he, heq, -, hann, hno, hself⟩
                rw [heventId] at heq
                obtain rfl := h.event_unique he hmem (Option.some.inj heq).symm
                exact (hright hann).elim hno hself
              · by_contra hno
                rw [not_or] at hno
                exact hnot ⟨rfl, rfl, rfl, event, hmem, heventId, by simpa using hguild, hann,
                  hno.1, hno.2⟩

theorem Sound.respectful_signup (isTentative : Bool) (now : ℕ) :
    Respectful m (.eventSignup p guildId eventId isTentative now) ↔
      ¬ Oversteps m (.eventSignup p guildId eventId isTentative now) := by
  rw [Respectful, Calendar.step, CalendarMgr.handleEventSignup]
  cases hget : m.getEvent eventId with
  | none =>
    refine iff_of_true (Respects.of_eq rfl rfl) ?_
    rintro ⟨e, he, hid, -⟩
    exact getEvent_eq_none hget e he hid
  | some event =>
    obtain ⟨hmem, rfl⟩ := h.mem_of_getEvent hget
    dsimp only
    by_cases hguild : (event.data.isGuildEvent && event.guildId != guildId) = true
    · rw [if_pos hguild]
      refine iff_of_true (Respects.of_eq rfl rfl) ?_
      rintro ⟨e, he, hid, hno, -⟩
      obtain rfl := h.event_unique he hmem hid
      exact hno (by simpa using hguild)
    · rw [if_neg hguild]
      refine (h.respects_newInvite hmem p (fun _ => rfl) (fun _ => rfl) fun _ => rfl).trans ⟨?_, fun hnot hann => ?_⟩
      · rintro hright ⟨e, he, hid, -, hann, hno, hself⟩
        obtain rfl := h.event_unique he hmem hid
        exact (hright hann).elim hno fun hsee => hself hsee.2
      · by_contra hno
        rw [not_or] at hno
        exact hnot ⟨event, hmem, rfl, by simpa using hguild, hann, hno.1,
          fun hsee => hno.2 ⟨rfl, hsee⟩⟩

/-- The three handlers that change an invite in place. -/
theorem Sound.respects_changeInvite (allowed : CalendarEvent → Bool)
    (change : CalendarInvite → CalendarInvite) (hid : ∀ i, (change i).inviteId = i.inviteId) :
    m.Respects (m.changeInvite eventId inviteId allowed change) p guildId ↔
      ¬ ((∃ event ∈ m.events, event.eventId = eventId ∧ allowed event = true) ∧
        ∃ invite ∈ m.invites, invite.inviteId = inviteId ∧ change invite ≠ invite ∧
          m.IsOthersInvite p invite) := by
  obtain ⟨heq, hnone⟩ | ⟨event, hmem, hevent, hyes, invite, himem, rfl, heq⟩ :=
    h.changeInvite_cases eventId inviteId allowed change
  · rw [heq]
    refine iff_of_true (Respects.of_eq rfl rfl) ?_
    rintro ⟨hfound, i, hi, hiid, -⟩
    exact hnone ⟨hfound, i, hi, hiid⟩
  rw [heq]
  refine (h.respects_setInvite himem (change invite) (hid invite)).trans ⟨?_, fun hnot hne => ?_⟩
  · rintro hright ⟨-, i, hi, heq, hne, hself, hno⟩
    obtain rfl := h.invite_unique hi himem heq
    rcases hright hne with hown | ⟨e, he, heq, hauth⟩
    · exact hself hown
    · exact hno e he heq hauth
  · by_contra hright
    rw [not_or] at hright
    exact hnot ⟨⟨event, hmem, hevent, hyes⟩, invite, himem, rfl, hne, hright.1,
      fun e he heq hauth => hright.2 ⟨e, he, heq, hauth⟩⟩

theorem Sound.respectful_removeInvite (inviteeGuid : Guid) :
    Respectful m (.eventRemoveInvite p eventId inviteId inviteeGuid) ↔
      ¬ Oversteps m (.eventRemoveInvite p eventId inviteId inviteeGuid) := by
  rw [Respectful, Calendar.step, handleEventRemoveInvite]
  cases hget : m.getEvent eventId with
  | none =>
    refine iff_of_true (Respects.of_eq rfl rfl) ?_
    rintro ⟨e, he, hid, -⟩
    exact getEvent_eq_none hget e he hid
  | some event =>
    obtain ⟨hmem, rfl⟩ := h.mem_of_getEvent hget
    dsimp only
    by_cases howner : event.ownerGUID = inviteeGuid
    · rw [if_pos howner]
      refine iff_of_true (Respects.of_eq rfl rfl) ?_
      rintro ⟨e, he, hid, hne, -⟩
      obtain rfl := h.event_unique he hmem hid
      exact hne howner
    · rw [if_neg howner]
      rcases h.removeInvite_cases inviteId event.eventId with ⟨heq, hnone⟩ | ⟨invite, hi, rfl, hie, heq⟩
      · rw [heq]
        refine iff_of_true (Respects.of_eq rfl rfl) ?_
        rintro ⟨-, -, -, -, i, hi, hiid, hie, -⟩
        rcases hnone with hnone | hnone
        · rw [hget] at hnone
          cases hnone
        · exact hnone i hi hie hiid
      · rw [heq]
        refine Iff.trans (h.respects_removeInvite hi hmem hie.symm ?_ ?_) ⟨?_, fun hnot => ?_⟩
        · rfl
        · rfl
        · rintro ⟨hright, hown⟩ ⟨e, he, hid, -, i, hi', hiid, -, hbad⟩
          obtain rfl := h.event_unique he hmem hid
          obtain rfl := h.invite_unique hi' hi hiid
          rcases hbad with ⟨hself, hno⟩ | hown'
          · exact hright.elim hself hno
          · exact hown hown'
        · by_contra hbad
          refine hnot ⟨event, hmem, rfl, howner, invite, hi, rfl, hie, ?_⟩
          by_cases hown : event.ownerGUID = invite.invitee
          · exact Or.inr hown
          · exact Or.inl (not_or.mp fun hright => hbad ⟨hright, hown⟩)

/-- Which invite has changed. -/
theorem Sound.notMem_setInvite_iff (hmem : invite ∈ m.invites)
    (invite' : CalendarInvite) (hid : invite'.inviteId = invite.inviteId) (hi : i ∈ m.invites) :
    i ∉ (m.setInvite invite').invites ↔ i = invite ∧ invite' ≠ invite := by
  have hkey : invite'.inviteId ∈ m.invites.map CalendarInvite.inviteId := hid ▸ mem_map_of_mem hmem
  rw [CalendarMgr.setInvite, updateInvite, mem_put_iff, not_or]
  constructor
  · rintro ⟨hnew, hold⟩
    by_cases hsame : i.inviteId = invite'.inviteId
    · obtain rfl := h.invite_unique hi hmem (hsame.trans hid)
      exact ⟨rfl, fun heq => hnew ⟨heq.symm, hkey⟩⟩
    · exact absurd ⟨hi, hsame⟩ hold
  · rintro ⟨rfl, hne⟩
    exact ⟨fun heq => hne heq.1.symm, fun hold => hold.2 hid.symm⟩

/-- An RSVP changes nothing but the invite it finds. -/
theorem Sound.respectful_rsvp (status now : ℕ) :
    Respectful m (.eventRsvp p eventId inviteId status now) ↔
      ¬ Oversteps m (.eventRsvp p eventId inviteId status now) := by
  rw [Respectful, Calendar.step, handleEventRsvp]
  obtain ⟨heq, hnone⟩ | ⟨event, hmem, hevent, hopen, invite, himem, rfl, heq⟩ :=
    h.changeInvite_cases eventId inviteId
      (fun event => status = calendarStatusRemoved || !event.data.isLocked)
      fun invite => { invite with status := status, responseTime := now }
  · rw [heq]
    refine iff_of_true ⟨Respects.of_eq rfl rfl, fun i hi hnot => absurd hi hnot⟩ ?_
    rintro ⟨e, he, hid, hopen, i, hi, hiid, -⟩
    exact hnone ⟨⟨e, he, hid, by simpa using hopen⟩, i, hi, hiid⟩
  rw [heq]
  generalize hreply : ({ invite with status := status, responseTime := now } :
    CalendarInvite) = reply
  have hrid : reply.inviteId = invite.inviteId := by rw [← hreply]
  have hchanged : reply ≠ invite ↔ invite.status ≠ status ∨ invite.responseTime ≠ now := by
    rw [← hreply]
    constructor
    · intro hne
      by_contra hsame
      rw [not_or, not_not, not_not] at hsame
      exact hne (by rw [← hsame.1, ← hsame.2])
    · rintro (hne | hne) heq
      · exact hne (congrArg CalendarInvite.status heq).symm
      · exact hne (congrArg CalendarInvite.responseTime heq).symm
  constructor
  · rintro ⟨-, hown⟩ ⟨e, -, -, -, i, hi, hiid, hne, hno⟩
    obtain rfl := h.invite_unique hi himem hiid
    exact hno (hown i hi ((h.notMem_setInvite_iff himem reply hrid hi).mpr
      ⟨rfl, hchanged.mpr hne⟩))
  · intro hnot
    have hown : reply ≠ invite → invite.invitee = p ∧ invite.eventId = eventId := by
      intro hne
      by_contra hno
      exact hnot ⟨event, hmem, hevent, by simpa using hopen, invite, himem, rfl,
        hchanged.mp hne, hno⟩
    refine ⟨(h.respects_setInvite himem reply hrid).mpr fun hne => Or.inl (hown hne).1,
      fun i hi hgone => ?_⟩
    obtain ⟨rfl, hne⟩ := (h.notMem_setInvite_iff himem reply hrid hi).mp hgone
    exact hown hne

end

/-- Invites that are added to a new event. -/
theorem newInvites_grow {α : Type} (m : CalendarMgr) (event : CalendarEvent) (items : List α)
    (invite : α → ℕ → CalendarInvite) (heventId : ∀ a id, (invite a id).eventId = event.eventId) :
    (∀ i ∈ m.invites, i ∈ (items.foldl (fun m a => m.newInvite event (invite a)) m).invites) ∧
    (∀ i ∈ (items.foldl (fun m a => m.newInvite event (invite a)) m).invites,
      i ∈ m.invites ∨ i.eventId = event.eventId) := by
  induction items generalizing m with
  | nil => exact ⟨fun _ hi => hi, fun _ hi => Or.inl hi⟩
  | cons a items ih =>
    obtain ⟨hold, hnew⟩ := ih (m.newInvite event (invite a))
    have hone : ∀ i, i ∈ (m.newInvite event (invite a)).invites → i ∈ m.invites ∨
        i.eventId = event.eventId := by
      intro i hi
      rw [CalendarMgr.newInvite, addInvite] at hi
      split_ifs at hi
      · exact Or.inl hi
      · rcases mem_append.mp hi with hi | hi
        · exact Or.inl hi
        · rw [mem_singleton.mp hi]
          exact Or.inr (heventId a _)
    have hkeep : ∀ i ∈ m.invites, i ∈ (m.newInvite event (invite a)).invites := by
      intro i hi
      rw [CalendarMgr.newInvite, addInvite]
      split_ifs
      · exact hi
      · exact mem_append_left _ hi
    exact ⟨fun i hi => hold i (hkeep i hi), fun i hi => (hnew i hi).elim (hone i) Or.inr⟩

/-- A new event, with invites of its own. -/
theorem respects_addEvent {invited : CalendarMgr}
    (hfresh : event.eventId ∉ m.events.map CalendarEvent.eventId) (place : ℕ)
    (hevents : invited.events = m.events) (hkeep : ∀ i ∈ m.invites, i ∈ invited.invites)
    (hnew : ∀ i ∈ invited.invites, i ∈ m.invites ∨ i.eventId = event.eventId) :
    m.Respects (invited.addEvent event place) p guildId := by
  refine Respects.of_grow (fun e he => ?_) hkeep fun i hi => (hnew i hi).imp_right fun heq => ?_
  · refine (insert_perm place event invited.events).mem_iff.mpr (mem_cons_of_mem _ ?_)
    rw [hevents]
    exact he
  · rw [heq]
    exact hfresh

section

variable (h : m.Sound)
include h

theorem Sound.respectful_add (guildId : ℕ) (isPast onCooldown : Bool)
    (data : EventData) (invites : List (Guid × ℕ × ℕ)) (place : ℕ) :
    Respectful m (.addEvent p guildId isPast onCooldown data invites place) := by
  rw [Respectful, Calendar.step]
  obtain heq | ⟨event, hid, heq⟩ :=
    m.handleAddEvent_cases p guildId isPast onCooldown data invites place
  · rw [heq]
    exact Respects.of_eq rfl rfl
  have hfresh : event.eventId ∉ m.events.map CalendarEvent.eventId := hid ▸ h.events.ids.take_notMem
  rw [heq]
  split_ifs
  · exact respects_addEvent hfresh place rfl (fun _ hi => hi) fun _ hi => Or.inl hi
  · obtain ⟨hevents, -⟩ := newInvites_frame { m with eventIds := m.eventIds.take } event invites
      (packetInvite p event.eventId)
    obtain ⟨hkeep, hnew⟩ := newInvites_grow { m with eventIds := m.eventIds.take } event invites
      (packetInvite p event.eventId) fun _ _ => rfl
    exact respects_addEvent hfresh place hevents hkeep hnew

theorem Sound.respectful_copy (guildId : ℕ) (isPast onCooldown : Bool) (date place : ℕ) :
    Respectful m (.copyEvent p guildId isPast onCooldown eventId date place) := by
  rw [Respectful, Calendar.step]
  obtain heq | ⟨event, added, hid, hadd, heq⟩ :=
    m.handleCopyEvent_cases p guildId isPast onCooldown eventId date place
  · rw [heq]
    exact Respects.of_eq rfl rfl
  have hfresh : event.eventId ∉ m.events.map CalendarEvent.eventId := hid ▸ h.events.ids.take_notMem
  have hsame : added.invites = m.invites := by rw [hadd]; rfl
  have hadded : ∀ e ∈ m.events, e ∈ added.events := by
    rw [hadd]
    exact fun e he => (insert_perm place event m.events).mem_iff.mpr (mem_cons_of_mem _ he)
  obtain ⟨hevents, -⟩ := newInvites_frame added event (added.getEventInvites eventId)
    (fun invite => copyInvite event.eventId invite)
  obtain ⟨hkeep, hnew⟩ := newInvites_grow added event (added.getEventInvites eventId)
    (fun invite => copyInvite event.eventId invite) fun _ _ => rfl
  rw [heq]
  refine Respects.of_grow (fun e he => hevents ▸ hadded e he)
    (fun i hi => hkeep i (hsame ▸ hi)) fun i hi => ?_
  refine (hnew i hi).imp (fun hold => hsame ▸ hold) fun heq => ?_
  rw [heq]
  exact hfresh

theorem Sound.respectful_status (status : ℕ) :
    Respectful m (.eventStatus p eventId inviteId status) ↔
      ¬ Oversteps m (.eventStatus p eventId inviteId status) := by
  refine (h.respects_changeInvite (fun _ => true)
    (fun invite => { invite with status := status }) fun _ => rfl).trans (not_congr ?_)
  refine and_congr (by simp) (exists_congr fun i => and_congr_right fun _ =>
    and_congr_right fun _ => and_congr_left fun _ => not_congr ⟨fun heq => ?_, fun heq => ?_⟩)
  · exact (congrArg CalendarInvite.status heq).symm
  · rw [← heq]

theorem Sound.respectful_moderatorStatus (rank : ℕ) :
    Respectful m (.eventModeratorStatus p eventId inviteId rank) ↔
      ¬ Oversteps m (.eventModeratorStatus p eventId inviteId rank) := by
  refine (h.respects_changeInvite (fun _ => true)
    (fun invite => { invite with rank := rank }) fun _ => rfl).trans (not_congr ?_)
  refine and_congr (by simp) (exists_congr fun i => and_congr_right fun _ =>
    and_congr_right fun _ => and_congr_left fun _ => not_congr ⟨fun heq => ?_, fun heq => ?_⟩)
  · exact (congrArg CalendarInvite.rank heq).symm
  · rw [← heq]

theorem Sound.respectful_invite (request : InviteRequest) (isOnline : Bool)
    (guildId : ℕ) (isNotAllied isIgnoring : Bool) :
    Respectful m (.eventInvite request isOnline guildId isNotAllied isIgnoring) ↔
      ¬ Oversteps m (.eventInvite request isOnline guildId isNotAllied isIgnoring) := by
  cases isOnline with
  | true => exact h.respects_createInvite request true guildId isNotAllied isIgnoring
  | false => exact iff_of_true (Respects.of_eq rfl rfl) fun hc => Bool.false_ne_true hc.1

/-- An answer that comes back is judged in the state in which it does. -/
theorem Sound.respectful_callback (index : ℕ) (isSamePlayer : Bool) (guildId : ℕ)
    (isNotAllied isIgnoring : Bool) :
    Respectful m (.inviteQueryCallback index isSamePlayer guildId isNotAllied isIgnoring) ↔
      ¬ Oversteps m (.inviteQueryCallback index isSamePlayer guildId isNotAllied isIgnoring) := by
  rw [Respectful, Oversteps, Calendar.step, CalendarMgr.inviteQueryCallback]
  cases hpending : m.pending[index]? with
  | none => simp
  | some request =>
    have hiff := (h.of_pending (m.pending.eraseIdx index)).respects_createInvite request
      isSamePlayer guildId isNotAllied isIgnoring
    constructor
    · rintro hall ⟨hsame, r, hr, hinvites⟩
      obtain rfl := Option.some.inj hr
      have hr := hall request rfl
      exact hiff.mp ⟨hr.events, hr.invites, hr.added, hr.owners⟩ ⟨hsame, hinvites⟩
    · rintro hnot r hr
      obtain rfl := Option.some.inj hr
      have hr := hiff.mpr fun hc => hnot ⟨hc.1, request, rfl, hc.2⟩
      exact ⟨hr.events, hr.invites, hr.added, hr.owners⟩

end

end CalendarMgr

/-! ### Runs -/

open CalendarMgr

/-- **One packet**: it respects the rights of others exactly if it does not overstep those of its
sender. -/
theorem respectful_step_iff (h : m.Sound) (a : Action) : Respectful m a ↔ ¬ Oversteps m a := by
  cases a with
  | addEvent p guildId isPast onCooldown data invites place =>
    exact iff_of_true (h.respectful_add guildId isPast onCooldown data invites place) id
  | updateEvent p isPast eventId data => exact h.respectful_update isPast data
  | removeEvent p eventId => exact h.respectful_remove
  | copyEvent p guildId isPast onCooldown eventId date place =>
    exact iff_of_true (h.respectful_copy guildId isPast onCooldown date place) id
  | eventInvite request isOnline guildId isNotAllied isIgnoring =>
    exact h.respectful_invite request isOnline guildId isNotAllied isIgnoring
  | inviteQueryCallback index isSamePlayer guildId isNotAllied isIgnoring =>
    exact h.respectful_callback index isSamePlayer guildId isNotAllied isIgnoring
  | eventSignup p guildId eventId isTentative now => exact h.respectful_signup isTentative now
  | eventRsvp p eventId inviteId status now => exact h.respectful_rsvp status now
  | eventRemoveInvite p eventId inviteId inviteeGuid => exact h.respectful_removeInvite inviteeGuid
  | eventStatus p eventId inviteId status => exact h.respectful_status status
  | eventModeratorStatus p eventId inviteId rank => exact h.respectful_moderatorStatus rank
  | deleteOldEvents now => exact iff_of_true trivial id
  | removeAllPlayerEventsAndInvites guid => exact iff_of_true trivial id
  | removePlayerGuildEventsAndSignups guid guildId => exact iff_of_true trivial id

/-- **Runs**: from a sound store, every packet respects the rights of others exactly if none
oversteps those of its sender. -/
theorem respectful_run_iff (h : m.Sound) (actions : List Action) :
    Run.Along step Respectful m actions ↔ Run.Along step (fun m a => ¬ Oversteps m a) m actions :=
  Run.along_congr CalendarMgr.Sound (fun _ a hm => respectful_step_iff hm a)
    (fun _ a hm _ => hm.step a) actions h

/-- A store with one event of the player 7, to which he has invited the player 8. -/
def partyStore : CalendarMgr :=
  .loadFromDB (fun _ => 0) [⟨1, 7, ⟨4, -1, 0, 0, "Party", "", 0⟩⟩]
    [⟨1, 1, 7, 7, 0, 1, 2, ""⟩, ⟨2, 1, 8, 7, 0, 0, 0, ""⟩]

theorem sound_partyStore : partyStore.Sound := by
  refine CalendarMgr.sound_loadFromDB (fun _ => 0) (by decide) (by decide) fun invite hmem => ?_
  refine ⟨_, mem_cons_self, ?_⟩
  rcases mem_pair.mp hmem with rfl | rfl <;> rfl

/-- The theorem at a run in which the invited player answers and the owner removes the event. -/
theorem respectful_run_party :
    Run.Along step Respectful partyStore [.eventRsvp 8 1 2 1 5, .removeEvent 7 1] := by
  refine (respectful_run_iff sound_partyStore _).mpr ⟨?_, ?_, trivial⟩
  · rintro ⟨event, -, -, -, invite, hmem, hid, -, hnot⟩
    rcases mem_pair.mp hmem with rfl | rfl
    · exact absurd hid (by decide)
    · exact hnot ⟨rfl, rfl⟩
  · rintro ⟨event, hmem, -, hnot⟩
    refine hnot (Or.inl ?_)
    have howner : ∀ e ∈ (step partyStore (.eventRsvp 8 1 2 1 5)).events, e.ownerGUID = 7 := by
      decide +kernel
    exact howner event hmem

/-- **A stranger removes an event**: the player 9, who has no invite to it. -/
theorem stranger_removes_event :
    (step partyStore (.removeEvent 9 1)).events = [] ∧
    ¬ Run.Along step Respectful partyStore [.removeEvent 9 1] := by
  have hgone : (step partyStore (.removeEvent 9 1)).events = [] := by decide +kernel
  refine ⟨hgone, fun hrun => ?_⟩
  obtain ⟨hrespects, -⟩ := hrun
  have hevent : (⟨1, 7, 0, ⟨4, -1, 0, 0, "Party", "", 0⟩⟩ : CalendarEvent) ∈ partyStore.events := by
    decide +kernel
  have hauth : partyStore.Authorised 9 ⟨1, 7, 0, ⟨4, -1, 0, 0, "Party", "", 0⟩⟩ := by
    refine hrespects.events _ hevent ?_
    exact not_mem_nil
  rcases hauth with howner | ⟨invite, hmem, -, hinvitee, -⟩
  · exact absurd howner (by decide)
  · have hnone : ∀ i ∈ partyStore.invites, i.invitee ≠ 9 := by decide +kernel
    exact hnone invite hmem hinvitee

end IscServer.Calendar
