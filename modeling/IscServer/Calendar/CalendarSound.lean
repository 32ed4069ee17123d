import IscServer.Calendar.CalendarMgr

/-!
# The Calendar Store Stays Sound

The invariant of the store has two halves. That of the events (`EventsSound`) says that the pool of
event ids is sound for the live events, and that their table holds exactly them; that of the
invites (`InvitesSound`) says the same of the invites, and that each of them names one of some known
events. A packet that adds an event adds its invites first, so the known events and the live ones
differ while it is handled.

## Main results

* `InvitesSound.newInvite`, `EventsSound.addEvent` — adding.
* `Sound.removeEvent`, `Sound.removeInvite` — removing, and the loops around them.
* `Sound.step` — every action keeps the store sound.
-/

namespace IscServer.Calendar

open List Keyed

namespace CalendarMgr

variable {m : CalendarMgr} {event : CalendarEvent} {invite : CalendarInvite} {known extra : List ℕ}

/-- The half of the invariant about events: `extra` ids have been taken for events that are not yet
in the store. -/
structure EventsSound (m : CalendarMgr) (extra : List ℕ) : Prop where
  ids : m.eventIds.Sound (extra ++ m.events.map CalendarEvent.eventId)
  rows : Keyed.Holds EventRow.id m.eventRows (m.events.map CalendarEvent.toRow)

/-- The half of the invariant about invites. -/
structure InvitesSound (m : CalendarMgr) (known : List ℕ) : Prop where
  ids : m.inviteIds.Sound (m.invites.map CalendarInvite.inviteId)
  rows : Keyed.Holds CalendarInvite.inviteId m.inviteRows m.invites
  named : ∀ invite ∈ m.invites, invite.eventId ∈ known

/-- The store is sound. -/
structure Sound (m : CalendarMgr) : Prop where
  events : m.EventsSound []
  invites : m.InvitesSound (m.events.map CalendarEvent.eventId)

theorem EventsSound.nodup (h : m.EventsSound extra) : (m.events.map CalendarEvent.eventId).Nodup :=
  (nodup_append.mp h.ids.nodup_used).2.1

theorem InvitesSound.nodup (h : m.InvitesSound known) :
    (m.invites.map CalendarInvite.inviteId).Nodup := h.ids.nodup_used

theorem Sound.mem_of_getEvent (h : m.Sound) {id : ℕ} (hget : m.getEvent id = some event) :
    event ∈ m.events ∧ event.eventId = id :=
  (find_eq_some_iff h.events.nodup).mp hget

theorem Sound.mem_of_getInvite (h : m.Sound) {id : ℕ} (hget : m.getInvite id = some invite) :
    invite ∈ m.invites ∧ invite.inviteId = id :=
  (find_eq_some_iff h.invites.nodup).mp hget

/-! ### Adding -/

/-- An id is taken for an invite, and lost. -/
theorem InvitesSound.take (h : m.InvitesSound known) :
    InvitesSound { m with inviteIds := m.inviteIds.take } known :=
  ⟨h.ids.take_lost, h.rows, h.named⟩

/-- **A new invite** for a known event. -/
theorem InvitesSound.newInvite (h : m.InvitesSound known) {invite : ℕ → CalendarInvite}
    (hid : ∀ id, (invite id).inviteId = id) (hknown : (invite m.inviteIds.next).eventId ∈ known) :
    (m.newInvite event invite).InvitesSound known := by
  rw [CalendarMgr.newInvite, addInvite]
  by_cases hann : event.data.isGuildAnnouncement = true
  · rw [if_pos hann]
    exact h.take
  · rw [if_neg hann]
    have hfresh := h.ids.take_notMem
    refine ⟨?_, h.rows.assign fun b => ?_, fun i hi => ?_⟩
    · refine h.ids.take.perm ?_
      dsimp only [updateInvite]
      rw [map_append, map_singleton, hid]
      exact perm_append_singleton _ _
    · dsimp only [updateInvite]
      rw [mem_append, mem_singleton, hid, or_comm]
      refine or_congr_right (and_iff_left_of_imp fun hb heq => hfresh ?_).symm
      rw [← heq]
      exact mem_map_of_mem hb
    · rcases mem_append.mp hi with hi | hi
      · exact h.named i hi
      · rw [mem_singleton.mp hi]
        exact hknown

/-- What does not change when an invite is added. -/
theorem newInvite_frame (m : CalendarMgr) (event : CalendarEvent) (invite : ℕ → CalendarInvite) :
    (m.newInvite event invite).events = m.events ∧
    (m.newInvite event invite).eventIds = m.eventIds ∧
    (m.newInvite event invite).eventRows = m.eventRows ∧
    (m.newInvite event invite).stale = m.stale := by
  rw [newInvite, addInvite]
  split_ifs <;> exact ⟨rfl, rfl, rfl, rfl⟩

theorem EventsSound.congr {m' : CalendarMgr} (h : m.EventsSound extra)
    (hevents : m'.events = m.events) (hids : m'.eventIds = m.eventIds)
    (hrows : m'.eventRows = m.eventRows) : m'.EventsSound extra := by
  constructor
  · rw [hids, hevents]
    exact h.ids
  · rw [hrows, hevents]
    exact h.rows

variable {α : Type} {items : List α}

/-- Several new invites, one after the other. -/
theorem InvitesSound.newInvites (h : m.InvitesSound known) {invite : α → ℕ → CalendarInvite}
    (hid : ∀ a id, (invite a id).inviteId = id) (hknown : ∀ a id, (invite a id).eventId ∈ known) :
    (items.foldl (fun m a => m.newInvite event (invite a)) m).InvitesSound known := by
  induction items generalizing m with
  | nil => exact h
  | cons a items ih => exact ih (h.newInvite (hid a) (hknown a _))

theorem newInvites_frame (m : CalendarMgr) (event : CalendarEvent) (items : List α)
    (invite : α → ℕ → CalendarInvite) :
    (items.foldl (fun m a => m.newInvite event (invite a)) m).events = m.events ∧
    (items.foldl (fun m a => m.newInvite event (invite a)) m).eventIds = m.eventIds ∧
    (items.foldl (fun m a => m.newInvite event (invite a)) m).eventRows = m.eventRows ∧
    (items.foldl (fun m a => m.newInvite event (invite a)) m).stale = m.stale := by
  induction items generalizing m with
  | nil => exact ⟨rfl, rfl, rfl, rfl⟩
  | cons a items ih =>
    obtain ⟨hevents, hids, hrows, hstale⟩ := newInvite_frame m event (invite a)
    obtain ⟨hevents', hids', hrows', hstale'⟩ := ih (m.newInvite event (invite a))
    exact ⟨hevents'.trans hevents, hids'.trans hids, hrows'.trans hrows, hstale'.trans hstale⟩

theorem insert_perm (place : ℕ) (event : CalendarEvent) (events : List CalendarEvent) :
    (events.take place ++ event :: events.drop place).Perm (event :: events) := by
  have h : (events.take place ++ event :: events.drop place).Perm
      (event :: (events.take place ++ events.drop place)) := perm_middle
  rwa [take_append_drop] at h

/-- **A new event**, for which an id has been taken. -/
theorem EventsSound.addEvent (h : m.EventsSound [event.eventId]) (place : ℕ) :
    (m.addEvent event place).EventsSound [] := by
  have hperm := insert_perm place event m.events
  have hfresh : event.eventId ∉ m.events.map CalendarEvent.eventId :=
    (nodup_cons.mp h.ids.nodup_used).1
  refine ⟨h.ids.perm (hperm.map CalendarEvent.eventId), h.rows.assign fun b => ?_⟩
  have hmem : b ∈ (m.addEvent event place).events.map CalendarEvent.toRow ↔
      b = event.toRow ∨ b ∈ m.events.map CalendarEvent.toRow :=
    (hperm.map CalendarEvent.toRow).mem_iff.trans mem_cons
  rw [hmem]
  refine or_congr_right (and_iff_left_of_imp fun hb heq => hfresh ?_).symm
  obtain ⟨e, he, rfl⟩ := mem_map.mp hb
  have hid : e.eventId = event.eventId := heq
  rw [← hid]
  exact mem_map_of_mem he

theorem InvitesSound.addEvent
    (h : m.InvitesSound (event.eventId :: m.events.map CalendarEvent.eventId)) (place : ℕ) :
    (m.addEvent event place).InvitesSound
      ((m.addEvent event place).events.map CalendarEvent.eventId) :=
  ⟨h.ids, h.rows, fun i hi => ((insert_perm place event m.events).map
    CalendarEvent.eventId).mem_iff.mpr (h.named i hi)⟩

/-- The id that is taken for a new event. -/
theorem EventsSound.take (h : m.EventsSound []) :
    EventsSound { m with eventIds := m.eventIds.take } [m.eventIds.next] :=
  ⟨h.ids.take, h.rows⟩

/-! ### Removing -/

/-- The destructors of some invites give back their ids, or lose them. -/
theorem destroyInvites_sound {pool : IdPool} {used : List ℕ} {gone : List CalendarInvite}
    (h : pool.Sound (gone.map CalendarInvite.inviteId ++ used)) :
    (gone.foldl destroyInvite pool).Sound used := by
  induction gone generalizing pool with
  | nil => exact h
  | cons invite gone ih =>
    refine ih ?_
    rw [destroyInvite]
    split_ifs
    · exact h.give
    · exact h.sublist (sublist_cons_self _ _)

/-- The rows of some invites are deleted. -/
theorem deleteInviteRows_holds {rows records gone : List CalendarInvite}
    (h : Keyed.Holds CalendarInvite.inviteId rows (gone ++ records))
    (hnodup : ((gone ++ records).map CalendarInvite.inviteId).Nodup) :
    Keyed.Holds CalendarInvite.inviteId (gone.foldl (fun rows invite =>
      rows.filter fun row => !(row.inviteId = invite.inviteId)) rows) records := by
  induction gone generalizing rows with
  | nil => exact h
  | cons invite gone ih =>
    obtain ⟨hnot, hnodup⟩ := nodup_cons.mp hnodup
    refine ih (h.delete fun b => ?_) hnodup
    constructor
    · intro hb
      exact ⟨mem_cons_of_mem _ hb, fun heq => hnot (heq ▸ mem_map_of_mem hb)⟩
    · rintro ⟨hb, hne⟩
      exact (mem_cons.mp hb).resolve_left fun heq => hne (congrArg _ heq)

/-- **`RemoveEvent`** for an event of the store. -/
theorem Sound.removeEvent (h : m.Sound) (hevent : event ∈ m.events) :
    (m.removeEvent event).Sound := by
  have hperm := perm_cons_filter h.events.nodup hevent
  have hsplit : (m.getEventInvites event.eventId ++
      m.invites.filter fun invite => !(invite.eventId = event.eventId)).Perm m.invites :=
    filter_append_perm _ _
  have hids := hsplit.map CalendarInvite.inviteId
  rw [map_append] at hids
  refine ⟨⟨?_, ?_⟩, ⟨?_, ?_, ?_⟩⟩
  · exact (h.events.ids.perm ((hperm.map CalendarEvent.eventId).symm)).give
  · refine h.events.rows.delete fun b => ?_
    simp only [CalendarMgr.removeEvent, mem_map, mem_filter]
    constructor
    · rintro ⟨e, ⟨he, hne⟩, rfl⟩
      exact ⟨⟨e, he, rfl⟩, by simpa [CalendarEvent.toRow] using hne⟩
    · rintro ⟨⟨e, he, rfl⟩, hne⟩
      exact ⟨e, ⟨he, by simpa [CalendarEvent.toRow] using hne⟩, rfl⟩
  · exact destroyInvites_sound (h.invites.ids.perm hids)
  · refine deleteInviteRows_holds ⟨h.invites.rows.nodup, fun b => ?_⟩ ?_
    · exact (h.invites.rows.mem_iff b).trans hsplit.mem_iff.symm
    · rw [map_append]
      exact hids.nodup_iff.mpr h.invites.nodup
  · intro i hi
    obtain ⟨hi, hne⟩ := mem_filter.mp hi
    obtain ⟨e, he, heq⟩ := mem_map.mp (h.invites.named i hi)
    refine mem_map.mpr ⟨e, mem_filter.mpr ⟨he, ?_⟩, heq⟩
    rw [heq]
    exact hne

theorem Sound.removeEventById (h : m.Sound) (id : ℕ) : (m.removeEventById id).Sound := by
  rw [CalendarMgr.removeEventById]
  cases hget : m.getEvent id with
  | none => exact h
  | some event => exact h.removeEvent (h.mem_of_getEvent hget).1

/-- What `RemoveInvite` does if it finds the invite: the rest of the invites stays. -/
theorem Sound.removeInvite_cases (h : m.Sound) (inviteId eventId : ℕ) :
    (m.removeInvite inviteId eventId = m ∧ (m.getEvent eventId = none ∨
      ∀ invite ∈ m.invites, invite.eventId = eventId → invite.inviteId ≠ inviteId)) ∨ ∃ invite,
      invite ∈ m.invites ∧ invite.inviteId = inviteId ∧ invite.eventId = eventId ∧
      (m.removeInvite inviteId eventId) = { m with
        inviteRows := m.inviteRows.filter fun row => !(row.inviteId = inviteId)
        inviteIds := destroyInvite m.inviteIds invite
        invites := m.invites.filter fun i => !(i.inviteId = inviteId) } := by
  rw [CalendarMgr.removeInvite]
  cases m.getEvent eventId with
  | none => exact Or.inl ⟨rfl, Or.inl rfl⟩
  | some event =>
    cases hfind : (m.getEventInvites eventId).find? fun invite => invite.inviteId = inviteId with
    | none =>
      refine Or.inl ⟨rfl, Or.inr fun invite hmem hevent hid => ?_⟩
      have hno := List.find?_eq_none.mp hfind invite (mem_filter.mpr ⟨hmem, by simp [hevent]⟩)
      simp [hid] at hno
    | some invite =>
      refine Or.inr ⟨invite, ?_⟩
      obtain ⟨hmem, hevent⟩ := mem_filter.mp (mem_of_find?_eq_some hfind)
      have hid : invite.inviteId = inviteId := by simpa using List.find?_some hfind
      have hevent : invite.eventId = eventId := by simpa using hevent
      refine ⟨hmem, hid, hevent, ?_⟩
      subst hid
      have herase : (m.invites.eraseP fun i =>
          i.eventId = eventId && i.inviteId = invite.inviteId) =
          m.invites.filter fun i => !(i.inviteId = invite.inviteId) := by
        obtain ⟨a, l₁, l₂, -, ha, hlist, heq⟩ := exists_of_eraseP
          (p := fun i : CalendarInvite => i.eventId = eventId && i.inviteId = invite.inviteId)
          hmem (by simp [hevent])
        have hnodup := h.invites.nodup
        have haid : a.inviteId = invite.inviteId := by simpa using (Bool.and_eq_true_iff.mp ha).2
        rw [heq, hlist]
        rw [hlist] at hnodup
        rw [map_append, map_cons] at hnodup
        obtain ⟨-, hright, hdisjoint⟩ := nodup_append.mp hnodup
        have hleft : ∀ b ∈ l₁, (!(b.inviteId = invite.inviteId : Bool)) = true := by
          intro b hb
          have hne : b.inviteId ≠ invite.inviteId := fun hbe => hdisjoint b.inviteId
            (mem_map_of_mem hb) a.inviteId mem_cons_self (hbe.trans haid.symm)
          simp [hne]
        have hrest : ∀ b ∈ l₂, (!(b.inviteId = invite.inviteId : Bool)) = true := by
          intro b hb
          have hne : b.inviteId ≠ invite.inviteId := fun hbe =>
            (nodup_cons.mp hright).1 (by
              rw [haid, ← hbe]
              exact mem_map_of_mem hb)
          simp [hne]
        rw [filter_append, filter_cons_of_neg (by simp [haid]),
          filter_eq_self.mpr hleft, filter_eq_self.mpr hrest]
      rw [herase]

/-- **`RemoveInvite`**. -/
theorem Sound.removeInvite (h : m.Sound) (inviteId eventId : ℕ) :
    (m.removeInvite inviteId eventId).Sound := by
  rcases h.removeInvite_cases inviteId eventId with ⟨heq, -⟩ | ⟨invite, hmem, rfl, -, heq⟩
  · rw [heq]
    exact h
  · rw [heq]
    have hperm := perm_cons_filter h.invites.nodup hmem
    refine ⟨⟨h.events.ids, h.events.rows⟩, ⟨?_, h.invites.rows.delete fun b => ?_, fun i hi => ?_⟩⟩
    · have hgone : ([invite].foldl destroyInvite m.inviteIds).Sound
          ((m.invites.filter fun i => !(i.inviteId = invite.inviteId)).map CalendarInvite.inviteId) :=
        destroyInvites_sound (h.invites.ids.perm ((hperm.map CalendarInvite.inviteId).symm))
      exact hgone
    · simp only [mem_filter, Bool.not_eq_eq_eq_not, Bool.not_true, decide_eq_false_iff_not]
    · exact h.invites.named i (mem_of_mem_filter hi)

/-! ### The loops -/

variable (guid : Guid)

section

variable (h : m.Sound)
include h

/-- A loop over events of the store that removes some of them. -/
theorem Sound.removeEvents (p : CalendarEvent → Bool) {events : List CalendarEvent}
    (hnodup : (events.map CalendarEvent.eventId).Nodup) (hevents : ∀ e ∈ events, e ∈ m.events) :
    (events.foldl (fun m e => if p e = true then m.removeEvent e else m) m).Sound := by
  induction events generalizing m with
  | nil => exact h
  | cons e events ih =>
    obtain ⟨hnot, hnodup⟩ := nodup_cons.mp hnodup
    rw [foldl_cons]
    by_cases hp : p e = true
    · rw [if_pos hp]
      refine ih (h.removeEvent (hevents e mem_cons_self)) hnodup fun e' he' => ?_
      have hne : e'.eventId ≠ e.eventId := fun heq => hnot (heq ▸ mem_map_of_mem he')
      exact mem_filter.mpr ⟨hevents e' (mem_cons_of_mem _ he'), by simp [hne]⟩
    · rw [if_neg hp]
      exact ih h hnodup fun e' he' => hevents e' (mem_cons_of_mem _ he')

theorem Sound.removeInvites (invites : List CalendarInvite) : (m.removeInvites invites).Sound := by
  induction invites generalizing m with
  | nil => exact h
  | cons invite invites ih => exact ih (h.removeInvite _ _)

theorem Sound.removeAllPlayerEventsAndInvites : (m.removeAllPlayerEventsAndInvites guid).Sound := by
  have hloop := h.removeEvents (fun event => decide (event.ownerGUID = guid)) h.events.nodup
    fun _ he => he
  simp only [decide_eq_true_eq] at hloop
  exact hloop.removeInvites _

theorem Sound.deleteOldEvents (now : ℕ) : (m.deleteOldEvents now).Sound := by
  have hloop := h.removeEvents (fun event => decide ((event.data.date : ℤ) <
    now - calendarOldEventsDeletionTime)) h.events.nodup fun _ he => he
  simp only [decide_eq_true_eq] at hloop
  exact hloop

theorem Sound.of_stale (stale : Bool) : Sound { m with stale := stale } :=
  ⟨⟨h.events.ids, h.events.rows⟩, ⟨h.invites.ids, h.invites.rows, h.invites.named⟩⟩

theorem Sound.of_pending (pending : List InviteRequest) : Sound { m with pending := pending } :=
  ⟨⟨h.events.ids, h.events.rows⟩, ⟨h.invites.ids, h.invites.rows, h.invites.named⟩⟩

theorem Sound.removeGuildSignups (guildId : ℕ) (invites : List CalendarInvite) :
    (invites.foldl (fun m invite => if m.isGuildSignup guildId invite then
      m.removeInvite invite.inviteId invite.eventId else m) m).Sound := by
  induction invites generalizing m with
  | nil => exact h
  | cons invite invites ih =>
    rw [foldl_cons]
    by_cases hguild : m.isGuildSignup guildId invite = true
    · rw [if_pos hguild]
      exact ih (h.removeInvite _ _)
    · rw [if_neg hguild]
      exact ih h

theorem Sound.removePlayerGuildEventsAndSignups (guildId : ℕ) :
    (m.removePlayerGuildEventsAndSignups guid guildId).Sound := by
  rw [CalendarMgr.removePlayerGuildEventsAndSignups]
  split
  · exact (h.removeEventById _).of_stale true
  · exact h.removeGuildSignups guildId _

end

/-! ### Changes in place -/

/-- An invite of the store is changed, but not its ids. -/
theorem Sound.setInvite (h : m.Sound) {invite' : CalendarInvite} (hmem : invite ∈ m.invites)
    (hid : invite'.inviteId = invite.inviteId) (hevent : invite'.eventId = invite.eventId) :
    (m.setInvite invite').Sound := by
  have hkey : invite'.inviteId ∈ m.invites.map CalendarInvite.inviteId := hid ▸ mem_map_of_mem hmem
  refine ⟨⟨h.events.ids, h.events.rows⟩, ⟨?_, h.invites.rows.assign fun b => ?_, fun i hi => ?_⟩⟩
  · dsimp only [CalendarMgr.setInvite, CalendarMgr.updateInvite]
    rw [keys_put]
    exact h.invites.ids
  · refine mem_put_iff.trans (or_congr_left ?_)
    exact and_iff_left hkey
  · rcases mem_put_iff.mp hi with ⟨rfl, -⟩ | ⟨hi, -⟩
    · rw [hevent]
      exact h.invites.named invite hmem
    · exact h.invites.named i hi

/-- The handlers that change an invite find an event that allows it and an invite, or do nothing. -/
theorem Sound.changeInvite_cases (h : m.Sound) (eventId inviteId : ℕ)
    (allowed : CalendarEvent → Bool) (change : CalendarInvite → CalendarInvite) :
    m.changeInvite eventId inviteId allowed change = m ∧
        ¬ ((∃ event ∈ m.events, event.eventId = eventId ∧ allowed event = true) ∧
          ∃ invite ∈ m.invites, invite.inviteId = inviteId) ∨
      ∃ event ∈ m.events, event.eventId = eventId ∧ allowed event = true ∧
        ∃ invite ∈ m.invites, invite.inviteId = inviteId ∧
          m.changeInvite eventId inviteId allowed change = m.setInvite (change invite) := by
  rw [CalendarMgr.changeInvite]
  cases hget : m.getEvent eventId with
  | none => exact .inl ⟨rfl, fun ⟨⟨e, he, heq, _⟩, _⟩ => find_eq_none_iff.mp hget e he heq⟩
  | some event =>
    obtain ⟨hmem, rfl⟩ := h.mem_of_getEvent hget
    dsimp only
    by_cases hallowed : (!allowed event) = true
    · rw [if_pos hallowed]
      refine .inl ⟨rfl, fun ⟨⟨e, he, heq, hyes⟩, _⟩ => ?_⟩
      obtain rfl := eq_of_key h.events.nodup he hmem heq
      rw [hyes] at hallowed
      cases hallowed
    · rw [if_neg hallowed]
      cases hinvite : m.getInvite inviteId with
      | none => exact .inl ⟨rfl, fun ⟨_, i, hi, heq⟩ => find_eq_none_iff.mp hinvite i hi heq⟩
      | some invite =>
        obtain ⟨himem, rfl⟩ := h.mem_of_getInvite hinvite
        exact .inr ⟨event, hmem, rfl, by simpa using hallowed, invite, himem, rfl, rfl⟩

theorem Sound.changeInvite (h : m.Sound) (eventId inviteId : ℕ) (allowed : CalendarEvent → Bool)
    {change : CalendarInvite → CalendarInvite} (hid : ∀ i, (change i).inviteId = i.inviteId)
    (hevent : ∀ i, (change i).eventId = i.eventId) :
    (m.changeInvite eventId inviteId allowed change).Sound := by
  obtain ⟨heq, -⟩ | ⟨-, -, -, -, invite, hmem, -, heq⟩ :=
    h.changeInvite_cases eventId inviteId allowed change
  · rw [heq]
    exact h
  · rw [heq]
    exact h.setInvite hmem (hid invite) (hevent invite)

/-- `HandleCalendarUpdateEvent`. -/
theorem Sound.handleUpdateEvent (h : m.Sound) (isPast : Bool) (eventId : ℕ) (data : EventData) :
    (m.handleUpdateEvent isPast eventId data).Sound := by
  rw [CalendarMgr.handleUpdateEvent]
  by_cases hpast : isPast = true
  · rw [if_pos hpast]
    exact h
  · rw [if_neg hpast]
    cases hget : m.getEvent eventId with
    | none => exact h
    | some event =>
      obtain ⟨hmem, -⟩ := h.mem_of_getEvent hget
      have hkey : event.eventId ∈ m.events.map CalendarEvent.eventId := mem_map_of_mem hmem
      have hkeys : (Keyed.put CalendarEvent.eventId m.events { event with data := data }).map
          CalendarEvent.eventId = m.events.map CalendarEvent.eventId := keys_put
      refine ⟨⟨?_, h.events.rows.assign fun b => ?_⟩, ⟨h.invites.ids, h.invites.rows, ?_⟩⟩
      · dsimp only [updateEvent]
        rw [hkeys]
        exact h.events.ids
      · simp only [mem_map]
        constructor
        · rintro ⟨e, he, rfl⟩
          rcases mem_put_iff.mp he with ⟨rfl, -⟩ | ⟨he, hne⟩
          · exact Or.inl rfl
          · exact Or.inr ⟨⟨e, he, rfl⟩, hne⟩
        · rintro (rfl | ⟨⟨e, he, rfl⟩, hne⟩)
          · exact ⟨_, mem_put_iff.mpr (Or.inl ⟨rfl, hkey⟩), rfl⟩
          · exact ⟨e, mem_put_iff.mpr (Or.inr ⟨he, hne⟩), rfl⟩
      · dsimp only [updateEvent]
        rw [hkeys]
        exact h.invites.named

/-! ### What the packets add -/

/-- `HandleCalendarAddEvent` does nothing, or adds an event after its invites: an announcement has
none. -/
theorem handleAddEvent_cases (m : CalendarMgr) (guid : Guid) (guildId : ℕ) (isPast onCooldown : Bool)
    (data : EventData) (invites : List (Guid × ℕ × ℕ)) (place : ℕ) :
    m.handleAddEvent guid guildId isPast onCooldown data invites place = m ∨
    ∃ event : CalendarEvent, event.eventId = m.eventIds.next ∧
      m.handleAddEvent guid guildId isPast onCooldown data invites place =
        CalendarMgr.addEvent (if event.data.isGuildAnnouncement then
          { m with eventIds := m.eventIds.take }
        else invites.foldl (fun m i => m.newInvite event (packetInvite guid event.eventId i))
          { m with eventIds := m.eventIds.take }) event place := by
  rw [CalendarMgr.handleAddEvent]
  split
  · exact .inl rfl
  split
  · exact .inl rfl
  split
  · exact .inl rfl
  split
  · exact .inl rfl
  refine .inr ⟨⟨m.eventIds.next, guid, if data.isOfGuild then guildId else 0, data⟩, rfl, ?_⟩
  dsimp only [addInvite]
  split_ifs <;> rfl

/-- `HandleCalendarCopyEvent` does nothing, or adds an event and then its invites. -/
theorem handleCopyEvent_cases (m : CalendarMgr) (guid : Guid) (guildId : ℕ)
    (isPast onCooldown : Bool) (eventId date place : ℕ) :
    m.handleCopyEvent guid guildId isPast onCooldown eventId date place = m ∨
    ∃ (event : CalendarEvent) (added : CalendarMgr), event.eventId = m.eventIds.next ∧
      added = CalendarMgr.addEvent { m with eventIds := m.eventIds.take } event place ∧
      m.handleCopyEvent guid guildId isPast onCooldown eventId date place =
        (added.getEventInvites eventId).foldl (fun m invite =>
          m.newInvite event (copyInvite event.eventId invite)) added := by
  rw [CalendarMgr.handleCopyEvent]
  split
  · exact .inl rfl
  split
  · exact .inl rfl
  split
  · exact .inl rfl
  split
  · exact .inl rfl
  split
  · exact .inl rfl
  refine .inr ⟨_, _, ?_, rfl, rfl⟩
  rfl

/-! ### The packets that add -/

section

variable (h : m.Sound)
include h

/-- A new invite for an event of the store. -/
theorem Sound.newInvite (hevent : event ∈ m.events) {invite : ℕ → CalendarInvite}
    (hid : ∀ id, (invite id).inviteId = id) (heventId : ∀ id, (invite id).eventId = event.eventId) :
    (m.newInvite event invite).Sound := by
  obtain ⟨hevents, hids, hrows, -⟩ := newInvite_frame m event invite
  refine ⟨h.events.congr hevents hids hrows, ?_⟩
  rw [hevents]
  refine h.invites.newInvite hid ?_
  rw [heventId]
  exact mem_map_of_mem hevent

/-- `HandleCalendarAddEvent`: the invites come first, and then the event they name. -/
theorem Sound.handleAddEvent (guildId : ℕ) (isPast onCooldown : Bool)
    (data : EventData) (invites : List (Guid × ℕ × ℕ)) (place : ℕ) :
    (m.handleAddEvent guid guildId isPast onCooldown data invites place).Sound := by
  obtain heq | ⟨event, hid, heq⟩ :=
    m.handleAddEvent_cases guid guildId isPast onCooldown data invites place
  · rw [heq]
    exact h
  have htaken : EventsSound { m with eventIds := m.eventIds.take } [event.eventId] := by
    rw [hid]
    exact h.events.take
  have hknown : InvitesSound { m with eventIds := m.eventIds.take }
      (event.eventId :: m.events.map CalendarEvent.eventId) :=
    ⟨h.invites.ids, h.invites.rows, fun i hi => mem_cons_of_mem _ (h.invites.named i hi)⟩
  rw [heq]
  split_ifs
  · exact ⟨htaken.addEvent place, hknown.addEvent place⟩
  · obtain ⟨hevents, hids, hrows, -⟩ := newInvites_frame { m with eventIds := m.eventIds.take }
      event invites (packetInvite guid event.eventId)
    refine ⟨(htaken.congr hevents hids hrows).addEvent place, InvitesSound.addEvent ?_ place⟩
    rw [hevents]
    exact hknown.newInvites (fun _ _ => rfl) fun _ _ => mem_cons_self

/-- `HandleCalendarCopyEvent`: the event comes first, and then its invites. -/
theorem Sound.handleCopyEvent (guildId : ℕ) (isPast onCooldown : Bool) (eventId date place : ℕ) :
    (m.handleCopyEvent guid guildId isPast onCooldown eventId date place).Sound := by
  obtain heq | ⟨event, added, hid, hadd, heq⟩ :=
    m.handleCopyEvent_cases guid guildId isPast onCooldown eventId date place
  · rw [heq]
    exact h
  have hadded : added.Sound := by
    rw [hadd]
    refine ⟨EventsSound.addEvent ?_ place, InvitesSound.addEvent ?_ place⟩
    · rw [hid]
      exact h.events.take
    · exact ⟨h.invites.ids, h.invites.rows, fun i hi => mem_cons_of_mem _ (h.invites.named i hi)⟩
  have hin : event ∈ added.events := by
    rw [hadd]
    exact (insert_perm place event m.events).mem_iff.mpr mem_cons_self
  obtain ⟨hevents, hids, hrows, -⟩ := newInvites_frame added event
    (added.getEventInvites eventId) (fun invite => copyInvite event.eventId invite)
  rw [heq]
  refine ⟨hadded.events.congr hevents hids hrows, ?_⟩
  rw [hevents]
  exact hadded.invites.newInvites (fun _ _ => rfl) fun _ _ => mem_map_of_mem hin

/-- The closure of `HandleCalendarEventInvite`. -/
theorem Sound.createInvite (request : InviteRequest) (isSamePlayer : Bool)
    (guildId : ℕ) (isNotAllied isIgnoring : Bool) :
    (m.createInvite request isSamePlayer guildId isNotAllied isIgnoring).Sound := by
  rw [CalendarMgr.createInvite]
  by_cases hsame : (!isSamePlayer) = true
  · rw [if_pos hsame]
    exact h
  by_cases hallied : isNotAllied = true
  · rw [if_neg hsame, if_pos hallied]
    exact h
  by_cases hignoring : isIgnoring = true
  · rw [if_neg hsame, if_neg hallied, if_pos hignoring]
    exact h
  rw [if_neg hsame, if_neg hallied, if_neg hignoring]
  cases request.eventId with
  | none =>
    split_ifs
    · exact h
    · exact ⟨⟨h.events.ids, h.events.rows⟩, h.invites.take⟩
  | some eventId =>
    dsimp only
    cases hget : m.getEvent eventId with
    | none => exact h
    | some event =>
      obtain ⟨hmem, rfl⟩ := h.mem_of_getEvent hget
      dsimp only
      split_ifs
      · exact h
      · exact h.newInvite hmem (fun _ => rfl) fun _ => rfl

theorem Sound.handleEventSignup (guildId eventId : ℕ) (isTentative : Bool) (now : ℕ) :
    (m.handleEventSignup guid guildId eventId isTentative now).Sound := by
  rw [CalendarMgr.handleEventSignup]
  cases hget : m.getEvent eventId with
  | none => exact h
  | some event =>
    obtain ⟨hmem, rfl⟩ := h.mem_of_getEvent hget
    dsimp only
    by_cases hguild : (event.data.isGuildEvent && event.guildId != guildId) = true
    · rw [if_pos hguild]
      exact h
    · rw [if_neg hguild]
      exact h.newInvite hmem (fun _ => rfl) fun _ => rfl

end

/-! ### Every action -/

/-- **Every action** keeps the store sound. -/
theorem Sound.step (h : m.Sound) (a : Action) : (step m a).Sound := by
  cases a with
  | addEvent guid guildId isPast onCooldown data invites place =>
    exact h.handleAddEvent guid guildId isPast onCooldown data invites place
  | updateEvent guid isPast eventId data => exact h.handleUpdateEvent isPast eventId data
  | removeEvent guid eventId => exact h.removeEventById eventId
  | copyEvent guid guildId isPast onCooldown eventId date place =>
    exact h.handleCopyEvent guid guildId isPast onCooldown eventId date place
  | eventInvite request isOnline guildId isNotAllied isIgnoring =>
    cases isOnline with
    | true => exact h.createInvite request true guildId isNotAllied isIgnoring
    | false => exact h.of_pending _
  | inviteQueryCallback index isSamePlayer guildId isNotAllied isIgnoring =>
    rw [Calendar.step, CalendarMgr.inviteQueryCallback]
    cases m.pending[index]? with
    | none => exact h
    | some request => exact (h.of_pending _).createInvite request isSamePlayer guildId _ _
  | eventSignup guid guildId eventId isTentative now =>
    exact h.handleEventSignup guid guildId eventId isTentative now
  | eventRsvp guid eventId inviteId status now =>
    exact h.changeInvite eventId inviteId _ (fun _ => rfl) fun _ => rfl
  | eventRemoveInvite guid eventId inviteId inviteeGuid =>
    rw [Calendar.step, handleEventRemoveInvite]
    cases m.getEvent eventId with
    | none => exact h
    | some event =>
      dsimp only
      split_ifs
      · exact h
      · exact h.removeInvite inviteId eventId
  | eventStatus guid eventId inviteId status =>
    exact h.changeInvite eventId inviteId _ (fun _ => rfl) fun _ => rfl
  | eventModeratorStatus guid eventId inviteId rank =>
    exact h.changeInvite eventId inviteId _ (fun _ => rfl) fun _ => rfl
  | deleteOldEvents now => exact h.deleteOldEvents now
  | removeAllPlayerEventsAndInvites guid => exact h.removeAllPlayerEventsAndInvites guid
  | removePlayerGuildEventsAndSignups guid guildId =>
    exact h.removePlayerGuildEventsAndSignups guid guildId

end CalendarMgr

end IscServer.Calendar
