import IscServer.Library.Run
import IscServer.Calendar.CalendarSound

/-!
# The Calendar Store over Whole Runs

A store that is loaded from tables with distinct ids, in which every invite names an event, is sound
(`sound_loadFromDB`). It is well kept after every action (`WellKept`) exactly if no action steps on
from an event that its loop has just removed (`StepsFromRemoved`). Only one loop can do so: that of
`RemovePlayerGuildEventsAndSignups` removes an event of the set it walks over through an iterator
that it then increments, while `RemoveAllPlayerEventsAndInvites` and `DeleteOldEvents` step on before
they remove.

## Main results

* `wellKept_run_iff` — runs from any start-up.
* `leader_leaves_guild` — the founder of a guild event leaves the guild.
* `restart_restores` — the tables bring the store back in every state.
-/

namespace IscServer.Calendar

open List

variable {m : CalendarMgr}

/-- What is promised of every state: live events and stored invites have distinct ids, every stored
invite names a live event, free ids are distinct and not in use, the id that is given out next is
not in use, the tables hold exactly the live events and the stored invites, and no loop has gone on
from an event that it had removed. -/
structure WellKept (m : CalendarMgr) : Prop where
  eventIds : (m.events.map CalendarEvent.eventId).Nodup
  inviteIds : (m.invites.map CalendarInvite.inviteId).Nodup
  named : ∀ invite ∈ m.invites, ∃ event ∈ m.events, event.eventId = invite.eventId
  freeEventIds : m.eventIds.queue.Nodup ∧
    ∀ id ∈ m.eventIds.queue, id ∉ m.events.map CalendarEvent.eventId
  freeInviteIds : m.inviteIds.queue.Nodup ∧
    ∀ id ∈ m.inviteIds.queue, id ∉ m.invites.map CalendarInvite.inviteId
  nextEventId : m.eventIds.next ∉ m.events.map CalendarEvent.eventId
  nextInviteId : m.inviteIds.next ∉ m.invites.map CalendarInvite.inviteId
  eventRows : Keyed.Holds EventRow.id m.eventRows (m.events.map CalendarEvent.toRow)
  inviteRows : Keyed.Holds CalendarInvite.inviteId m.inviteRows m.invites
  notStale : m.stale = false

/-- The loop of the action removes an event and steps on from it: the player owns an event, or an
announcement, of a guild. -/
def StepsFromRemoved (m : CalendarMgr) : Action → Prop
  | .removePlayerGuildEventsAndSignups guid _ =>
    ∃ event ∈ m.events, event.ownerGUID = guid ∧ event.data.isOfGuild = true
  | _ => False

namespace CalendarMgr

theorem Sound.wellKept (h : m.Sound) (hstale : m.stale = false) : WellKept m where
  eventIds := h.events.nodup
  inviteIds := h.invites.nodup
  named invite hmem := mem_map.mp (h.invites.named invite hmem)
  freeEventIds := ⟨h.events.ids.nodup_queue, fun _ => h.events.ids.notMem_of_queue⟩
  freeInviteIds := ⟨h.invites.ids.nodup_queue, fun _ => h.invites.ids.notMem_of_queue⟩
  nextEventId := h.events.ids.take_notMem
  nextInviteId := h.invites.ids.take_notMem
  eventRows := h.events.rows
  inviteRows := h.invites.rows
  notStale := hstale

/-! ### Which loop goes wrong -/

theorem stale_removeEventById (id : ℕ) : (m.removeEventById id).stale = m.stale := by
  rw [removeEventById]
  cases m.getEvent id <;> rfl

theorem stale_removeInvite (inviteId eventId : ℕ) :
    (m.removeInvite inviteId eventId).stale = m.stale := by
  rw [removeInvite]
  cases m.getEvent eventId with
  | none => rfl
  | some event =>
    cases (m.getEventInvites eventId).find? fun invite => invite.inviteId = inviteId <;> rfl

/-- A loop whose rounds do not touch the flag does not touch it. -/
theorem stale_foldl {α : Type} {f : CalendarMgr → α → CalendarMgr}
    (hf : ∀ m a, (f m a).stale = m.stale) (items : List α) :
    (items.foldl f m).stale = m.stale := by
  induction items generalizing m with
  | nil => rfl
  | cons a items ih => exact ih.trans (hf m a)

variable (eventId : ℕ)

theorem stale_changeInvite (inviteId : ℕ) (allowed : CalendarEvent → Bool)
    (change : CalendarInvite → CalendarInvite) :
    (m.changeInvite eventId inviteId allowed change).stale = m.stale := by
  unfold changeInvite
  repeat' split
  all_goals rfl

theorem stale_addInvite (event : CalendarEvent) (invite : CalendarInvite) :
    (m.addInvite event invite).stale = m.stale := by
  rw [addInvite]
  split_ifs <;> rfl

theorem stale_createInvite (request : InviteRequest) (isSamePlayer : Bool) (guildId : ℕ)
    (isNotAllied isIgnoring : Bool) :
    (m.createInvite request isSamePlayer guildId isNotAllied isIgnoring).stale = m.stale := by
  unfold createInvite
  repeat' split
  all_goals first | rfl | exact stale_addInvite _ _

variable (guid : Guid)

theorem stale_handleAddEvent (guildId : ℕ) (isPast onCooldown : Bool) (data : EventData)
    (invites : List (Guid × ℕ × ℕ)) (place : ℕ) :
    (m.handleAddEvent guid guildId isPast onCooldown data invites place).stale = m.stale := by
  obtain heq | ⟨event, -, heq⟩ :=
    m.handleAddEvent_cases guid guildId isPast onCooldown data invites place
  · rw [heq]
  rw [heq]
  split_ifs
  · rfl
  · exact (newInvites_frame _ event invites (packetInvite guid event.eventId)).2.2.2

theorem stale_handleCopyEvent (guildId : ℕ) (isPast onCooldown : Bool) (eventId date place : ℕ) :
    (m.handleCopyEvent guid guildId isPast onCooldown eventId date place).stale = m.stale := by
  obtain heq | ⟨event, added, -, hadd, heq⟩ :=
    m.handleCopyEvent_cases guid guildId isPast onCooldown eventId date place
  · rw [heq]
  rw [heq, (newInvites_frame added event _ (copyInvite event.eventId)).2.2.2, hadd]
  rfl

theorem stale_handleUpdateEvent (isPast : Bool) (eventId : ℕ) (data : EventData) :
    (m.handleUpdateEvent isPast eventId data).stale = m.stale := by
  unfold handleUpdateEvent
  repeat' split
  all_goals rfl

theorem stale_handleEventSignup (guildId eventId : ℕ) (isTentative : Bool) (now : ℕ) :
    (m.handleEventSignup guid guildId eventId isTentative now).stale = m.stale := by
  unfold handleEventSignup
  split
  · rfl
  · split
    · rfl
    · exact (newInvite_frame m _ _).2.2.2

theorem stale_handleEventRemoveInvite (inviteId : ℕ) (inviteeGuid : Guid) :
    (m.handleEventRemoveInvite eventId inviteId inviteeGuid).stale = m.stale := by
  unfold handleEventRemoveInvite
  repeat' split
  all_goals first | rfl | exact stale_removeInvite inviteId eventId

/-- **Only one loop** steps on from an event that it removed. -/
theorem stale_step (a : Action) :
    (step m a).stale = true ↔ m.stale = true ∨ StepsFromRemoved m a := by
  have hsame : (step m a).stale = m.stale → ¬ StepsFromRemoved m a →
      ((step m a).stale = true ↔ m.stale = true ∨ StepsFromRemoved m a) := by
    intro heq hnot
    rw [heq, or_iff_left hnot]
  cases a with
  | addEvent guid guildId isPast onCooldown data invites place =>
    exact hsame (stale_handleAddEvent guid guildId isPast onCooldown data invites place) id
  | updateEvent guid isPast eventId data =>
    exact hsame (stale_handleUpdateEvent isPast eventId data) id
  | removeEvent guid eventId => exact hsame (stale_removeEventById eventId) id
  | copyEvent guid guildId isPast onCooldown eventId date place =>
    exact hsame (stale_handleCopyEvent guid guildId isPast onCooldown eventId date place) id
  | eventInvite request isOnline guildId isNotAllied isIgnoring =>
    cases isOnline with
    | true => exact hsame (stale_createInvite request true guildId isNotAllied isIgnoring) id
    | false => exact hsame rfl id
  | inviteQueryCallback index isSamePlayer guildId isNotAllied isIgnoring =>
    refine hsame ?_ id
    rw [step, inviteQueryCallback]
    cases m.pending[index]? with
    | none => rfl
    | some request => exact stale_createInvite request isSamePlayer guildId _ _
  | eventSignup guid guildId eventId isTentative now =>
    exact hsame (stale_handleEventSignup guid guildId eventId isTentative now) id
  | eventRsvp guid eventId inviteId status now =>
    exact hsame (stale_changeInvite eventId inviteId _ _) id
  | eventRemoveInvite guid eventId inviteId inviteeGuid =>
    exact hsame (stale_handleEventRemoveInvite eventId inviteId inviteeGuid) id
  | eventStatus guid eventId inviteId status =>
    exact hsame (stale_changeInvite eventId inviteId _ _) id
  | eventModeratorStatus guid eventId inviteId rank =>
    exact hsame (stale_changeInvite eventId inviteId _ _) id
  | deleteOldEvents now =>
    refine hsame (stale_foldl (fun m e => ?_) m.events) id
    split_ifs <;> rfl
  | removeAllPlayerEventsAndInvites guid =>
    refine hsame ?_ id
    refine (stale_foldl (fun m i => stale_removeInvite _ _) _).trans
      (stale_foldl (fun m e => ?_) m.events)
    split_ifs <;> rfl
  | removePlayerGuildEventsAndSignups guid guildId =>
    rw [step, removePlayerGuildEventsAndSignups]
    cases hfind : m.events.find? fun event => event.ownerGUID = guid && event.data.isOfGuild with
    | some event =>
      have hmem := mem_of_find?_eq_some hfind
      have hevent : event.ownerGUID = guid ∧ event.data.isOfGuild = true := by
        simpa using List.find?_some hfind
      exact iff_of_true rfl (Or.inr ⟨event, hmem, hevent⟩)
    | none =>
      have hnot : ¬ StepsFromRemoved m (.removePlayerGuildEventsAndSignups guid guildId) := by
        rintro ⟨event, hmem, howner, hguild⟩
        have hno := List.find?_eq_none.mp hfind event hmem
        simp [howner, hguild] at hno
      rw [or_iff_left hnot]
      have hloop : ((m.getPlayerInvites guid).foldl (fun m invite =>
          if m.isGuildSignup guildId invite then m.removeInvite invite.inviteId invite.eventId
          else m) m).stale = m.stale := by
        refine stale_foldl (fun m i => ?_) _
        split_ifs
        · exact stale_removeInvite _ _
        · rfl
      rw [hloop]

/-! ### Start-up -/

theorem le_foldl_max (ids : List ℕ) (start : ℕ) :
    start ≤ ids.foldl max start ∧ ∀ id ∈ ids, id ≤ ids.foldl max start := by
  induction ids generalizing start with
  | nil => exact ⟨Nat.le_refl start, fun id hid => absurd hid not_mem_nil⟩
  | cons x ids ih =>
    obtain ⟨hstart, hids⟩ := ih (max start x)
    refine ⟨Nat.le_trans (Nat.le_max_left start x) hstart, fun id hid => ?_⟩
    rcases mem_cons.mp hid with rfl | hid
    · exact Nat.le_trans (Nat.le_max_right start id) hstart
    · exact hids id hid

/-- The pool made of distinct ids is sound for them. -/
theorem sound_loadPool {ids : List ℕ} (hnodup : ids.Nodup) : (loadPool ids).Sound ids := by
  obtain ⟨-, hmax⟩ := le_foldl_max ids 0
  refine ⟨nodup_append.mpr ⟨hnodup, nodup_range.filter _, ?_⟩, fun id hid => ?_⟩
  · rintro id hid id' hid' rfl
    obtain ⟨-, hunused⟩ := mem_filter.mp hid'
    simp [hid] at hunused
  · rcases mem_append.mp hid with hid | hid
    · exact Nat.lt_succ_of_le (hmax id hid)
    · exact Nat.lt_succ_of_lt (mem_range.mp (mem_of_mem_filter hid))

/-- **Start-up**: tables with distinct ids in which every invite names an event give a sound store. -/
theorem sound_loadFromDB (getCharacterGuildId : Guid → ℕ) {eventRows : List EventRow}
    {inviteRows : List CalendarInvite} (hevents : (eventRows.map EventRow.id).Nodup)
    (hinvites : (inviteRows.map CalendarInvite.inviteId).Nodup)
    (hnamed : ∀ invite ∈ inviteRows, ∃ row ∈ eventRows, row.id = invite.eventId) :
    (loadFromDB getCharacterGuildId eventRows inviteRows).Sound := by
  have hids : (loadFromDB getCharacterGuildId eventRows inviteRows).events.map
      CalendarEvent.eventId = eventRows.map EventRow.id := by
    rw [loadFromDB, map_map]
    rfl
  have hrows : (loadFromDB getCharacterGuildId eventRows inviteRows).events.map
      CalendarEvent.toRow = eventRows := by
    rw [loadFromDB, map_map]
    exact map_id eventRows
  refine ⟨⟨?_, ?_⟩, ⟨sound_loadPool hinvites, ⟨hinvites, fun _ => Iff.rfl⟩, fun i hi => ?_⟩⟩
  · rw [nil_append, hids]
    exact sound_loadPool hevents
  · rw [hrows]
    exact ⟨hevents, fun _ => Iff.rfl⟩
  · rw [hids]
    obtain ⟨row, hrow, heq⟩ := hnamed i hi
    exact mem_map.mpr ⟨row, hrow, heq⟩

end CalendarMgr

/-! ### Runs -/

/-- One action: the store is well kept after it exactly if it does not step from a removed event. -/
theorem wellKept_step_iff (h : m.Sound) (hstale : m.stale = false) (a : Action) :
    WellKept (step m a) ↔ ¬ StepsFromRemoved m a := by
  have hiff := CalendarMgr.stale_step (m := m) a
  constructor
  · intro hkept hfrom
    have htrue := hiff.mpr (Or.inr hfrom)
    rw [hkept.notStale] at htrue
    cases htrue
  · intro hnot
    refine (h.step a).wellKept (Bool.eq_false_iff.mpr fun htrue => ?_)
    rcases hiff.mp htrue with hold | hfrom
    · rw [hstale] at hold
      cases hold
    · exact hnot hfrom

/-- **Runs**: from tables with distinct ids in which every invite names an event, the store is well
kept after every action exactly if no action steps on from an event it has removed. -/
theorem wellKept_run_iff (getCharacterGuildId : Guid → ℕ) (eventRows : List EventRow)
    (inviteRows : List CalendarInvite) (hevents : (eventRows.map EventRow.id).Nodup)
    (hinvites : (inviteRows.map CalendarInvite.inviteId).Nodup)
    (hnamed : ∀ invite ∈ inviteRows, ∃ row ∈ eventRows, row.id = invite.eventId)
    (actions : List Action) :
    Run.Along step (fun m a => WellKept (step m a))
        (.loadFromDB getCharacterGuildId eventRows inviteRows) actions ↔
      Run.Along step (fun m a => ¬ StepsFromRemoved m a)
        (.loadFromDB getCharacterGuildId eventRows inviteRows) actions :=
  Run.along_congr (fun m => m.Sound ∧ m.stale = false)
    (fun _ a hm => wellKept_step_iff hm.1 hm.2 a)
    (fun _ a hm hnot => ⟨hm.1.step a, ((wellKept_step_iff hm.1 hm.2 a).mpr hnot).notStale⟩)
    actions ⟨CalendarMgr.sound_loadFromDB getCharacterGuildId hevents hinvites hnamed, rfl⟩

/-- A guild event of the player 7, with an invite for himself. -/
def guildEventRows : List EventRow := [⟨1, 7, ⟨0, -1, 0, 0x400, "Raid", "", 0⟩⟩]

/-- His invite. -/
def guildInviteRows : List CalendarInvite := [⟨1, 1, 7, 7, 0, 1, 2, ""⟩]

/-- The theorem at a start-up with one guild event, after which another member of the guild leaves. -/
theorem wellKept_run_member_leaves :
    Run.Along step (fun m a => WellKept (step m a))
      (.loadFromDB (fun _ => 3) guildEventRows guildInviteRows)
      [.removePlayerGuildEventsAndSignups 8 3] := by
  refine (wellKept_run_iff (fun _ => 3) guildEventRows guildInviteRows (by decide) (by decide)
    ?_ _).mpr ⟨?_, trivial⟩
  · intro invite hmem
    rw [mem_singleton.mp hmem]
    exact ⟨_, mem_cons_self, rfl⟩
  · rintro ⟨event, hmem, howner, -⟩
    have hevent : event.ownerGUID = 7 := by
      rw [mem_singleton.mp hmem]
    rw [hevent] at howner
    exact absurd howner (by decide)

/-- **The founder of a guild event leaves the guild**: the loop steps on from the event it has just
removed. -/
theorem leader_leaves_guild :
    WellKept (.loadFromDB (fun _ => 3) guildEventRows guildInviteRows) ∧
    (step (.loadFromDB (fun _ => 3) guildEventRows guildInviteRows)
      (.removePlayerGuildEventsAndSignups 7 3)).stale = true ∧
    ¬ WellKept (step (.loadFromDB (fun _ => 3) guildEventRows guildInviteRows)
      (.removePlayerGuildEventsAndSignups 7 3)) := by
  have hsound : (CalendarMgr.loadFromDB (fun _ => 3) guildEventRows guildInviteRows).Sound := by
    refine CalendarMgr.sound_loadFromDB (fun _ => 3) (by decide) (by decide) fun invite hmem => ?_
    rw [mem_singleton.mp hmem]
    exact ⟨_, mem_cons_self, rfl⟩
  have hstale : (step (.loadFromDB (fun _ => 3) guildEventRows guildInviteRows)
      (.removePlayerGuildEventsAndSignups 7 3)).stale = true := by decide +kernel
  refine ⟨hsound.wellKept rfl, hstale, fun hkept => ?_⟩
  rw [hkept.notStale] at hstale
  cases hstale

/-! ### Restarts -/

/-- An action, or a restart: the store is loaded from its tables. -/
def live (m : CalendarMgr) : Action ⊕ (Guid → ℕ) → CalendarMgr
  | .inl a => step m a
  | .inr getCharacterGuildId => .loadFromDB getCharacterGuildId m.eventRows m.inviteRows

theorem CalendarMgr.Sound.restart (h : m.Sound) (guildIdOf : Guid → ℕ) :
    (loadFromDB guildIdOf m.eventRows m.inviteRows).Sound := by
  refine sound_loadFromDB guildIdOf h.events.rows.nodup h.invites.rows.nodup
    fun invite hmem => ?_
  obtain ⟨event, hevent, heq⟩ := mem_map.mp (h.invites.named invite ((h.invites.rows.mem_iff _).mp hmem))
  exact ⟨event.toRow, (h.events.rows.mem_iff _).mpr (mem_map_of_mem hevent), heq⟩

/-- A store that is well kept, with the events and invites of another one. -/
structure Restored (m m' : CalendarMgr) : Prop where
  wellKept : WellKept m'
  events : ∀ row, row ∈ m'.events.map CalendarEvent.toRow ↔ row ∈ m.events.map CalendarEvent.toRow
  invites : ∀ invite, invite ∈ m'.invites ↔ invite ∈ m.invites

/-- **A restart loses nothing**, whatever was done before, with any restarts in between. -/
theorem restart_restores (h : m.Sound) (events : List (Action ⊕ (Guid → ℕ)))
    (guildIdOf : Guid → ℕ) :
    Restored (events.foldl live m) (live (events.foldl live m) (.inr guildIdOf)) := by
  induction events generalizing m with
  | nil =>
    refine ⟨(h.restart guildIdOf).wellKept rfl, fun row => ?_, h.invites.rows.mem_iff⟩
    have hrows : (live m (.inr guildIdOf)).events.map CalendarEvent.toRow = m.eventRows :=
      (map_map ..).trans (map_id m.eventRows)
    rw [foldl_nil, hrows]
    exact h.events.rows.mem_iff row
  | cons event events ih =>
    cases event with
    | inl a => exact ih (h.step a)
    | inr guildIdOf => exact ih (h.restart guildIdOf)

theorem restart_restores_guildEvent :
    let m := [Sum.inl (Action.removePlayerGuildEventsAndSignups 8 3)].foldl live
      (.loadFromDB (fun _ => 3) guildEventRows guildInviteRows)
    Restored m (live m (.inr fun _ => 3)) :=
  restart_restores (CalendarMgr.sound_loadFromDB _ (by decide) (by decide) (by decide)) _ _

end IscServer.Calendar
