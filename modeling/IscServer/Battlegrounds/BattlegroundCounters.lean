import IscServer.Battlegrounds.InvitationLedger
import IscServer.Library.Run

/-!
# The Counters of a Battleground Are Exact

Every state of an instance has a ledger (`Match.ledger`), and every operation of the model acts on
the ledger as one of the ledger's own operations or not at all: the end of a match, scoring, kills
and the timers leave it alone. So the soundness of the ledger holds along every run.

## Main results

* `Match.ledger_endBattleground`, `Match.ledger_removePlayerAtLeave`,
  `Match.ledger_removePlayerFromQueue` — what the operations do to the ledger.
* `Counted.step` — an event keeps the ledger sound.
* `counters_exact` — in every state of a run the counters are the numbers of players queued on an
  invitation, on the way and inside, and an instance that is to be deleted has none of them.
-/

namespace IscServer.Battlegrounds

open List Function

variable {s : Match} {guid : Guid}

/-! ### The ledger of a state -/

/-- The ledger of a state. -/
def Match.ledger (s : Match) : Ledger where
  instanceID := s.bg.instanceID
  deleted := s.bg.setDeleteThis
  queued := s.queuedGroups.flatMap fun g =>
    g.players.map fun p => (p, g.isInvitedToBGInstanceGUID, g.team)
  transit := s.transit
  inside := s.bg.players.map fun e => (e.guid, e.team)
  ticket g := (s.player g).toTicket
  playersCount := s.bg.playersCount
  invitedCount := s.bg.invitedCount

namespace Match

@[simp] theorem ledger_record (r : Report) : (s.record r).ledger = s.ledger := rfl

@[simp] theorem ledger_records (rs : List Report) : (rs.foldl record s).ledger = s.ledger := by
  induction rs generalizing s with
  | nil => rfl
  | cons r rs ih => rw [foldl_cons, ih, ledger_record]

variable {f : Player → Player}

/-- Changes of a player object that leave its ticket alone leave the ledger alone. -/
theorem ledger_modifyPlayer_of_eq (hf : (f (s.player guid)).toTicket = (s.player guid).toTicket) :
    (s.modifyPlayer guid f).ledger = s.ledger := by
  have hticket : ∀ g, ((s.modifyPlayer guid f).player g).toTicket = (s.player g).toTicket := by
    intro g
    by_cases hg : g = guid
    · subst hg
      rw [player_modifyPlayer_self, hf]
    · rw [player_modifyPlayer_of_ne s hg]
  simp only [ledger, hticket]
  rfl

/-- A change of one player object changes one ticket. -/
theorem ledger_modifyPlayer (f : Player → Player) :
    (s.modifyPlayer guid f).ledger = s.ledger.setTicket guid (f (s.player guid)).toTicket := by
  have hticket : (fun g => ((s.modifyPlayer guid f).player g).toTicket) =
      Function.update s.ledger.ticket guid (f (s.player guid)).toTicket := by
    funext g
    by_cases hg : g = guid
    · subst hg
      rw [player_modifyPlayer_self, update_self]
    · rw [player_modifyPlayer_of_ne s hg, update_of_ne hg]
      rfl
  rw [ledger, hticket]
  rfl

/-! ### The end of a match -/

@[simp] theorem ledger_endBattlegroundBase : s.endBattlegroundBase.ledger = s.ledger := by
  have hticket : ∀ g, (s.endBattlegroundBase.player g).toTicket = (s.player g).toTicket := by
    intro g
    rw [endBattlegroundBase]
    dsimp only
    cases s.bg.find g with
    | none => rfl
    | some entry =>
      dsimp only
      split_ifs <;> rfl
  simp only [ledger, hticket]
  rfl

variable (winner : Option Team)

@[simp] theorem ledger_scoreMatch : (s.scoreMatch winner).ledger = s.ledger := by
  rw [scoreMatch]
  split_ifs
  · exact ledger_records _
  · rfl

/-- The end of a match leaves the ledger alone. -/
@[simp] theorem ledger_endBattleground : (s.endBattleground winner).ledger = s.ledger := by
  rw [endBattleground]
  split_ifs
  · rw [ledger_endBattlegroundBase]
    split_ifs <;> simp
  · exact ledger_endBattlegroundBase

@[simp] theorem ledger_checkWinConditions : s.checkWinConditions.ledger = s.ledger := by
  rw [checkWinConditions]
  split_ifs <;> simp

@[simp] theorem ledger_handleKillPlayer : s.handleKillPlayer.ledger = s.ledger := by
  rw [handleKillPlayer]
  split_ifs <;> simp

@[simp] theorem ledger_removePlayer : s.removePlayer.ledger = s.ledger := by
  rw [removePlayer]
  split_ifs <;> simp

@[simp] theorem ledger_scoreLeaver : (s.scoreLeaver guid).ledger = s.ledger := by
  rw [scoreLeaver]
  split_ifs
  · cases s.bg.find guid with
    | none => rfl
    | some entry =>
      dsimp only
      split_ifs <;> rfl
  · rfl

/-! ### Leaving -/

theorem find_inside (guid : Guid) : Keyed.find Prod.fst s.ledger.inside guid =
    (s.bg.find guid).map fun e => (e.guid, e.team) := by
  rw [Keyed.find, ledger, List.find?_map]
  rfl

theorem findPlayer_ledger : s.findPlayer guid =
    ((s.ledger.ticket guid).connected && !(guid ∈ s.ledger.transit : Bool)) := rfl

variable (entry : Option BattlegroundPlayer)

/-- The record that `forgetPlayer` leaves of a player who is found. -/
theorem ledger_forgetPlayer :
    (s.forgetPlayer guid entry).ledger =
      match entry with
      | none =>
        if s.findPlayer guid then
          s.ledger.setTicket guid { s.ledger.ticket guid with bgInstanceID := 0, bgTeam := none }
        else s.ledger
      | some e =>
        let counted := { s.ledger with
          invitedCount :=
            Function.update s.ledger.invitedCount e.team (s.ledger.invitedCount e.team - 1) }
        if s.findPlayer guid then
          counted.setTicket guid
            { s.ledger.ticket guid with queueSlot := none, bgInstanceID := 0, bgTeam := none }
        else counted := by
  cases entry with
  | none =>
    unfold forgetPlayer
    dsimp only
    split_ifs
    · exact ledger_modifyPlayer _
    · rfl
  | some e =>
    unfold forgetPlayer
    dsimp only
    split_ifs
    · rw [ledger_modifyPlayer]
      have hcounted : ∀ f : Player → Player, ({ s.modifyPlayer guid f with
          bg := (s.modifyPlayer guid f).bg.decreaseInvitedCount e.team } : Match).ledger =
            ({ s with bg := s.bg.decreaseInvitedCount e.team } : Match).ledger.setTicket guid
              (f (s.player guid)).toTicket := fun f =>
        @ledger_modifyPlayer { s with bg := s.bg.decreaseInvitedCount e.team } guid f
      rw [hcounted, Ledger.setTicket_setTicket, player_modifyPlayer_self]
      rfl
    · rfl

/-- Scoring a player who leaves touches only the arena teams and the history. -/
theorem scoreLeaver_eq (s : Match) (guid : Guid) : ∃ teams log,
    s.scoreLeaver guid = { s with arenaTeams := teams, log := log } := by
  rw [scoreLeaver]
  split_ifs
  · cases s.bg.find guid with
    | none => exact ⟨_, _, rfl⟩
    | some entry =>
      dsimp only
      split_ifs <;> exact ⟨_, _, rfl⟩
  · exact ⟨_, _, rfl⟩

theorem ledger_erasePlayer_none (hfind : s.bg.find guid = none) :
    ({ s with bg := s.bg.erasePlayer guid } : Match).ledger = s.ledger := by
  rw [Battleground.erasePlayer, hfind]

theorem ledger_erasePlayer_some {e : BattlegroundPlayer} (hfind : s.bg.find guid = some e) :
    ({ s with bg := s.bg.erasePlayer guid } : Match).ledger =
      { s.ledger with
        inside := s.ledger.inside.filter fun e' => !(e'.1 = guid)
        playersCount :=
          Function.update s.ledger.playersCount e.team (s.ledger.playersCount e.team - 1) } := by
  rw [Battleground.erasePlayer, hfind]
  simp only [ledger, filter_map]
  rfl

/-- **Leaving** takes the player off the ledger. -/
theorem ledger_removePlayerAtLeave : (s.removePlayerAtLeave guid).ledger = s.ledger.leave guid := by
  obtain ⟨teams, log, hscore⟩ := scoreLeaver_eq s guid
  rw [removePlayerAtLeave, hscore]
  set erased : Match := { s with
    bg := s.bg.erasePlayer guid, arenaTeams := teams, log := log } with herased
  have hledger : ∀ f : Player → Player, (∀ p, (f p).toTicket = p.toTicket) →
      (if erased.findPlayer guid then erased.modifyPlayer guid f else erased).removePlayer.ledger =
        ({ s with bg := s.bg.erasePlayer guid } : Match).ledger := by
    intro f hf
    rw [ledger_removePlayer]
    split_ifs
    · exact ledger_modifyPlayer_of_eq (hf _)
    · rfl
  have hrevived := hledger (fun p => { p with alive := true, spiritOfRedemption := false }) fun _ => rfl
  refine (ledger_forgetPlayer _).trans ?_
  rw [findPlayer_ledger, hrevived, Ledger.leave, find_inside]
  cases hfind : s.bg.find guid with
  | none =>
    rw [ledger_erasePlayer_none hfind]
    rfl
  | some e =>
    rw [ledger_erasePlayer_some hfind]
    have hkey : e.guid = guid := Keyed.key_of_find hfind
    subst hkey
    rfl

/-! ### Arriving, logging out and in -/

theorem find_eq_none_iff : s.bg.find guid = none ↔ guid ∉ s.ledger.inside.map Prod.fst := by
  rw [Battleground.find, Keyed.find_eq_none_iff, ledger, map_map, mem_map]
  constructor
  · rintro h ⟨e, he, hkey⟩
    exact h e he hkey
  · exact fun h e he hkey => h ⟨e, he, hkey⟩

/-- `AddPlayer` for a player who is not inside. -/
theorem ledger_addPlayer (hnew : guid ∉ s.ledger.inside.map Prod.fst) :
    (s.addPlayer guid).ledger =
      { s.ledger with
        inside := s.ledger.inside ++ [(guid, (s.ledger.ticket guid).getBGTeam)]
        playersCount := Function.update s.ledger.playersCount (s.ledger.ticket guid).getBGTeam
          (s.ledger.playersCount (s.ledger.ticket guid).getBGTeam + 1) } := by
  have hfind := find_eq_none_iff.mpr hnew
  have hplayers : s.bg.players.filter (fun e => !(e.guid = guid)) = s.bg.players :=
    filter_eq_self.mpr fun e he => by
      simpa using Keyed.find_eq_none_iff.mp hfind e he
  rw [addPlayer, Battleground.enterPlayer, Battleground.isPlayerInBattleground, hfind]
  simp only [Option.isSome_none, Keyed.assign, hplayers]
  simp only [ledger, Battleground.updatePlayersCountByTeam, map_append, map_cons,
    map_nil, Bool.false_eq_true, if_false]

theorem map_setOfflineRemoveTime (b : Battleground) (time : ℕ) :
    (b.setOfflineRemoveTime guid time).players.map (fun e => (e.guid, e.team)) =
      b.players.map fun e => (e.guid, e.team) := by
  rw [Battleground.setOfflineRemoveTime, map_map]
  refine map_congr_left fun e _ => ?_
  rw [Function.comp_apply]
  split_ifs <;> rfl

@[simp] theorem ledger_eventPlayerLoggedIn : (s.eventPlayerLoggedIn guid).ledger = s.ledger := by
  simp only [ledger, eventPlayerLoggedIn, map_setOfflineRemoveTime]
  rfl

@[simp] theorem ledger_eventPlayerLoggedOut (now : ℕ) :
    (s.eventPlayerLoggedOut guid now).ledger = s.ledger := by
  have hqueue : ∀ queue : List Guid, ({ s with
      bg := { s.bg.setOfflineRemoveTime guid (now + maxOfflineTime) with
        offlineQueue := queue } } : Match).ledger = s.ledger := by
    intro queue
    simp only [ledger, map_setOfflineRemoveTime]
    rfl
  rw [eventPlayerLoggedOut]
  dsimp only
  split_ifs
  · rw [ledger_endBattleground, ledger_removePlayer]
    exact hqueue _
  · rw [ledger_removePlayer]
    exact hqueue _
  · exact hqueue _
  · rfl

/-! ### The update -/

theorem ledger_processJoin (diff : UInt32) (setup : Bool) :
    (s.processJoin diff setup).ledger = s.ledger := by
  unfold processJoin
  dsimp only
  split_ifs
  all_goals try rfl
  rw [ledger_checkWinConditions]
  rfl

/-! ### The queue -/

theorem mem_queued {q : Guid × ℕ × Team} : q ∈ s.ledger.queued ↔
    ∃ g ∈ s.queuedGroups, q.1 ∈ g.players ∧ q.2 = (g.isInvitedToBGInstanceGUID, g.team) := by
  rw [ledger, mem_flatMap]
  refine exists_congr fun g => and_congr_right fun _ => ?_
  rw [mem_map]
  constructor
  · rintro ⟨p, hp, rfl⟩
    exact ⟨hp, rfl⟩
  · rintro ⟨hp, hq⟩
    exact ⟨q.1, hp, by rw [← hq]⟩

@[simp] theorem ledger_dropFromGroup : (s.dropFromGroup guid).ledger = s.ledger.dropQueued guid := by
  have hqueued : ∀ groups : List GroupQueueInfo,
      (((groups.map fun g => { g with players := g.players.filter fun p => !(p = guid) }).filter
        fun g => !g.players.isEmpty).flatMap fun g =>
          g.players.map fun p => (p, g.isInvitedToBGInstanceGUID, g.team)) =
      (groups.flatMap fun g => g.players.map fun p =>
        (p, g.isInvitedToBGInstanceGUID, g.team)).filter fun q => !(q.1 = guid) := by
    intro groups
    induction groups with
    | nil => rfl
    | cons g groups ih =>
      rw [map_cons, flatMap_cons, filter_append, ← ih, filter_map]
      have hcomp : ((fun q : Guid × ℕ × Team => !(q.1 = guid : Bool)) ∘ fun p =>
        (p, g.isInvitedToBGInstanceGUID, g.team)) = fun p => !(p = guid : Bool) := rfl
      rw [hcomp]
      cases hrest : g.players.filter fun p => !(p = guid) with
      | nil => simp
      | cons p rest => simp
  rw [ledger, dropFromGroup]
  rw [hqueued]
  rfl

/-- Every group is listed under the faction it plays for. -/
def Listed (s : Match) : Prop := ∀ g ∈ s.queuedGroups, g.faction = g.team

theorem Listed.dropFromGroup (h : Listed s) (guid : Guid) : Listed (s.dropFromGroup guid) := by
  intro g hmem
  obtain ⟨hmem, -⟩ := mem_filter.mp hmem
  obtain ⟨g, hg, rfl⟩ := mem_map.mp hmem
  exact h g hg

/-- The group that is found is where the ledger has the player. -/
theorem groupOf_some {group : GroupQueueInfo} (h : s.groupOf guid = some group) :
    group ∈ s.queuedGroups ∧ guid ∈ group.players ∧
      (guid, group.isInvitedToBGInstanceGUID, group.team) ∈ s.ledger.queued := by
  have hmem := mem_of_find?_eq_some h
  have hguid : guid ∈ group.players := by simpa using List.find?_some h
  exact ⟨hmem, hguid, mem_queued.mpr ⟨group, hmem, hguid, rfl⟩⟩

theorem groupOf_none (h : s.groupOf guid = none) : guid ∉ s.ledger.queued.map Prod.fst := by
  intro hmem
  obtain ⟨q, hq, rfl⟩ := mem_map.mp hmem
  obtain ⟨g, hg, hp, -⟩ := mem_queued.mp hq
  simpa [hp] using List.find?_eq_none.mp h g hg

section

variable (group : GroupQueueInfo) (decrease : Bool)

@[simp] theorem queuedGroups_takeInvitationBack :
    (s.takeInvitationBack group decrease).queuedGroups = s.queuedGroups := by
  rw [takeInvitationBack]
  split_ifs <;> rfl

@[simp] theorem queuedGroups_scoreAbsent :
    (s.scoreAbsent guid group decrease).queuedGroups = s.queuedGroups := by
  rw [scoreAbsent]
  split_ifs <;> rfl

@[simp] theorem ledger_scoreAbsent : (s.scoreAbsent guid group decrease).ledger = s.ledger := by
  rw [scoreAbsent]
  split_ifs <;> rfl

end

theorem Listed.removeRest (h : Listed s) (guids : List Guid) : Listed (s.removeRest guids) := by
  induction guids generalizing s with
  | nil => exact h
  | cons g guids ih =>
    refine ih (Listed.dropFromGroup ?_ g)
    split_ifs <;> exact h

theorem Listed.removePlayerFromQueue (h : Listed s) (guid : Guid) (decrease : Bool) :
    Listed (s.removePlayerFromQueue guid decrease) := by
  rw [Match.removePlayerFromQueue]
  cases s.groupOf guid with
  | none => exact h
  | some group =>
    have hdropped := h.dropFromGroup guid
    have hscored : Listed (((s.dropFromGroup guid).takeInvitationBack group decrease).scoreAbsent
        guid group decrease) := by
      rw [Listed, queuedGroups_scoreAbsent, queuedGroups_takeInvitationBack]
      exact hdropped
    dsimp only
    split_ifs
    · exact h
    · exact hscored.removeRest _
    · exact hscored

theorem ledger_removeRest (guids : List Guid) :
    (s.removeRest guids).ledger = guids.foldl Ledger.giveUp s.ledger := by
  induction guids generalizing s with
  | nil => rfl
  | cons g guids ih =>
    rw [removeRest, foldl_cons, ← removeRest, ih, foldl_cons, ledger_dropFromGroup, Ledger.giveUp]
    congr 2
    by_cases hconn : (s.player g).connected = true
    · rw [if_pos hconn, removeBattlegroundQueueId, ledger_modifyPlayer]
      exact (if_pos hconn).symm
    · rw [if_neg hconn]
      exact (if_neg hconn).symm

/-- **Leaving the queue** with the invitation taken back. -/
theorem ledger_removePlayerFromQueue {group : GroupQueueInfo}
    (hnodup : (s.ledger.queued.map Prod.fst).Nodup) (hlisted : Listed s)
    (hgroup : s.groupOf guid = some group) :
    (s.removePlayerFromQueue guid true).ledger =
      if group.isInvitedToBGInstanceGUID = 0 && group.isRated then
        (group.players.filter fun p => !(p = guid)).foldl Ledger.giveUp (s.ledger.unqueue guid)
      else s.ledger.unqueue guid := by
  obtain ⟨hmem, hguid, hqueued⟩ := groupOf_some hgroup
  have hfind : Keyed.find Prod.fst s.ledger.queued guid =
      some (guid, group.isInvitedToBGInstanceGUID, group.team) := Keyed.find_of_mem hnodup hqueued
  rw [removePlayerFromQueue, hgroup]
  dsimp only
  rw [if_neg (not_not.mpr (hlisted group hmem))]
  have hunqueue : ((s.dropFromGroup guid).takeInvitationBack group true).ledger =
      s.ledger.unqueue guid := by
    rw [takeInvitationBack, Bool.true_and, Ledger.unqueue, Ledger.takenBack, hfind,
      ← ledger_dropFromGroup]
    dsimp only
    split_ifs with hhere hid hid
    · rfl
    · exact absurd hhere hid
    · exact absurd hid hhere
    · rfl
  by_cases hrest : (group.isInvitedToBGInstanceGUID = 0 && group.isRated) = true
  · rw [if_pos hrest, if_pos hrest, ledger_removeRest, ledger_scoreAbsent, hunqueue]
  · rw [if_neg hrest, if_neg hrest, ledger_scoreAbsent, hunqueue]

/-! ### The invariant -/

/-- The ledger is sound and the queue lists every group under its own faction. -/
structure Counted (s : Match) : Prop where
  sound : s.ledger.Sound
  listed : Listed s

variable {s' : Match}

section

variable (h : Counted s)
include h

/-- What leaves the ledger and the queue alone keeps the invariant. -/
theorem Counted.of_eq (hledger : s'.ledger = s.ledger)
    (hgroups : s'.queuedGroups = s.queuedGroups) : Counted s' :=
  ⟨hledger ▸ h.sound, fun g hg => h.listed g (hgroups ▸ hg)⟩

/-- A player found in a group is queued, and in no other list. -/
theorem Counted.groupOf {group : GroupQueueInfo} (hgroup : s.groupOf guid = some group) :
    (s.player guid).connected = true ∧
      (s.player guid).queueSlot = some group.isInvitedToBGInstanceGUID ∧
      (s.player guid).bgInstanceID ≠ s.bg.instanceID :=
  h.sound.queued _ (groupOf_some hgroup).2.2

/-- The groups share no player. -/
theorem Counted.disjoint {g g' : GroupQueueInfo} (hg : g ∈ s.queuedGroups)
    (hg' : g' ∈ s.queuedGroups) (hne : g ≠ g') : List.Disjoint g.players g'.players := by
  have hkeys : s.ledger.queued.map Prod.fst = s.queuedGroups.flatMap (·.players) := by
    rw [ledger, map_flatMap]
    congr 1
    funext g
    rw [map_map]
    exact map_id _
  have hnodup := h.sound.queued_nodup
  rw [hkeys] at hnodup
  have hsymm : Std.Symm (Function.onFun List.Disjoint fun g : GroupQueueInfo => g.players) :=
    ⟨fun _ _ hd => List.Disjoint.symm hd⟩
  exact (nodup_flatMap.mp hnodup).2.forall hg hg' hne

theorem Counted.nodup_players {g : GroupQueueInfo} (hg : g ∈ s.queuedGroups) : g.players.Nodup := by
  have hnodup := h.sound.queued_nodup
  rw [ledger, map_flatMap] at hnodup
  have hplayers := (nodup_flatMap.mp hnodup).1 g hg
  rw [map_map] at hplayers
  exact (map_id g.players).symm ▸ hplayers

theorem Counted.modifyPlayer
    (hsound : (s.ledger.setTicket guid (f (s.player guid)).toTicket).Sound) :
    Counted (s.modifyPlayer guid f) :=
  ⟨ledger_modifyPlayer f ▸ hsound, h.listed⟩

end

/-! ### The events keep it -/

theorem queuedGroups_records (rs : List Report) :
    (rs.foldl record s).queuedGroups = s.queuedGroups := by
  induction rs generalizing s with
  | nil => rfl
  | cons r rs ih => exact ih

@[simp] theorem queuedGroups_scoreMatch : (s.scoreMatch winner).queuedGroups = s.queuedGroups := by
  rw [scoreMatch]
  split_ifs
  · exact queuedGroups_records _
  · rfl

@[simp] theorem queuedGroups_endBattleground :
    (s.endBattleground winner).queuedGroups = s.queuedGroups := by
  rw [endBattleground]
  dsimp only
  split_ifs
  · exact queuedGroups_scoreMatch _
  · rfl
  · rfl

@[simp] theorem queuedGroups_checkWinConditions :
    s.checkWinConditions.queuedGroups = s.queuedGroups := by
  rw [checkWinConditions]
  split_ifs <;> simp

@[simp] theorem queuedGroups_handleKillPlayer :
    s.handleKillPlayer.queuedGroups = s.queuedGroups := by
  rw [handleKillPlayer]
  split_ifs <;> simp

@[simp] theorem queuedGroups_removePlayer : s.removePlayer.queuedGroups = s.queuedGroups := by
  rw [removePlayer]
  split_ifs <;> simp

theorem queuedGroups_forgetPlayer : (s.forgetPlayer guid entry).queuedGroups = s.queuedGroups := by
  cases entry with
  | none =>
    unfold forgetPlayer
    dsimp only
    split_ifs <;> rfl
  | some e =>
    unfold forgetPlayer
    dsimp only
    split_ifs <;> rfl

@[simp] theorem queuedGroups_removePlayerAtLeave :
    (s.removePlayerAtLeave guid).queuedGroups = s.queuedGroups := by
  obtain ⟨teams, log, hscore⟩ := scoreLeaver_eq s guid
  rw [removePlayerAtLeave, hscore]
  refine (queuedGroups_forgetPlayer _).trans ?_
  rw [queuedGroups_removePlayer]
  split_ifs <;> rfl

@[simp] theorem queuedGroups_eventPlayerLoggedOut (now : ℕ) :
    (s.eventPlayerLoggedOut guid now).queuedGroups = s.queuedGroups := by
  rw [eventPlayerLoggedOut]
  dsimp only
  split_ifs
  · rw [queuedGroups_endBattleground, queuedGroups_removePlayer]
  · rw [queuedGroups_removePlayer]
  · rfl
  · rfl

@[simp] theorem queuedGroups_processJoin (diff : UInt32) (setup : Bool) :
    (s.processJoin diff setup).queuedGroups = s.queuedGroups := by
  unfold processJoin
  dsimp only
  split_ifs
  all_goals try rfl
  exact queuedGroups_checkWinConditions

section

variable (h : Counted s)
include h

/-- **Leaving.** -/
theorem Counted.removePlayerAtLeave (guid : Guid) : Counted (s.removePlayerAtLeave guid) :=
  ⟨ledger_removePlayerAtLeave ▸ h.sound.leave guid, fun g hg =>
    h.listed g (queuedGroups_removePlayerAtLeave ▸ hg)⟩

theorem Counted.foldl_removePlayerAtLeave (guids : List Guid) :
    Counted (guids.foldl Match.removePlayerAtLeave s) := by
  induction guids generalizing s with
  | nil => exact h
  | cons g guids ih => exact ih (h.removePlayerAtLeave g)

/-- **Arriving.** -/
theorem Counted.arrive (guid : Guid) : Counted (s.arrive guid) := by
  rw [Match.arrive]
  split_ifs with htransit
  · obtain ⟨hconn, hslot, hid⟩ := h.sound.transit guid htransit
    have hlive : s.bg.setDeleteThis = false := by
      rw [← Bool.not_eq_true]
      intro hdeleted
      have hempty : s.transit = [] := (h.sound.deleted hdeleted).1
      rw [hempty] at htransit
      cases htransit
    have hid' : (s.player guid).bgInstanceID = s.bg.instanceID := hid
    have hslot' : (s.player guid).queueSlot = some s.bg.instanceID := hslot
    have hcond : (s.isHere (s.player guid).bgInstanceID &&
        ((s.player guid).queueSlot = some (s.player guid).bgInstanceID : Bool)) = true := by
      rw [isHere, hlive, hid', hslot']
      simp
    have hnew : guid ∉ s.ledger.inside.map Prod.fst := by
      intro hmem
      obtain ⟨e, he, rfl⟩ := mem_map.mp hmem
      exact (h.sound.inside e he).1 htransit
    refine (congrArg Counted (if_pos hcond)).mpr ⟨?_, h.listed⟩
    have hledger := @ledger_addPlayer
      { s with transit := s.transit.filter fun p => !(p = guid) } guid hnew
    rw [hledger]
    exact h.sound.arrive htransit
  · exact h

/-- Of the instance a player is inside of, it also knows that it is there. -/
theorem Counted.isHere_of_inside (hinside : guid ∈ s.ledger.inside.map Prod.fst) :
    s.isHere (s.player guid).bgInstanceID = true := by
  obtain ⟨e, he, rfl⟩ := mem_map.mp hinside
  have hid : (s.player e.1).bgInstanceID = s.bg.instanceID := (h.sound.inside e he).2.1
  have hlive : s.bg.setDeleteThis = false := by
    rw [← Bool.not_eq_true]
    intro hdeleted
    have hempty : s.ledger.inside = [] := (h.sound.deleted hdeleted).2.1
    rw [hempty] at he
    cases he
  rw [isHere, hid, hlive]
  simp

theorem Counted.leaveBattleground (guid : Guid) : Counted (s.leaveBattleground guid) := by
  rw [Match.leaveBattleground]
  split_ifs with hfound hhere
  · exact h.removePlayerAtLeave guid
  · obtain ⟨hfind, -⟩ := (Bool.and_eq_true _ _).mp hfound
    obtain ⟨hconn, htransit⟩ := (Bool.and_eq_true _ _).mp hfind
    refine h.modifyPlayer (h.sound.setTicket (fun hmem => ?_) (fun ht => ?_) (fun hi => ?_)
      fun _ hid => absurd hid.symm h.sound.instanceID)
    · have hgroup : ¬ (s.groupOf guid).isNone = true := fun hnone =>
        groupOf_none (Option.isNone_iff_eq_none.mp hnone) hmem
      refine ⟨hconn, ?_, Ne.symm h.sound.instanceID⟩
      rw [if_neg (by simp [hgroup])]
      rfl
    · have hnot : guid ∉ s.transit := by simpa using htransit
      exact absurd ht hnot
    · exact absurd (h.isHere_of_inside hi) hhere
  · exact h

/-- **Giving up a place in the queue**: the slot is returned and the invitation taken back. -/
theorem Counted.withdraw {group : GroupQueueInfo} (hgroup : s.groupOf guid = some group) :
    Counted ((s.removeBattlegroundQueueId guid).removePlayerFromQueue guid true) := by
  obtain ⟨hmem, hguid, hqueued⟩ := groupOf_some hgroup
  have hsound := h.sound.withdraw hqueued
  have hledger : (s.removeBattlegroundQueueId guid).ledger =
      s.ledger.setTicket guid { s.ledger.ticket guid with queueSlot := none } := ledger_modifyPlayer _
  have hnodup : ((s.removeBattlegroundQueueId guid).ledger.queued.map Prod.fst).Nodup := by
    exact h.sound.queued_nodup
  refine ⟨?_, ?_⟩
  · rw [ledger_removePlayerFromQueue hnodup h.listed hgroup, hledger]
    split_ifs with hrest
    · obtain ⟨hzero, -⟩ := (Bool.and_eq_true _ _).mp hrest
      refine hsound.foldl_giveUp ((h.nodup_players hmem).filter _) group.team fun g hg => ?_
      obtain ⟨hg, hne⟩ := mem_filter.mp hg
      refine Ledger.mem_dropQueued.mpr ⟨mem_queued.mpr ⟨group, hmem, hg, ?_⟩, by simpa using hne⟩
      rw [of_decide_eq_true hzero]
    · exact hsound
  · exact Listed.removePlayerFromQueue (s := s.removeBattlegroundQueueId guid) h.listed guid true

end

/-- Taking a player out of an invited group without the invitation being taken back. -/
theorem removePlayerFromQueue_keep {group : GroupQueueInfo} (hlisted : Listed s)
    (hgroup : s.groupOf guid = some group) (hinvited : group.isInvitedToBGInstanceGUID ≠ 0) :
    s.removePlayerFromQueue guid false = s.dropFromGroup guid := by
  obtain ⟨hmem, -, -⟩ := groupOf_some hgroup
  rw [removePlayerFromQueue, hgroup]
  dsimp only
  rw [if_neg (not_not.mpr (hlisted group hmem)), if_neg (by simp [hinvited]), scoreAbsent,
    if_neg (by simp), takeInvitationBack, Bool.false_and, if_neg Bool.false_ne_true]

section

variable (h : Counted s)
include h

section

variable {group : GroupQueueInfo} (hgroup : s.groupOf guid = some group)
  (hinvited : group.isInvitedToBGInstanceGUID ≠ 0)
include hgroup hinvited

/-- A player who is queued is inside nowhere here, so accepting does not make it leave. -/
theorem Counted.acceptInvite_eq :
    s.acceptInvite guid group =
      let left := ((s.modifyPlayer guid fun p => { p with alive := true }).dropFromGroup
        guid).modifyPlayer guid fun p =>
          { p with bgInstanceID := group.isInvitedToBGInstanceGUID, bgTeam := some group.team }
      if left.isHere group.isInvitedToBGInstanceGUID then { left with transit := guid :: left.transit }
      else left := by
  have hne : (s.player guid).bgInstanceID ≠ s.bg.instanceID := (h.groupOf hgroup).2.2
  have hsame : ((s.modifyPlayer guid fun p => { p with alive := true }).player guid).bgInstanceID =
      (s.player guid).bgInstanceID := by
    rw [player_modifyPlayer_self]
  have hnot : ((s.modifyPlayer guid fun p => { p with alive := true }).dropFromGroup guid).isHere
      (((s.modifyPlayer guid fun p => { p with alive := true }).dropFromGroup guid).player
        guid).bgInstanceID = false := by
    refine (congrArg (fun id => s.isHere id) hsame).trans ?_
    rw [isHere, decide_eq_false hne, Bool.false_and]
  rw [Match.acceptInvite]
  rw [removePlayerFromQueue_keep (s := s.modifyPlayer guid _) h.listed hgroup hinvited, hnot,
    if_neg Bool.false_ne_true]

/-- **Accepting.** -/
theorem Counted.acceptInvite : Counted (s.acceptInvite guid group) := by
  obtain ⟨hmem, hguid, hqueued⟩ := groupOf_some hgroup
  have hrevived : (s.modifyPlayer guid fun p => { p with alive := true }).ledger = s.ledger :=
    ledger_modifyPlayer_of_eq rfl
  have hleft : ((s.modifyPlayer guid fun p => { p with alive := true }).dropFromGroup guid).ledger =
      s.ledger.dropQueued guid := by
    rw [ledger_dropFromGroup, hrevived]
  have hlisted : Listed ((s.modifyPlayer guid fun p => { p with alive := true }).dropFromGroup guid) :=
    Listed.dropFromGroup (s := s.modifyPlayer guid _) h.listed guid
  rw [h.acceptInvite_eq hgroup hinvited]
  generalize (s.modifyPlayer guid fun p => { p with alive := true }).dropFromGroup guid = left
    at hleft hlisted
  have hset := @ledger_modifyPlayer left guid fun p =>
    { p with bgInstanceID := group.isInvitedToBGInstanceGUID, bgTeam := some group.team }
  have hticket : (left.player guid).toTicket = s.ledger.ticket guid :=
    show left.ledger.ticket guid = s.ledger.ticket guid by rw [hleft]; rfl
  have hhere : left.isHere group.isInvitedToBGInstanceGUID =
      (group.isInvitedToBGInstanceGUID = s.ledger.instanceID && !s.ledger.deleted) := by
    show (group.isInvitedToBGInstanceGUID = left.ledger.instanceID && !left.ledger.deleted) = _
    rw [hleft]
    rfl
  have hsound := h.sound.accept hqueued
  rw [Ledger.accept] at hsound
  rw [hleft, hticket] at hset
  refine ⟨?_, ?_⟩
  · by_cases hcond : left.isHere group.isInvitedToBGInstanceGUID = true
    · rw [if_pos (hhere ▸ hcond), ← hset] at hsound
      exact (congrArg (fun t : Match => t.ledger.Sound) (if_pos hcond)).mpr hsound
    · rw [if_neg (hhere ▸ hcond), ← hset] at hsound
      exact (congrArg (fun t : Match => t.ledger.Sound) (if_neg hcond)).mpr hsound
  · dsimp only
    split_ifs <;> exact hlisted

end

theorem Counted.ledger_withdraw {group : GroupQueueInfo} (hgroup : s.groupOf guid = some group) :
    ((s.removeBattlegroundQueueId guid).removePlayerFromQueue guid true).transit = s.transit ∧
      guid ∉ (((s.removeBattlegroundQueueId guid).removePlayerFromQueue guid
        true).ledger.queued.map Prod.fst) := by
  have hledger : (s.removeBattlegroundQueueId guid).ledger =
      s.ledger.setTicket guid { s.ledger.ticket guid with queueSlot := none } := ledger_modifyPlayer _
  have hnodup : ((s.removeBattlegroundQueueId guid).ledger.queued.map Prod.fst).Nodup := by
    exact h.sound.queued_nodup
  have hleft := ledger_removePlayerFromQueue hnodup h.listed hgroup
  have hlists : ∀ guids : List Guid, ∀ b : Ledger,
      (guids.foldl Ledger.giveUp (b.unqueue guid)).transit = b.transit ∧
        guid ∉ (guids.foldl Ledger.giveUp (b.unqueue guid)).queued.map Prod.fst := by
    intro guids b
    obtain ⟨htransit, hqueued⟩ := @Ledger.foldl_giveUp_lists (b.unqueue guid) guids
    refine ⟨htransit, fun hmem => ?_⟩
    obtain ⟨q, hq, hkey⟩ := mem_map.mp hmem
    exact (Ledger.mem_dropQueued.mp (hqueued q hq)).2 hkey
  show Ledger.transit (ledger _) = _ ∧ _
  rw [hleft, hledger]
  split_ifs
  · exact hlists _ _
  · exact hlists [] _

/-- After logging out a player is in no queue and not on the way; it may still be inside. -/
theorem Counted.disconnect (hqueued : guid ∉ s.ledger.queued.map Prod.fst)
    (htransit : guid ∉ s.transit) (hconn : (f (s.player guid)).connected = false)
    (hid : (f (s.player guid)).bgInstanceID = (s.player guid).bgInstanceID)
    (hteam : (f (s.player guid)).getBGTeam = (s.player guid).getBGTeam) :
    Counted (s.modifyPlayer guid f) := by
  refine h.modifyPlayer (h.sound.setTicket (fun hq => absurd hq hqueued) (fun ht => absurd ht htransit)
    (fun hi => ?_) fun hc => Bool.noConfusion (hconn.symm.trans hc))
  obtain ⟨e, he, rfl⟩ := mem_map.mp hi
  exact ⟨hid.trans (h.sound.inside e he).2.1, hteam, fun hc => Bool.noConfusion (hconn.symm.trans hc)⟩

end

theorem notMem_transit_arrive : guid ∉ (s.arrive guid).transit := by
  rw [Match.arrive]
  split_ifs with htransit
  · dsimp only
    split_ifs <;> simp [addPlayer]
  · exact htransit

theorem transit_of_ledger_eq {s' : Match} (h : s'.ledger = s.ledger) : s'.transit = s.transit :=
  congrArg Ledger.transit h

theorem ledger_endRedemption : (s.endRedemption guid).ledger = s.ledger :=
  ledger_modifyPlayer_of_eq rfl

theorem ledger_logoutFromBattleground (now : ℕ) :
    (s.logoutFromBattleground guid now).ledger = s.ledger := by
  rw [logoutFromBattleground]
  split_ifs
  · exact ledger_eventPlayerLoggedOut now
  · rfl

theorem queuedGroups_logoutFromBattleground (now : ℕ) :
    (s.logoutFromBattleground guid now).queuedGroups = s.queuedGroups := by
  rw [logoutFromBattleground]
  split_ifs
  · exact queuedGroups_eventPlayerLoggedOut now
  · rfl

section

variable (h : Counted s)
include h

/-- **Logging out.** -/
theorem Counted.logoutPlayer (guid : Guid) (now : ℕ) : Counted (s.logoutPlayer guid now) := by
  rw [Match.logoutPlayer]
  split_ifs with hconn
  · have hledger : (((s.arrive guid).endRedemption guid).logoutFromBattleground guid now).ledger =
        (s.arrive guid).ledger := by
      rw [ledger_logoutFromBattleground, ledger_endRedemption]
    have htold : Counted (((s.arrive guid).endRedemption guid).logoutFromBattleground guid now) :=
      (h.arrive guid).of_eq hledger (queuedGroups_logoutFromBattleground now)
    have htransit : guid ∉
        (((s.arrive guid).endRedemption guid).logoutFromBattleground guid now).transit :=
      transit_of_ledger_eq hledger ▸ notMem_transit_arrive
    generalize ((s.arrive guid).endRedemption guid).logoutFromBattleground guid now = told
      at htold htransit
    rw [logoutFromQueue]
    split_ifs with hslot
    · cases hgroup : told.groupOf guid with
      | none =>
        have hsame : (told.removeBattlegroundQueueId guid).removePlayerFromQueue guid true =
            told.removeBattlegroundQueueId guid := by
          have hgroup' : (told.removeBattlegroundQueueId guid).groupOf guid = none := hgroup
          rw [removePlayerFromQueue, hgroup']
        rw [hsame, removeBattlegroundQueueId, modifyPlayer_modifyPlayer]
        exact htold.disconnect (groupOf_none hgroup) htransit rfl rfl rfl
      | some group =>
        obtain ⟨hsame, hnot⟩ := htold.ledger_withdraw hgroup
        exact (htold.withdraw hgroup).disconnect hnot (hsame ▸ htransit) rfl rfl rfl
    · refine htold.disconnect (fun hmem => hslot ?_) htransit rfl rfl rfl
      obtain ⟨q, hq, rfl⟩ := mem_map.mp hmem
      have hsome : (told.player q.1).queueSlot = some q.2.1 := (htold.sound.queued q hq).2.1
      rw [hsome]
      exact Option.some_ne_none _
  · exact h

/-- A player who is offline is neither queued nor on the way. -/
theorem Counted.of_offline (hoffline : (s.player guid).connected = false) :
    guid ∉ s.ledger.queued.map Prod.fst ∧ guid ∉ s.transit := by
  constructor
  · intro hmem
    obtain ⟨q, hq, rfl⟩ := mem_map.mp hmem
    exact Bool.noConfusion (hoffline.symm.trans (h.sound.queued q hq).1)
  · exact fun ht => Bool.noConfusion (hoffline.symm.trans (h.sound.transit guid ht).1)

omit h in
theorem isPlayerInBattleground_iff :
    s.bg.isPlayerInBattleground guid = true ↔ guid ∈ s.ledger.inside.map Prod.fst := by
  rw [Battleground.isPlayerInBattleground, Option.isSome_iff_ne_none, ne_eq, find_eq_none_iff, not_not]

/-- **Logging in.** -/
theorem Counted.loginPlayer (guid : Guid) (alive rejoin : Bool) :
    Counted (s.loginPlayer guid alive rejoin) := by
  rw [Match.loginPlayer]
  by_cases hconn : (s.player guid).connected = true
  · rw [if_pos hconn]
    exact h
  · obtain ⟨hqueued, htransit⟩ := h.of_offline (by simpa using hconn)
    have hnone := fun hid : (0 : ℕ) = s.bg.instanceID => h.sound.instanceID hid.symm
    split_ifs with hhere hinside hstatus
    · have hid : (s.player guid).bgInstanceID = s.bg.instanceID :=
        of_decide_eq_true ((Bool.and_eq_true _ _).mp hhere).1
      have hin := isPlayerInBattleground_iff.mp hinside
      have hloggedIn : Counted (s.eventPlayerLoggedIn guid) :=
        h.of_eq ledger_eventPlayerLoggedIn rfl
      have hledger : (s.eventPlayerLoggedIn guid).ledger = s.ledger := ledger_eventPlayerLoggedIn
      refine hloggedIn.modifyPlayer ?_
      rw [hledger]
      refine h.sound.setTicket (fun hq => absurd hq hqueued) (fun ht => absurd ht htransit)
        (fun _ => ⟨hid, rfl, fun _ => congrArg some hid⟩) fun _ _ => Or.inr hin
    · obtain ⟨hq, ht, hid, hi⟩ := @Ledger.leave_lists s.ledger guid
      refine (h.removePlayerAtLeave guid).modifyPlayer ?_
      rw [ledger_removePlayerAtLeave]
      exact (h.sound.leave guid).setTicket_of_notMem (hq ▸ hqueued) (ht ▸ htransit) hi
        fun _ => hid ▸ hnone
    · exact h.modifyPlayer (h.sound.setTicket_of_notMem hqueued htransit
        (fun hi => hinside (isPlayerInBattleground_iff.mpr hi)) fun _ => hnone)
    · refine h.modifyPlayer (h.sound.setTicket_of_notMem hqueued htransit
        (fun hi => hhere (h.isHere_of_inside hi)) fun _ => ?_)
      split_ifs with hrejoin
      · simp only [Bool.and_eq_true, decide_eq_true_eq] at hrejoin
        exact hrejoin.2
      · exact hnone

/-! ### The update -/

theorem Counted.processOfflineQueue (now : ℕ) : Counted (s.processOfflineQueue now) := by
  rw [Match.processOfflineQueue]
  split
  · exact h
  · split
    · exact h
    · split_ifs
      · exact (h.removePlayerAtLeave _).of_eq rfl rfl
      · exact h

theorem Counted.endBattleground (winner : Option Team) : Counted (s.endBattleground winner) :=
  h.of_eq (ledger_endBattleground winner) (queuedGroups_endBattleground winner)

/-- **The update.** An instance that is marked for deletion has nobody left. -/
theorem Counted.update (diff : UInt32) (now : ℕ) (setup : Bool) :
    Counted (s.update diff now setup) := by
  rw [Match.update]
  by_cases hempty : s.bg.players = []
  · split_ifs with hinvited
    · refine ⟨h.sound.delete fun t => ?_, h.listed⟩
      cases t with
      | alliance => exact hinvited.2
      | horde => exact hinvited.1
    · exact h
  · rw [if_neg hempty]
    cases s.bg.status with
    | waitJoin => exact h.of_eq (ledger_processJoin diff setup) (queuedGroups_processJoin diff setup)
    | inProgress =>
      dsimp only
      split_ifs
      · exact (h.processOfflineQueue now).endBattleground none
      · exact (h.processOfflineQueue now).of_eq rfl rfl
    | waitLeave =>
      have hleft : Counted (s.processLeave diff) := by
        rw [processLeave]
        split_ifs
        · refine Counted.foldl_removePlayerAtLeave ?_ _
          exact h.of_eq rfl rfl
        · exact h.of_eq rfl rfl
      exact hleft.of_eq rfl rfl
    | none => exact h.of_eq rfl rfl
    | waitQueue => exact h.of_eq rfl rfl

omit h in
theorem ledger_markKilled (redemption : Bool) :
    (s.markKilled guid redemption).ledger = s.ledger := by
  refine ledger_modifyPlayer_of_eq ?_
  split_ifs <;> rfl

theorem Counted.killPlayer (victim : Guid) (redemption : Bool) :
    Counted (s.killPlayer victim redemption) := by
  have hkilled : Counted (s.markKilled victim redemption) := h.of_eq (ledger_markKilled redemption) rfl
  rw [Match.killPlayer]
  split_ifs
  · exact hkilled.of_eq ledger_handleKillPlayer queuedGroups_handleKillPlayer
  · exact hkilled
  · exact h

/-! ### Joining the queue and being invited -/

end

theorem groups_join {groups : List GroupQueueInfo} {group : GroupQueueInfo} :
    ((groups ++ [group]).flatMap fun g => g.players.map fun p =>
      (p, g.isInvitedToBGInstanceGUID, g.team)) =
      (groups.flatMap fun g => g.players.map fun p => (p, g.isInvitedToBGInstanceGUID, g.team)) ++
        group.players.map fun p => (p, group.isInvitedToBGInstanceGUID, group.team) := by
  rw [flatMap_append, flatMap_cons, flatMap_nil, append_nil]

/-- Changing the tickets of players one after the other. -/
theorem ledger_foldl_modifyPlayer {guids : List Guid} (hnodup : guids.Nodup) :
    (guids.foldl (fun s guid => s.modifyPlayer guid f) s).ledger =
      { s.ledger with
        ticket := fun g => if g ∈ guids then (f (s.player g)).toTicket else s.ledger.ticket g } := by
  induction guids generalizing s with
  | nil => simp
  | cons guid guids ih =>
    obtain ⟨hnot, hnodup⟩ := nodup_cons.mp hnodup
    rw [foldl_cons, ih hnodup, ledger_modifyPlayer, Ledger.setTicket]
    dsimp only
    congr 1
    funext g
    by_cases hg : g = guid
    · subst hg
      rw [if_neg hnot, if_pos mem_cons_self, update_self]
    · rw [player_modifyPlayer_of_ne s hg, update_of_ne hg]
      simp only [mem_cons, hg, false_or]

theorem queuedGroups_foldl_modifyPlayer {guids : List Guid} :
    (guids.foldl (fun s guid => s.modifyPlayer guid f) s).queuedGroups = s.queuedGroups := by
  induction guids generalizing s with
  | nil => rfl
  | cons guid guids ih => exact ih

/-- **Joining the queue.** -/
theorem Counted.addGroup (h : Counted s) (group : GroupQueueInfo) :
    Counted (step s (.addGroup group)) := by
  rw [step]
  split_ifs with hfree
  · obtain ⟨-, hnodup, hfree⟩ := hfree
    have hsound := h.sound.join group.team hnodup hfree
    refine ⟨?_, fun g hg => ?_⟩
    · rw [ledger_foldl_modifyPlayer hnodup]
      have hledger : ({ s with queuedGroups := s.queuedGroups ++ [{ group with
          faction := group.team, isInvitedToBGInstanceGUID := 0, removeInviteTime := 0 }] } :
          Match).ledger = { s.ledger with
            queued := s.ledger.queued ++ group.players.map fun g => (g, 0, group.team) } := by
        rw [ledger, groups_join]
        rfl
      rw [hledger]
      exact hsound
    · rw [queuedGroups_foldl_modifyPlayer] at hg
      rcases mem_append.mp hg with hg | hg
      · exact h.listed g hg
      · obtain rfl := mem_singleton.mp hg
        rfl
  · exact h

/-- One invited player. -/
theorem ledger_invitePlayer {side : Team} {instanceID slot : ℕ}
    (hconn : (s.player guid).connected = true) (hslot : (s.player guid).queueSlot = some slot) :
    (invitePlayer side instanceID s guid).ledger =
      { s.ledger with
        invitedCount :=
          if s.isHere instanceID then
            Function.update s.ledger.invitedCount side (s.ledger.invitedCount side + 1)
          else s.ledger.invitedCount
        ticket := Function.update s.ledger.ticket guid
          { s.ledger.ticket guid with queueSlot := some instanceID } } := by
  rw [invitePlayer, if_pos hconn, ledger_modifyPlayer]
  have hplayer : (if s.isHere instanceID then
      ({ s with bg := s.bg.increaseInvitedCount side } : Match) else s).player = s.player := by
    split_ifs <;> rfl
  rw [hplayer, hslot]
  split_ifs <;> rfl

/-- The loop over the players of an invited group. -/
theorem ledger_invitePlayers {side : Team} {instanceID slot : ℕ} {guids : List Guid}
    (hnodup : guids.Nodup) (hguids : ∀ g ∈ guids, (s.player g).connected = true ∧
      (s.player g).queueSlot = some slot) :
    (guids.foldl (invitePlayer side instanceID) s).ledger =
      { s.ledger with
        invitedCount :=
          if s.isHere instanceID then
            Function.update s.ledger.invitedCount side
              (s.ledger.invitedCount side + UInt32.ofNat guids.length)
          else s.ledger.invitedCount
        ticket := fun g =>
          if g ∈ guids then { s.ledger.ticket g with queueSlot := some instanceID }
          else s.ledger.ticket g } := by
  induction guids generalizing s with
  | nil => simp
  | cons guid guids ih =>
    obtain ⟨hnot, hnodup⟩ := nodup_cons.mp hnodup
    obtain ⟨hconn, hslot⟩ := hguids guid mem_cons_self
    have hone := @ledger_invitePlayer s guid side instanceID slot hconn hslot
    have hticket : ∀ g, g ≠ guid →
        ((invitePlayer side instanceID s guid).player g).toTicket = (s.player g).toTicket := by
      intro g hne
      have hg := congrArg (fun l : Ledger => l.ticket g) hone
      simp only [update_of_ne hne] at hg
      exact hg
    have hrest := @ih (invitePlayer side instanceID s guid) hnodup fun g hg => by
      have hne : g ≠ guid := fun hne => hnot (hne ▸ hg)
      have hsame := hticket g hne
      have hold := hguids g (mem_cons_of_mem _ hg)
      rw [show ((invitePlayer side instanceID s guid).player g).connected = (s.player g).connected
        from congrArg Ticket.connected hsame,
        show ((invitePlayer side instanceID s guid).player g).queueSlot = (s.player g).queueSlot
        from congrArg Ticket.queueSlot hsame]
      exact hold
    have hhere : (invitePlayer side instanceID s guid).isHere instanceID = s.isHere instanceID := by
      have hid := congrArg Ledger.instanceID hone
      have hdel := congrArg Ledger.deleted hone
      simp only [ledger] at hid hdel
      rw [isHere, isHere, hid, hdel]
    rw [foldl_cons, hrest, hhere, hone]
    dsimp only
    congr 1
    · funext g
      by_cases hg : g = guid
      · subst hg
        rw [if_neg hnot, if_pos mem_cons_self, update_self]
      · rw [update_of_ne hg]
        simp only [mem_cons, hg, false_or]
    · split_ifs
      · rw [update_self, update_idem, length_cons, UInt32.ofNat_add,
          UInt32.add_assoc, UInt32.add_comm (UInt32.ofNat guids.length)]
        rfl
      · rfl

theorem queuedGroups_invitePlayers {side : Team} {instanceID : ℕ} {guids : List Guid} :
    (guids.foldl (invitePlayer side instanceID) s).queuedGroups = s.queuedGroups := by
  induction guids generalizing s with
  | nil => rfl
  | cons guid guids ih =>
    refine ih.trans ?_
    rw [invitePlayer]
    split_ifs <;> rfl

section

variable (h : Counted s) {group : GroupQueueInfo} (side : Team) {instanceID now : ℕ}
  (hmem : group ∈ s.queuedGroups)
include h hmem

/-- Marking a group as invited changes the places of its players in the queue. -/
theorem Counted.ledger_markInvited :
    (s.markInvited group side instanceID now).ledger =
      { s.ledger with
        queued := s.ledger.queued.map fun q =>
          if q.1 ∈ group.players then (q.1, instanceID, side) else q } := by
  rw [ledger, markInvited]
  rw [ledger, map_flatMap, flatMap_map]
  congr 1
  refine flatMap_congr fun g hg => ?_
  rw [map_map]
  by_cases hsame : g = group
  · subst hsame
    rw [if_pos rfl]
    refine map_congr_left fun p hp => ?_
    rw [Function.comp_apply, if_pos hp]
  · rw [if_neg hsame]
    refine map_congr_left fun p hp => ?_
    rw [Function.comp_apply, if_neg fun hp' => h.disjoint hg hmem hsame hp hp']

/-- **Being invited.** -/
theorem Counted.inviteGroupToBG (hzero : group.isInvitedToBGInstanceGUID = 0)
    (hlive : instanceID = s.bg.instanceID → s.bg.setDeleteThis = false) :
    Counted (s.inviteGroupToBG group side instanceID now) := by
  have hqueued : ∀ g ∈ group.players, (g, 0, group.team) ∈ s.ledger.queued := fun g hg =>
    mem_queued.mpr ⟨group, hmem, hg, by rw [hzero]⟩
  have hnodup := h.nodup_players hmem
  have hsound : (s.ledger.invite group.players side instanceID).Sound :=
    h.sound.invite hnodup hqueued hlive
  refine ⟨?_, fun g hg => ?_⟩
  · have hledger := @ledger_invitePlayers (s.markInvited group side instanceID now) side instanceID 0
      group.players hnodup fun g hg =>
        ⟨(h.sound.queued _ (hqueued g hg)).1, (h.sound.queued _ (hqueued g hg)).2.1⟩
    rw [Match.inviteGroupToBG, hledger, h.ledger_markInvited side hmem]
    exact hsound
  · rw [Match.inviteGroupToBG, queuedGroups_invitePlayers] at hg
    obtain ⟨g', hg', rfl⟩ := mem_map.mp hg
    split_ifs
    · rfl
    · exact h.listed g' hg'

end

end Match

open Match

section

variable {P : Match → Prop} (h : P s) (hwithdraw : ∀ group, s.groupOf guid = some group →
  P ((s.removeBattlegroundQueueId guid).removePlayerFromQueue guid true))
include h hwithdraw

/-- **Answering an invitation** is accepting it, or giving up the place in the queue, or nothing. -/
theorem step_port (haccept : ∀ group, s.groupOf guid = some group →
    group.isInvitedToBGInstanceGUID ≠ 0 → P (s.acceptInvite guid group)) (accepted : Bool)
    (checks : PortChecks) : P (step s (.port guid accepted checks)) := by
  rw [step]
  split_ifs
  · rw [handleBattleFieldPort]
    by_cases hslot : (s.player guid).queueSlot = none
    · rw [if_pos hslot]
      exact h
    · rw [if_neg hslot]
      cases hgroup : s.groupOf guid with
      | none => exact h
      | some group =>
        dsimp only
        split_ifs with hmissing _ hport
        · exact h
        · exact h
        · exact h
        · refine haccept group hgroup fun hzero => hmissing ?_
          obtain ⟨hport, -⟩ := (Bool.and_eq_true _ _).mp hport
          simp [hport, hzero]
        · exact h
        · exact hwithdraw group hgroup
  · exact h

/-- An invitation that ran out is given up, or nothing happens. -/
theorem step_queueRemove (instanceID removeTime : ℕ) :
    P (step s (.queueRemove guid instanceID removeTime)) := by
  rw [step, queueRemoveEvent]
  by_cases hslot : ((s.player guid).connected && (s.player guid).queueSlot ≠ none) = true
  · rw [if_pos hslot]
    cases hgroup : s.groupOf guid with
    | none => exact h
    | some group =>
      dsimp only
      split_ifs
      · exact hwithdraw group hgroup
      · exact h
  · rw [if_neg hslot]
    exact h

end

/-- **Every event keeps the counters exact.** -/
theorem Match.Counted.step (h : Counted s) (e : Event) : Counted (step s e) := by
  cases e with
  | addGroup group => exact h.addGroup group
  | invite member side instanceID now =>
    rw [Battlegrounds.step]
    cases hgroup : s.groupOf member with
    | none => exact h
    | some group =>
      dsimp only
      split_ifs with hfree
      · obtain ⟨hzero, -, hlive⟩ := hfree
        exact h.inviteGroupToBG side (groupOf_some hgroup).1 hzero fun hid => by
          simpa using hlive hid
      · exact h
  | port guid accepted checks =>
    exact step_port h (fun _ => h.withdraw) (fun _ => h.acceptInvite) accepted checks
  | arrive guid => exact h.arrive guid
  | queueRemove guid instanceID removeTime =>
    exact step_queueRemove h (fun _ => h.withdraw) instanceID removeTime
  | leave guid => exact h.leaveBattleground guid
  | logout guid now => exact h.logoutPlayer guid now
  | login guid alive rejoin => exact h.loginPlayer guid alive rejoin
  | update diff now setup =>
    rw [Battlegrounds.step]
    split_ifs
    · exact h
    · exact h.update diff now setup
  | kill victim redemption => exact h.killPlayer victim redemption
  | revive guid => exact h.of_eq (ledger_modifyPlayer_of_eq rfl) rfl
  | endBattleground winner =>
    rw [Battlegrounds.step]
    split_ifs
    · exact h
    · exact h.endBattleground winner

/-- The invariant along a run. -/
theorem Match.Counted.run (h : Counted s) (events : List Event) : Counted (run s events) :=
  Run.Along.invariant Counted (fun _ e hs _ => hs.step e) h (Run.along_of_forall (fun _ _ => trivial) s events)

/-! ### What the counters count -/

namespace Match

theorem length_queuedHere (t : Team) : (s.queuedHere t).length = s.ledger.queuedCount t := by
  have hgroups : ∀ groups : List GroupQueueInfo,
      ((groups.filter fun g =>
        g.isInvitedToBGInstanceGUID = s.bg.instanceID && g.team = t).flatMap (·.players)).length =
      (groups.flatMap fun g => g.players.map fun p =>
        (p, g.isInvitedToBGInstanceGUID, g.team)).countP fun q =>
          q.2.1 = s.bg.instanceID && q.2.2 = t := by
    intro groups
    induction groups with
    | nil => rfl
    | cons g groups ih =>
      rw [flatMap_cons, countP_append, ← ih, countP_map]
      by_cases hhere : (g.isInvitedToBGInstanceGUID = s.bg.instanceID && g.team = t : Bool) = true
      · rw [filter_cons, if_pos hhere, flatMap_cons, length_append]
        congr 1
        exact (countP_eq_length.mpr fun p _ => hhere).symm
      · rw [filter_cons, if_neg hhere]
        exact (Nat.zero_add _).symm.trans
          (congrArg (· + _) (countP_eq_zero.mpr fun p _ => hhere).symm)
  exact hgroups s.queuedGroups

theorem length_inTransit (t : Team) : (s.inTransit t).length = s.ledger.transitCount t :=
  (countP_eq_length_filter ..).symm

theorem countP_players (t : Team) :
    s.bg.players.countP (fun e => e.team = t) = s.ledger.insideCount t := by
  rw [Ledger.insideCount, ledger, countP_map]
  rfl

/-- A new instance: nobody is inside, on the way or invited, and no player's record names it. The
queue holds connected players, each in one group and with the group's invitation in its slot. -/
structure Fresh (s : Match) : Prop where
  instanceID : s.bg.instanceID ≠ 0
  players : s.bg.players = []
  transit : s.transit = []
  playersCount : ∀ t, s.bg.playersCount t = 0
  invitedCount : ∀ t, s.bg.invitedCount t = 0
  queued_nodup : (s.queuedGroups.flatMap (·.players)).Nodup
  queued : ∀ g ∈ s.queuedGroups, g.faction = g.team ∧
    g.isInvitedToBGInstanceGUID ≠ s.bg.instanceID ∧ ∀ p ∈ g.players,
      (s.player p).connected = true ∧ (s.player p).queueSlot = some g.isInvitedToBGInstanceGUID
  elsewhere : ∀ p, (s.player p).bgInstanceID ≠ s.bg.instanceID

/-- In a new instance the counters are exact. -/
theorem Fresh.counted (h : Fresh s) : Counted s := by
  have hinside : s.ledger.inside = [] := by rw [ledger, h.players]; rfl
  have htransit : s.ledger.transit = [] := h.transit
  have hqueued : ∀ q ∈ s.ledger.queued, q.2.1 ≠ s.bg.instanceID := fun q hq => by
    obtain ⟨g, hg, -, hq⟩ := mem_queued.mp hq
    rw [hq]
    exact (h.queued g hg).2.1
  have hzero : ∀ t, s.ledger.queuedCount t = 0 := fun t =>
    countP_eq_zero.mpr fun q hq => by
      have hne : q.2.1 ≠ s.ledger.instanceID := hqueued q hq
      simp [hne]
  have hcounts : ∀ t, s.ledger.queuedCount t + s.ledger.transitCount t + s.ledger.insideCount t = 0 :=
    fun t => by
      rw [hzero t, Ledger.transitCount, htransit, Ledger.insideCount, hinside]
      rfl
  refine ⟨⟨h.instanceID, ?_, fun q hq => ?_, by rw [htransit]; exact nodup_nil,
    fun g hg => ?_, by rw [hinside]; exact nodup_nil, fun e he => ?_,
    fun g _ hid => absurd hid (h.elsewhere g), fun t => ?_, fun t => ?_,
    fun _ => ⟨htransit, hinside, hqueued⟩⟩, fun g hg => (h.queued g hg).1⟩
  · have hkeys : s.ledger.queued.map Prod.fst = s.queuedGroups.flatMap (·.players) := by
      rw [ledger, map_flatMap]
      congr 1
      funext g
      rw [map_map]
      exact map_id _
    rw [hkeys]
    exact h.queued_nodup
  · obtain ⟨g, hg, hp, hq⟩ := mem_queued.mp hq
    obtain ⟨hconn, hslot⟩ := (h.queued g hg).2.2 q.1 hp
    rw [hq]
    exact ⟨hconn, hslot, h.elsewhere q.1⟩
  · rw [htransit] at hg
    cases hg
  · rw [hinside] at he
    cases he
  · dsimp only
    rw [hcounts t]
    exact h.invitedCount t
  · rw [Ledger.insideCount, hinside]
    exact h.playersCount t

end Match

/-- **The counters are exact** in every state of a run from a new instance: for each side the
invitation counter is the number of players queued on an invitation to it, on the way to it and
inside, the player counter is the number of players inside, and when the instance is marked for
deletion nobody is inside and nobody can still enter. -/
theorem counters_exact (h : Fresh s) (events : List Event) :
    (∀ t, ((run s events).bg.getInvitedCount t).toNat =
        ((run s events).queuedHere t).length + ((run s events).inTransit t).length +
          (run s events).bg.players.countP (fun e => e.team = t)) ∧
      (∀ t, ((run s events).bg.getPlayersCountByTeam t).toNat =
        (run s events).bg.players.countP fun e => e.team = t) ∧
      ((run s events).bg.setDeleteThis = true →
        (run s events).bg.players = [] ∧ ∀ t, (run s events).awaited t = []) := by
  have hcounted := h.counted.run events
  generalize run s events = s' at hcounted
  refine ⟨fun t => ?_, fun t => ?_, fun hdeleted => ?_⟩
  · rw [length_queuedHere, length_inTransit, countP_players]
    exact hcounted.sound.invitedCount_toNat t
  · rw [countP_players]
    exact hcounted.sound.playersCount_toNat t
  · obtain ⟨htransit, hinside, hqueued⟩ := hcounted.sound.deleted hdeleted
    refine ⟨map_eq_nil_iff.mp hinside, fun t => ?_⟩
    have hzero : s'.ledger.queuedCount t = 0 := countP_eq_zero.mpr fun q hq => by
      simp [hqueued q hq]
    have hway : s'.ledger.transitCount t = 0 := by rw [Ledger.transitCount, htransit]; rfl
    rw [awaited, append_eq_nil_iff, ← length_eq_zero_iff, ← length_eq_zero_iff,
      length_queuedHere, length_inTransit]
    exact ⟨hzero, hway⟩

/-! ### An example -/

/-- A battleground with the instance number 7 and a queue with one player. -/
def newInstance : Match where
  bg := {
    instanceID := 7, isArena := false, isRated := false, status := .waitJoin, events := 0
    startDelayTime := 0, elapsedTime := 0, remainingTime := 0, players := []
    playersCount := fun _ => 0, invitedCount := fun _ => 0, offlineQueue := []
    arenaTeamIds := fun _ => 0, setDeleteThis := false }
  queuedGroups := [⟨[⟨1, by decide⟩], .alliance, .alliance, false, 0, 0, 0⟩]
  player _ := ⟨⟨true, .alliance, none, 0, some 0⟩, true, false⟩
  transit := []
  arenaTeams _ := none
  log := []

/-- The player is invited and accepts. -/
def acceptance : List Event :=
  [.invite ⟨1, by decide⟩ .alliance 7 0, .port ⟨1, by decide⟩ true ⟨true, false, false, none⟩]

/-- Between acceptance and arrival a player is counted who is neither queued nor inside. -/
theorem counted_on_the_way :
    ((run newInstance acceptance).bg.getInvitedCount .alliance).toNat = 1 ∧
      (run newInstance acceptance).queuedHere .alliance = [] ∧
      (run newInstance acceptance).bg.players = [] := by decide

/-- The counters of that run. -/
theorem counters_exact_acceptance :
    ((run newInstance acceptance).bg.getInvitedCount .alliance).toNat =
      ((run newInstance acceptance).queuedHere .alliance).length +
        ((run newInstance acceptance).inTransit .alliance).length +
          (run newInstance acceptance).bg.players.countP (fun e => e.team = Team.alliance) :=
  (counters_exact ⟨by decide, rfl, rfl, fun _ => rfl, fun _ => rfl, by decide, by
    intro g hg
    obtain rfl := mem_singleton.mp hg
    exact ⟨rfl, by decide, fun _ _ => ⟨rfl, rfl⟩⟩, fun _ => Nat.zero_ne_add_one 6⟩ acceptance).1 .alliance

end IscServer.Battlegrounds
