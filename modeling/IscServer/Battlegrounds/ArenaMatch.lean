import IscServer.Battlegrounds.ArenaPreparation
import IscServer.Battlegrounds.Scoreboard

/-!
# An Arena Match Is Scored Once

The end of a match can be triggered by a kill, a player who leaves or logs out, the start and the
time limit, and some of these call one another: a logout first runs the hook that asks who has won
and then asks again for itself, and the update may remove a player who was offline for too long and
then find that the time is up. What keeps the match from ending twice is that while it is in
progress both sides have somebody inside who fights (`Playing.alive`). So the hook finds no winner
at a logout or for a player who is offline, and every change that leaves a side without anybody
who fights ends the match at once.

## Main results

* `Playing.removePlayerAtLeave`, `Playing.logoutPlayer`, `Playing.update`, `Playing.killPlayer` —
  the events that can end a match keep the invariant.
* `Playing.step` — so does every event but joining the queue and being invited.
* `match_scored_once` — over a whole match no team and no member is scored twice, one team wins,
  and the match ends once.
-/

namespace IscServer.Battlegrounds

open List

variable {s s' s'' : Match} {guid : Guid} {t : Team} {teams : ℕ → Option ArenaTeam}

namespace Match

/-! ### Undisturbed players -/

/-- Everybody inside is still there and still fights, and nothing else that matters for the end of
the match has changed. -/
structure Undisturbed (s s' : Match) : Prop where
  isArena : s'.bg.isArena = s.bg.isArena
  status : s'.bg.status = s.bg.status
  offlineQueue : s'.bg.offlineQueue = s.bg.offlineQueue
  players : ∀ e ∈ s.bg.players, ∃ e' ∈ s'.bg.players, e'.guid = e.guid ∧ e'.team = e.team
  fights : ∀ e ∈ s.bg.players, s.fights e.guid = true → s'.fights e.guid = true
  connected : ∀ g, (s'.player g).connected = (s.player g).connected

theorem Undisturbed.refl (s : Match) : Undisturbed s s :=
  ⟨rfl, rfl, rfl, fun e he => ⟨e, he, rfl, rfl⟩, fun _ _ => id, fun _ => rfl⟩

theorem Undisturbed.trans (h : Undisturbed s s') (h' : Undisturbed s' s'') : Undisturbed s s'' := by
  refine ⟨h'.isArena.trans h.isArena, h'.status.trans h.status,
    h'.offlineQueue.trans h.offlineQueue, fun e he => ?_, fun e he hfights => ?_,
    fun g => (h'.connected g).trans (h.connected g)⟩
  · obtain ⟨e', he', hguid, hteam⟩ := h.players e he
    obtain ⟨e'', he'', hguid', hteam'⟩ := h'.players e' he'
    exact ⟨e'', he'', hguid'.trans hguid, hteam'.trans hteam⟩
  · obtain ⟨e', he', hguid, -⟩ := h.players e he
    have hfights' := h.fights e he hfights
    rw [← hguid] at hfights' ⊢
    exact h'.fights e' he' hfights'

/-- Players, their places and their entries are as they were. -/
theorem undisturbed_of_eq (hplayer : s'.player = s.player) (htransit : s'.transit = s.transit)
    (hplayers : s'.bg.players = s.bg.players) (harena : s'.bg.isArena = s.bg.isArena)
    (hstatus : s'.bg.status = s.bg.status) (hqueue : s'.bg.offlineQueue = s.bg.offlineQueue) :
    Undisturbed s s' := by
  refine ⟨harena, hstatus, hqueue, fun e he => ⟨e, hplayers ▸ he, rfl, rfl⟩, fun e _ hfights => ?_,
    fun g => by rw [hplayer]⟩
  rwa [fights, findPlayer, hplayer, htransit]

theorem Undisturbed.fightsOn (h : Undisturbed s s') (hfights : s.FightsOn guid t) :
    s'.FightsOn guid t := by
  obtain ⟨e, he, hne, hteam, hfight⟩ := hfights
  obtain ⟨e', he', hguid, hteam'⟩ := h.players e he
  refine ⟨e', he', hguid ▸ hne, hteam'.trans hteam, ?_⟩
  rw [hguid]
  exact h.fights e he hfight

theorem Undisturbed.fighting (h : Undisturbed s s') (hfights : Fighting s t) : Fighting s' t := by
  obtain ⟨e, he, hteam, hfight⟩ := hfights
  obtain ⟨e', he', hguid, hteam'⟩ := h.players e he
  refine ⟨e', he', hteam'.trans hteam, ?_⟩
  rw [hguid]
  exact h.fights e he hfight

/-- A change of a player object that leaves its connection alone and does not stop it from
fighting, or of a player who is not inside. -/
theorem undisturbed_modifyPlayer {f : Player → Player}
    (hconn : (f (s.player guid)).connected = (s.player guid).connected)
    (hfights : guid ∈ s.bg.players.map (·.guid) → (s.player guid).alive = true →
      (s.player guid).spiritOfRedemption = false → (f (s.player guid)).alive = true ∧
        (f (s.player guid)).spiritOfRedemption = false) :
    Undisturbed s (s.modifyPlayer guid f) := by
  refine ⟨rfl, rfl, rfl, fun e he => ⟨e, he, rfl, rfl⟩, fun e he hfight => ?_, fun g => ?_⟩
  · by_cases hguid : e.guid = guid
    · subst hguid
      rw [fights, findPlayer] at hfight ⊢
      rw [player_modifyPlayer_self, hconn, transit_modifyPlayer]
      simp only [Bool.and_eq_true, Bool.not_eq_true'] at hfight ⊢
      exact ⟨⟨hfight.1.1, (hfights (mem_map_of_mem he) hfight.1.2 hfight.2).1⟩,
        (hfights (mem_map_of_mem he) hfight.1.2 hfight.2).2⟩
    · rw [fights, findPlayer] at hfight ⊢
      rwa [player_modifyPlayer_of_ne s hguid, transit_modifyPlayer]
  · by_cases hguid : g = guid
    · subst hguid
      rw [player_modifyPlayer_self, hconn]
    · rw [player_modifyPlayer_of_ne s hguid]

theorem undisturbed_removeBattlegroundQueueId : Undisturbed s (s.removeBattlegroundQueueId guid) :=
  undisturbed_modifyPlayer rfl fun _ halive hspirit => ⟨halive, hspirit⟩

theorem undisturbed_dropFromGroup : Undisturbed s (s.dropFromGroup guid) :=
  undisturbed_of_eq rfl rfl rfl rfl rfl rfl

theorem undisturbed_removeRest (guids : List Guid) : Undisturbed s (s.removeRest guids) := by
  induction guids generalizing s with
  | nil => exact Undisturbed.refl s
  | cons g guids ih =>
    refine Undisturbed.trans ?_ ih
    dsimp only
    split_ifs
    · exact undisturbed_removeBattlegroundQueueId.trans undisturbed_dropFromGroup
    · exact undisturbed_dropFromGroup

/-- The queue leaves those inside alone. -/
theorem undisturbed_removePlayerFromQueue (decrease : Bool) :
    Undisturbed s (s.removePlayerFromQueue guid decrease) := by
  rw [removePlayerFromQueue]
  cases s.groupOf guid with
  | none => exact Undisturbed.refl s
  | some group =>
    have htaken : Undisturbed s ((s.dropFromGroup guid).takeInvitationBack group decrease) := by
      rw [takeInvitationBack]
      split_ifs <;> exact undisturbed_of_eq rfl rfl rfl rfl rfl rfl
    have hscored : Undisturbed s (((s.dropFromGroup guid).takeInvitationBack group
        decrease).scoreAbsent guid group decrease) := by
      refine htaken.trans ?_
      rw [scoreAbsent]
      split_ifs <;> exact undisturbed_of_eq rfl rfl rfl rfl rfl rfl
    dsimp only
    split_ifs
    · exact Undisturbed.refl s
    · exact hscored.trans (undisturbed_removeRest _)
    · exact hscored

theorem undisturbed_withdraw :
    Undisturbed s ((s.removeBattlegroundQueueId guid).removePlayerFromQueue guid true) :=
  undisturbed_removeBattlegroundQueueId.trans (undisturbed_removePlayerFromQueue true)

/-- Somebody who is not inside sets out. -/
theorem undisturbed_transit (hnot : guid ∉ s.bg.players.map (·.guid)) :
    Undisturbed s { s with transit := guid :: s.transit } := by
  refine ⟨rfl, rfl, rfl, fun e he => ⟨e, he, rfl, rfl⟩, fun e he hfight => ?_, fun _ => rfl⟩
  have hne : e.guid ≠ guid := fun heq => hnot (heq ▸ mem_map_of_mem he)
  rw [fights, findPlayer] at hfight ⊢
  simpa [hne] using hfight

theorem undisturbed_arrive (hcounted : Counted s) : Undisturbed s (s.arrive guid) := by
  rw [arrive]
  split_ifs with htransit
  · have harrived : Undisturbed s { s with transit := s.transit.filter fun p => !(p = guid) } := by
      refine ⟨rfl, rfl, rfl, fun e he => ⟨e, he, rfl, rfl⟩, fun e he hfight => ?_, fun _ => rfl⟩
      rw [fights, findPlayer] at hfight ⊢
      simp only [Bool.and_eq_true, Bool.not_eq_true', decide_eq_false_iff_not] at hfight ⊢
      exact ⟨⟨⟨hfight.1.1.1, fun hmem => hfight.1.1.2 (mem_filter.mp hmem).1⟩, hfight.1.2⟩,
        hfight.2⟩
    have hnew : guid ∉ s.bg.players.map (·.guid) := fun hmem =>
      hcounted.apart.apart guid hmem (mem_append_right _ htransit)
    have hfind : s.bg.find guid = none := Keyed.find_eq_none_iff.mpr fun e he heq =>
      hnew (mem_map.mpr ⟨e, he, heq⟩)
    dsimp only
    split_ifs
    · refine harrived.trans ⟨?_, ?_, ?_, fun e he => ⟨e, ?_, rfl, rfl⟩, fun _ _ => id, fun _ => rfl⟩
      · rw [addPlayer, Battleground.enterPlayer]
        split_ifs <;> rfl
      · rw [addPlayer, Battleground.enterPlayer]
        split_ifs <;> rfl
      · rw [addPlayer, Battleground.enterPlayer]
        split_ifs <;> rfl
      · have hkept : e ∈ Keyed.assign BattlegroundPlayer.guid s.bg.players
            ⟨guid, (s.player guid).getBGTeam, 0⟩ := by
          refine mem_append_left _ (mem_filter.mpr ⟨he, ?_⟩)
          simpa using Keyed.find_eq_none_iff.mp hfind e he
        rw [addPlayer, Battleground.enterPlayer]
        split_ifs <;> exact hkept
    · exact harrived
  · exact Undisturbed.refl s

/-! ### The invariant -/

/-- An arena match: the counters are exact, nobody is scored twice, while the match is in progress
both sides fight, and until it is over the offline queue holds players inside who are offline. -/
structure Playing (teams : ℕ → Option ArenaTeam) (s : Match) : Prop where
  counted : Counted s
  isArena : s.bg.isArena = true
  once : Once teams s
  alive : s.bg.status = .inProgress → ∀ t, Fighting s t
  queue_nodup : s.bg.status ≠ .waitLeave → s.bg.offlineQueue.Nodup
  offline : s.bg.status ≠ .waitLeave → ∀ g ∈ s.bg.offlineQueue,
    (s.player g).connected = false ∧ g ∈ s.bg.players.map (·.guid)

/-- Whoever waits in the offline queue still does, is inside and as connected as before. -/
theorem Undisturbed.offline (h : Undisturbed s s') {C : Guid → Bool → Prop}
    (hoffline : s.bg.status ≠ .waitLeave → ∀ g ∈ s.bg.offlineQueue,
      C g (s.player g).connected ∧ g ∈ s.bg.players.map (·.guid)) :
    s'.bg.status ≠ .waitLeave → ∀ g ∈ s'.bg.offlineQueue,
      C g (s'.player g).connected ∧ g ∈ s'.bg.players.map (·.guid) := by
  intro hstatus g hg
  rw [h.offlineQueue] at hg
  obtain ⟨hconn, hmem⟩ := hoffline (h.status ▸ hstatus) g hg
  obtain ⟨e, he, rfl⟩ := mem_map.mp hmem
  obtain ⟨e', he', hguid, -⟩ := h.players e he
  exact ⟨(h.connected _).symm ▸ hconn, mem_map.mpr ⟨e', he', hguid⟩⟩

/-- Events that leave the players inside undisturbed. -/
theorem Playing.of_undisturbed (h : Playing teams s) (hcounted : Counted s') (honce : Once teams s')
    (hsame : Undisturbed s s') : Playing teams s' := by
  refine ⟨hcounted, hsame.isArena.trans h.isArena, honce, fun hstatus t => ?_, fun hstatus => ?_,
    hsame.offline (C := fun _ connected => connected = false) h.offline⟩
  · exact hsame.fighting (h.alive (hsame.status ▸ hstatus) t)
  · rw [hsame.offlineQueue]
    exact h.queue_nodup (hsame.status ▸ hstatus)

/-- Once the match is over only the score matters. -/
theorem playing_of_over (hcounted : Counted s) (harena : s.bg.isArena = true) (honce : Once teams s)
    (hover : s.bg.status = .waitLeave) : Playing teams s :=
  ⟨hcounted, harena, honce, fun h => (nomatch hover.symm.trans h), fun h => absurd hover h,
    fun h => absurd hover h⟩

/-! ### The queue -/

variable {group : GroupQueueInfo}

section

variable (h : Playing teams s)
include h

theorem Playing.withdraw (hgroup : s.groupOf guid = some group) :
    Playing teams ((s.removeBattlegroundQueueId guid).removePlayerFromQueue guid true) := by
  refine h.of_undisturbed (h.counted.withdraw hgroup) ?_ undisturbed_withdraw
  have honce : Once teams (s.removeBattlegroundQueueId guid) := h.once
  exact honce.removePlayerFromQueue true fun _ hgroup => h.counted.notMem_of_groupOf hgroup

/-- Accepting takes nobody off the way to the match. -/
theorem Playing.acceptInvite (hgroup : s.groupOf guid = some group)
    (hinvited : group.isInvitedToBGInstanceGUID ≠ 0) :
    Playing teams (s.acceptInvite guid group) := by
  obtain ⟨hmem, hguid, -⟩ := groupOf_some hgroup
  obtain ⟨-, hinside⟩ := h.counted.notMem_of_groupOf hgroup
  have hway : guid ∈ s.way := mem_append_left _ (mem_flatMap.mpr ⟨group, hmem, hguid⟩)
  have hleft : Undisturbed s (((s.modifyPlayer guid fun p => { p with alive := true }).dropFromGroup
      guid).modifyPlayer guid fun p =>
        { p with bgInstanceID := group.isInvitedToBGInstanceGUID, bgTeam := some group.team }) :=
    ((undisturbed_modifyPlayer rfl fun hmem => absurd hmem hinside).trans
      undisturbed_dropFromGroup).trans (undisturbed_modifyPlayer rfl fun hmem => absurd hmem hinside)
  have hcounted := h.counted.acceptInvite hgroup hinvited
  rw [h.counted.acceptInvite_eq hgroup hinvited] at hcounted ⊢
  dsimp only at hcounted ⊢
  split_ifs at hcounted ⊢
  · refine h.of_undisturbed hcounted ?_ (hleft.trans (undisturbed_transit hinside))
    refine Scoreboard.Sound.mono h.once rfl rfl id (fun g hg => ?_) fun _ g hg => Or.inl hg
    rcases mem_append.mp hg with hg | hg
    · exact (mem_way_dropFromGroup (s := s) (mem_append_left _ hg)).1
    · obtain rfl | hg := mem_cons.mp hg
      · exact hway
      · exact mem_append_right _ hg
  · refine h.of_undisturbed hcounted ?_ hleft
    exact Scoreboard.Sound.mono h.once rfl rfl id (fun g hg => (mem_way_dropFromGroup (s := s) hg).1)
      fun _ g hg => Or.inl hg

theorem Playing.arrive (guid : Guid) : Playing teams (s.arrive guid) := by
  refine h.of_undisturbed (h.counted.arrive guid) ?_ (undisturbed_arrive h.counted)
  rw [Match.arrive]
  split_ifs with htransit
  · have hway : ∀ g, g ∈ s.queuedGroups.flatMap (·.players) ++
        s.transit.filter (fun p => !(p = guid)) → g ∈ s.way := fun g hg =>
      (mem_append.mp hg).elim (mem_append_left _) fun hg =>
        mem_append_right _ (mem_filter.mp hg).1
    dsimp only
    split_ifs
    · refine Scoreboard.Sound.mono h.once rfl rfl (fun hover => ?_) hway fun _ g hg => ?_
      · revert hover
        rw [addPlayer, Battleground.enterPlayer]
        split_ifs <;> exact id
      · have hassign : g ∈ (Keyed.assign BattlegroundPlayer.guid s.bg.players
            ⟨guid, (s.player guid).getBGTeam, 0⟩).map (·.guid) := by
          revert hg
          rw [addPlayer, Battleground.enterPlayer]
          split_ifs <;> exact id
        obtain ⟨e, he, rfl⟩ := mem_map.mp hassign
        obtain rfl | ⟨he, -⟩ := Keyed.mem_assign_iff.mp he
        · exact Or.inr (mem_append_right _ htransit)
        · exact Or.inl (mem_map_of_mem he)
    · exact Scoreboard.Sound.mono h.once rfl rfl id hway fun _ g hg => Or.inl hg
  · exact h.once

end

/-! ### Leaving -/

/-- A player left, and the match goes on. -/
structure Departs (s : Match) (guid : Guid) (s' : Match) : Prop where
  status : s'.bg.status = s.bg.status
  offlineQueue : s'.bg.offlineQueue = s.bg.offlineQueue
  players : s'.bg.players = s.bg.players.filter fun e => !(e.guid = guid)
  fights : ∀ g, g ≠ guid → s'.fights g = s.fights g
  connected : ∀ g, (s'.player g).connected = (s.player g).connected

theorem departs_departed : Departs s guid (s.departed guid) := by
  obtain ⟨player, heq, hticket, -⟩ := departed_eq s guid
  refine ⟨status_departed, ?_, players_departed, fun g hne => fights_departed hne, fun g => ?_⟩
  · obtain ⟨players, counts, hb⟩ := erasePlayer_eq s.bg guid
    rw [heq, hb]
  · rw [heq]
    exact congrArg Ticket.connected (hticket g)

/-- Forgetting a player does not change whether somebody fights. -/
theorem forgetPlayer_same (s : Match) (guid : Guid) (entry : Option BattlegroundPlayer) :
    (s.forgetPlayer guid entry).bg.offlineQueue = s.bg.offlineQueue ∧
      (s.forgetPlayer guid entry).bg.players = s.bg.players ∧
      (s.forgetPlayer guid entry).transit = s.transit ∧
      ∀ g, ((s.forgetPlayer guid entry).player g).connected = (s.player g).connected ∧
        ((s.forgetPlayer guid entry).player g).alive = (s.player g).alive ∧
        ((s.forgetPlayer guid entry).player g).spiritOfRedemption =
          (s.player g).spiritOfRedemption := by
  have hmodify : ∀ (t : Match) (f : Player → Player), (∀ p, (f p).connected = p.connected ∧
      (f p).alive = p.alive ∧ (f p).spiritOfRedemption = p.spiritOfRedemption) → ∀ g,
        ((t.modifyPlayer guid f).player g).connected = (t.player g).connected ∧
          ((t.modifyPlayer guid f).player g).alive = (t.player g).alive ∧
          ((t.modifyPlayer guid f).player g).spiritOfRedemption =
            (t.player g).spiritOfRedemption := by
    intro t f hf g
    by_cases hg : g = guid
    · subst hg
      rw [player_modifyPlayer_self]
      exact hf _
    · rw [player_modifyPlayer_of_ne t hg]
      exact ⟨rfl, rfl, rfl⟩
  cases entry with
  | none =>
    unfold forgetPlayer
    dsimp only
    split_ifs
    · exact ⟨rfl, rfl, rfl, hmodify s _ fun _ => ⟨rfl, rfl, rfl⟩⟩
    · exact ⟨rfl, rfl, rfl, fun _ => ⟨rfl, rfl, rfl⟩⟩
  | some entry =>
    unfold forgetPlayer
    dsimp only
    split_ifs
    · refine ⟨rfl, rfl, rfl, fun g => ?_⟩
      obtain ⟨hconn, halive, hspirit⟩ := hmodify s (fun p => { p with queueSlot := none })
        (fun _ => ⟨rfl, rfl, rfl⟩) g
      rw [← hconn, ← halive, ← hspirit]
      exact hmodify _ (fun p => { p with bgInstanceID := 0, bgTeam := none })
        (fun _ => ⟨rfl, rfl, rfl⟩) g
    · exact ⟨rfl, rfl, rfl, fun _ => ⟨rfl, rfl, rfl⟩⟩

theorem Departs.forgetPlayer (h : Departs s guid s') (entry : Option BattlegroundPlayer) :
    Departs s guid (s'.forgetPlayer guid entry) := by
  obtain ⟨hqueue, hplayers, htransit, hplayer⟩ := forgetPlayer_same s' guid entry
  refine ⟨(status_forgetPlayer entry).trans h.status, hqueue.trans h.offlineQueue,
    hplayers.trans h.players, fun g hne => ?_, fun g => (hplayer g).1.trans (h.connected g)⟩
  rw [← h.fights g hne]
  simp only [Match.fights, findPlayer, (hplayer g).1, (hplayer g).2.1, (hplayer g).2.2, htransit]

theorem Departs.fighting_iff (h : Departs s guid s') : Fighting s' t ↔ s.FightsOn guid t := by
  refine exists_congr fun e => ?_
  rw [h.players, mem_filter, and_assoc]
  refine and_congr_right fun _ => ?_
  simp only [Bool.not_eq_true', decide_eq_false_iff_not]
  refine and_congr_right fun hne => ?_
  rw [h.fights e.guid hne]

/-- When both sides fight, somebody remains whoever leaves. -/
theorem Playing.remains (h : Playing teams s) (hstatus : s.bg.status = .inProgress) (guid : Guid) :
    ∃ t, s.Remains guid t := by
  obtain ⟨e, he, hteam, -⟩ := h.alive hstatus .alliance
  obtain ⟨e', he', hteam', -⟩ := h.alive hstatus .horde
  by_cases hguid : e.guid = guid
  · refine ⟨.horde, e', he', fun hguid' => ?_, hteam'⟩
    have heq : e = e' := Keyed.eq_of_key h.counted.apart.nodup he he' (hguid.trans hguid'.symm)
    rw [heq, hteam'] at hteam
    cases hteam
  · exact ⟨.alliance, e, he, hguid, hteam⟩

theorem Counted.scoreLeaver (h : Counted s) (guid : Guid) : Counted (s.scoreLeaver guid) := by
  refine h.of_eq ledger_scoreLeaver ?_
  obtain ⟨teams, log, heq⟩ := scoreLeaver_eq s guid
  rw [heq]

/-- Leaving ends the match, or the match goes on and, if it is in progress, both sides fight. -/
theorem Playing.removePlayerAtLeave_cases (h : Playing teams s) (guid : Guid) :
    (s.removePlayerAtLeave guid).bg.status = .waitLeave ∨
      (Departs s guid (s.removePlayerAtLeave guid) ∧
        (s.bg.status = .inProgress → ∀ t, s.FightsOn guid t)) := by
  obtain ⟨teams', log, hscore⟩ := scoreLeaver_eq s guid
  have hdeparts : Departs s guid ((s.scoreLeaver guid).departed guid) := by
    rw [hscore]
    have hsame := @departs_departed { s with arenaTeams := teams', log := log } guid
    exact ⟨hsame.status, hsame.offlineQueue, hsame.players, hsame.fights, hsame.connected⟩
  rw [removePlayerAtLeave_eq]
  obtain heq | ⟨winner, heq⟩ := @removePlayer_eq_or ((s.scoreLeaver guid).departed guid)
  · rw [heq]
    refine Or.inr ⟨hdeparts.forgetPlayer _, fun hstatus t => ?_⟩
    have hcount := fun t => @Counted.getPlayersCountByTeam_departed _ guid t
      (h.counted.scoreLeaver guid)
    have hfight := fun t => (@Departs.fighting_iff _ _ _ t hdeparts)
    have hpresent : ∀ t, Present ((s.scoreLeaver guid).departed guid) t ↔ s.Remains guid t := by
      intro t
      rw [present_departed_iff, hscore]
      exact Iff.rfl
    have hasked : ((s.scoreLeaver guid).departed guid).checkWinConditions =
        (s.scoreLeaver guid).departed guid := by
      rw [Match.removePlayer, if_pos (by simp [h.isArena, hstatus])] at heq
      exact heq
    have hstays : ((s.scoreLeaver guid).departed guid).bg.status ≠ .waitLeave := by
      simp [hstatus]
    obtain ⟨-, -, hended⟩ | ⟨-, -, -, hended⟩ | ⟨hhorde, halliance, -⟩ :=
      checkWinConditions_cases hcount
    · exact absurd (by rw [← hasked, hended, status_endBattleground]) hstays
    · exact absurd (by rw [← hasked, hended, status_endBattleground]) hstays
    · simp only [hpresent, hfight] at hhorde halliance
      have hof : ∀ t, s.FightsOn guid t → s.Remains guid t := by
        rintro t ⟨e, he, hne, hteam, -⟩
        exact ⟨e, he, hne, hteam⟩
      obtain ⟨side, hside⟩ := h.remains hstatus guid
      cases side with
      | alliance =>
        have hother := halliance hside
        cases t with
        | alliance => exact hhorde (hof _ hother)
        | horde => exact hother
      | horde =>
        have hother := hhorde hside
        cases t with
        | alliance => exact hother
        | horde => exact halliance (hof _ hother)
  · rw [heq, status_forgetPlayer, status_endBattleground]
    exact Or.inl rfl

variable {queue : List Guid}

/-- **Leaving** keeps the invariant; the offline queue may lose the player with it. -/
theorem Playing.removePlayerAtLeave_with (h : Playing teams s) (guid : Guid)
    (hnodup : s.bg.status ≠ .waitLeave → queue.Nodup)
    (hsub : s.bg.status ≠ .waitLeave → ∀ g ∈ queue, g ∈ s.bg.offlineQueue ∧ g ≠ guid) :
    Playing teams { s.removePlayerAtLeave guid with
      bg := { (s.removePlayerAtLeave guid).bg with offlineQueue := queue } } := by
  have hcounted := h.counted.removePlayerAtLeave guid
  have honce : Once teams (s.removePlayerAtLeave guid) := h.once.removePlayerAtLeave h.counted.apart
  have harena : (s.removePlayerAtLeave guid).bg.isArena = true :=
    isArena_removePlayerAtLeave.trans h.isArena
  obtain hover | ⟨hdeparts, hfights⟩ := h.removePlayerAtLeave_cases guid
  · exact playing_of_over (hcounted.of_eq rfl rfl) harena honce hover
  · refine ⟨hcounted.of_eq rfl rfl, harena, honce, fun hstatus t => ?_,
      fun hstatus => hnodup (hdeparts.status ▸ hstatus), fun hstatus g hg => ?_⟩
    · exact hdeparts.fighting_iff.mpr (hfights (hdeparts.status ▸ hstatus) t)
    · have hnot : s.bg.status ≠ .waitLeave := hdeparts.status ▸ hstatus
      obtain ⟨hmem, hne⟩ := hsub hnot g hg
      obtain ⟨hconn, hin⟩ := h.offline hnot g hmem
      obtain ⟨e, he, rfl⟩ := mem_map.mp hin
      refine ⟨(hdeparts.connected _).trans hconn, mem_map.mpr ⟨e, ?_, rfl⟩⟩
      show e ∈ (s.removePlayerAtLeave guid).bg.players
      rw [hdeparts.players]
      exact mem_filter.mpr ⟨he, by simpa using hne⟩

theorem Playing.removePlayerAtLeave (h : Playing teams s) {guid : Guid}
    (hnot : s.bg.status ≠ .waitLeave → guid ∉ s.bg.offlineQueue) :
    Playing teams (s.removePlayerAtLeave guid) := by
  obtain hover | ⟨hdeparts, -⟩ := h.removePlayerAtLeave_cases guid
  · exact playing_of_over (h.counted.removePlayerAtLeave guid)
      (isArena_removePlayerAtLeave.trans h.isArena)
      (h.once.removePlayerAtLeave h.counted.apart) hover
  · have hleft := h.removePlayerAtLeave_with guid h.queue_nodup fun hstatus g hg =>
      ⟨hg, fun heq => hnot hstatus (heq ▸ hg)⟩
    rwa [← hdeparts.offlineQueue] at hleft

theorem Playing.leaveBattleground (h : Playing teams s) (guid : Guid) :
    Playing teams (s.leaveBattleground guid) := by
  have hcounted := h.counted.leaveBattleground guid
  rw [Match.leaveBattleground] at hcounted ⊢
  split_ifs at hcounted ⊢ with hfound
  · refine h.removePlayerAtLeave fun hstatus hmem => ?_
    obtain ⟨hfind, -⟩ := (Bool.and_eq_true _ _).mp hfound
    exact Bool.noConfusion ((h.offline hstatus guid hmem).1.symm.trans
      ((Bool.and_eq_true _ _).mp hfind).1)
  · exact h.of_undisturbed hcounted h.once
      (undisturbed_modifyPlayer rfl fun _ halive hspirit => ⟨halive, hspirit⟩)
  · exact h

/-! ### Logging out -/

/-- The invariant while a player is logging out: it still is connected, but both sides fight
without it, and it may be in the offline queue already. -/
structure LoggingOut (teams : ℕ → Option ArenaTeam) (guid : Guid) (s : Match) : Prop where
  isArena : s.bg.isArena = true
  once : Once teams s
  alive : s.bg.status = .inProgress → ∀ t, s.FightsOn guid t
  queue_nodup : s.bg.status ≠ .waitLeave → s.bg.offlineQueue.Nodup
  offline : s.bg.status ≠ .waitLeave → ∀ g ∈ s.bg.offlineQueue,
    (g ≠ guid → (s.player g).connected = false) ∧ g ∈ s.bg.players.map (·.guid)

/-- Once the match is over only the score matters. -/
theorem loggingOut_of_over (harena : s.bg.isArena = true) (honce : Once teams s)
    (hover : s.bg.status = .waitLeave) : LoggingOut teams guid s :=
  ⟨harena, honce, fun h => (nomatch hover.symm.trans h), fun h => absurd hover h,
    fun h => absurd hover h⟩

/-- A player who is not inside. -/
theorem Playing.loggingOut (h : Playing teams s) (hnot : guid ∉ s.bg.players.map (·.guid)) :
    LoggingOut teams guid s := by
  refine ⟨h.isArena, h.once, fun hstatus t => ?_, h.queue_nodup, fun hstatus g hg => ?_⟩
  · obtain ⟨e, he, hteam, hfight⟩ := h.alive hstatus t
    exact ⟨e, he, fun heq => hnot (heq ▸ mem_map_of_mem he), hteam, hfight⟩
  · obtain ⟨hconn, hin⟩ := h.offline hstatus g hg
    exact ⟨fun _ => hconn, hin⟩

theorem LoggingOut.of_undisturbed (h : LoggingOut teams guid s) (honce : Once teams s')
    (hsame : Undisturbed s s') : LoggingOut teams guid s' := by
  refine ⟨hsame.isArena.trans h.isArena, honce, fun hstatus t => ?_, fun hstatus => ?_,
    hsame.offline (C := fun g connected => g ≠ guid → connected = false) h.offline⟩
  · exact hsame.fightsOn (h.alive (hsame.status ▸ hstatus) t)
  · rw [hsame.offlineQueue]
    exact h.queue_nodup (hsame.status ▸ hstatus)

/-- At the end the player is not connected any more. -/
theorem LoggingOut.disconnect (h : LoggingOut teams guid s)
    (hcounted : Counted (s.modifyPlayer guid fun p => { p with connected := false })) :
    Playing teams (s.modifyPlayer guid fun p => { p with connected := false }) := by
  refine ⟨hcounted, h.isArena, h.once, fun hstatus t => ?_, h.queue_nodup, fun hstatus g hg => ?_⟩
  · obtain ⟨e, he, hne, hteam, hfight⟩ := h.alive hstatus t
    refine ⟨e, he, hteam, ?_⟩
    rw [fights, findPlayer, player_modifyPlayer_of_ne s hne, transit_modifyPlayer]
    exact hfight
  · obtain ⟨hconn, hin⟩ := h.offline hstatus g hg
    refine ⟨?_, hin⟩
    by_cases hguid : g = guid
    · subst hguid
      rw [player_modifyPlayer_self]
    · rw [player_modifyPlayer_of_ne s hguid]
      exact hconn hguid

/-- When two of a side fight, one of them is somebody else. -/
theorem fightsOn_of_one_lt (hnodup : (s.bg.players.map (·.guid)).Nodup)
    (hlt : 1 < s.getAlivePlayersCountByTeam t) (guid : Guid) : s.FightsOn guid t := by
  have hrest : 0 < (s.bg.players.filter fun e => !(e.guid = guid)).countP fun e =>
      e.team = t && (s.findPlayer e.guid && (s.player e.guid).alive &&
        !(s.player e.guid).spiritOfRedemption) := by
    rw [getAlivePlayersCountByTeam] at hlt
    by_cases hin : ∃ e ∈ s.bg.players, e.guid = guid
    · obtain ⟨e, he, rfl⟩ := hin
      rw [(@Keyed.countP_filter_add _ _ BattlegroundPlayer.guid) hnodup he] at hlt
      split_ifs at hlt <;> omega
    · rw [filter_eq_self.mpr fun e he => by simpa using fun heq => hin ⟨e, he, heq⟩]
      omega
  obtain ⟨e, he, hfights⟩ := countP_pos_iff.mp hrest
  obtain ⟨he, hne⟩ := mem_filter.mp he
  obtain ⟨hteam, hfights⟩ := (Bool.and_eq_true _ _).mp hfights
  exact ⟨e, he, by simpa using hne, of_decide_eq_true hteam, hfights⟩

/-- The player who logs out is put into the offline queue. -/
theorem Playing.enqueue (h : Playing teams s) {guid : Guid} {time : ℕ} {out : Match}
    (hout : out = { s with bg := { s.bg.setOfflineRemoveTime guid time with
      offlineQueue := queue } }) :
    Counted out ∧ Once teams out ∧ out.bg.isArena = true ∧ out.bg.status = s.bg.status ∧
      (out.bg.status = .inProgress → ∀ t, Fighting out t) ∧
        out.bg.players.map (·.guid) = s.bg.players.map (·.guid) := by
  have hkeys : (s.bg.setOfflineRemoveTime guid time).players.map (·.guid) =
      s.bg.players.map (·.guid) := by
    have hpairs := congrArg (List.map Prod.fst) ((@map_setOfflineRemoveTime guid) s.bg time)
    rw [map_map, map_map] at hpairs
    exact hpairs
  have hledger : out.ledger = s.ledger := by
    rw [hout]
    simp only [ledger, map_setOfflineRemoveTime]
    rfl
  refine ⟨h.counted.of_eq hledger (by rw [hout]), ?_, by rw [hout]; exact h.isArena, by rw [hout]; rfl,
    fun hstatus t => ?_, by rw [hout]; exact hkeys⟩
  · rw [hout]
    refine Scoreboard.Sound.mono h.once rfl rfl id (fun _ => id) fun _ g hg => Or.inl ?_
    exact (congrArg (g ∈ ·) hkeys).mp hg
  · rw [hout] at hstatus ⊢
    obtain ⟨e, he, hteam, hfight⟩ := h.alive hstatus t
    refine ⟨if e.guid = guid then { e with offlineRemoveTime := time } else e,
      mem_map.mpr ⟨e, he, rfl⟩, ?_, ?_⟩
    · split_ifs <;> exact hteam
    · split_ifs <;> exact hfight

/-- Between the two questions who has won, a logout finds no winner in the first one. -/
theorem removePlayer_of_fighting (hcounted : Counted s) (hfights : ∀ t, Fighting s t) :
    s.removePlayer = s := by
  rw [removePlayer]
  split_ifs
  · obtain ⟨hnot, -⟩ | ⟨-, hnot, -⟩ | ⟨-, -, heq⟩ :=
      checkWinConditions_cases fun t => hcounted.getPlayersCountByTeam_ne_zero_iff (t := t)
    · exact absurd (hfights _) hnot
    · exact absurd (hfights _) hnot
    · exact heq
  · rfl

/-- **A player who is inside logs out**: the match ends, or both sides fight without it. -/
theorem Playing.eventPlayerLoggedOut (h : Playing teams s)
    (hconn : (s.player guid).connected = true) (now : ℕ) : LoggingOut teams guid (s.eventPlayerLoggedOut guid now) := by
  rw [Match.eventPlayerLoggedOut]
  by_cases hinside : s.bg.isPlayerInBattleground guid = true
  · have hmem : guid ∈ s.bg.players.map (·.guid) :=
      keys_inside ▸ isPlayerInBattleground_iff.mp hinside
    rw [if_pos hinside]
    generalize hout : ({ s with bg := { s.bg.setOfflineRemoveTime guid (now + maxOfflineTime) with
      offlineQueue := s.bg.offlineQueue ++ [guid] } } : Match) = out
    obtain ⟨hcounted, honce, harena, hsame, hfights, hkeys⟩ := h.enqueue hout.symm
    have hnodup : out.bg.status ≠ .waitLeave → out.bg.offlineQueue.Nodup := by
      intro hstatus
      rw [← hout]
      refine List.Nodup.append (h.queue_nodup (hsame ▸ hstatus)) (nodup_singleton _) ?_
      intro g hg hguid
      obtain rfl := mem_singleton.mp hguid
      exact Bool.noConfusion ((h.offline (hsame ▸ hstatus) g hg).1.symm.trans hconn)
    have hoffline : out.bg.status ≠ .waitLeave → ∀ g ∈ out.bg.offlineQueue,
        (g ≠ guid → (out.player g).connected = false) ∧ g ∈ out.bg.players.map (·.guid) := by
      intro hstatus g hg
      rw [hkeys]
      rw [← hout] at hg ⊢
      rcases mem_append.mp hg with hg | hg
      · obtain ⟨hoff, hin⟩ := h.offline (hsame ▸ hstatus) g hg
        exact ⟨fun _ => hoff, hin⟩
      · obtain rfl := mem_singleton.mp hg
        exact ⟨fun hne => absurd rfl hne, hmem⟩
    dsimp only
    by_cases hstatus : out.bg.status = .inProgress
    · rw [if_pos hstatus, removePlayer_of_fighting hcounted (hfights hstatus)]
      split_ifs with hend
      · refine loggingOut_of_over ?_ ?_ (status_endBattleground _)
        · rw [isArena_endBattleground, harena]
        · exact honce.endBattleground hcounted.apart (by simp [hstatus]) harena _
      · refine ⟨harena, honce, fun _ t => ?_, hnodup, hoffline⟩
        obtain ⟨e, he, hteam, hfight⟩ := hfights hstatus t
        by_cases hne : e.guid = guid
        · -- the player itself fights, so it is alive, and its side must have somebody else
          have hown : (out.player guid).getBGTeam = t := by
            have hentry := (hcounted.sound.inside (e.guid, e.team) (mem_map.mpr ⟨e, he, rfl⟩)).2.2.1
            rw [← hne, ← hteam]
            exact hentry
          have halive : (out.player guid).alive = true := by
            rw [fights, hne] at hfight
            simp only [Bool.and_eq_true] at hfight
            exact hfight.1.2
          have hother : out.bg.getPlayersCountByTeam t.other ≠ 0 :=
            hcounted.getPlayersCountByTeam_ne_zero_iff.mpr (hfights hstatus _).present
          refine fightsOn_of_one_lt hcounted.apart.nodup ?_ guid
          rw [hown, harena, halive, decide_eq_true hother] at hend
          simpa using hend
        · exact ⟨e, he, hne, hteam, hfight⟩
    · rw [if_neg hstatus]
      exact ⟨harena, honce, fun h => absurd h hstatus, hnodup, hoffline⟩
  · rw [if_neg hinside]
    refine h.loggingOut fun hmem => hinside ?_
    rw [isPlayerInBattleground_iff, keys_inside]
    exact hmem

/-- **Logging out.** -/
theorem Playing.logoutPlayer (h : Playing teams s) (guid : Guid) (now : ℕ) :
    Playing teams (s.logoutPlayer guid now) := by
  have hcounted := h.counted.logoutPlayer guid now
  rw [Match.logoutPlayer] at hcounted ⊢
  split_ifs at hcounted ⊢ with hconn
  · have harrived := h.arrive guid
    have hended : Playing teams ((s.arrive guid).endRedemption guid) := by
      refine harrived.of_undisturbed (harrived.counted.of_eq ledger_endRedemption rfl)
        harrived.once (undisturbed_modifyPlayer rfl fun _ halive hspirit => ?_)
      rw [halive, hspirit]
      exact ⟨rfl, rfl⟩
    have hconn' : (((s.arrive guid).endRedemption guid).player guid).connected = true := by
      rw [endRedemption, player_modifyPlayer_self]
      exact ((undisturbed_arrive h.counted).connected guid).trans hconn
    have htold : LoggingOut teams guid
        (((s.arrive guid).endRedemption guid).logoutFromBattleground guid now) := by
      rw [logoutFromBattleground]
      split_ifs with hhere
      · exact hended.eventPlayerLoggedOut hconn' now
      · refine hended.loggingOut fun hmem => hhere ?_
        exact hended.counted.isHere_of_inside (keys_inside ▸ hmem)
    have hsame : Counted (((s.arrive guid).endRedemption guid).logoutFromBattleground guid now) :=
      hended.counted.of_eq (ledger_logoutFromBattleground now)
        (queuedGroups_logoutFromBattleground now)
    generalize ((s.arrive guid).endRedemption guid).logoutFromBattleground guid now = told
      at htold hcounted hsame
    refine LoggingOut.disconnect ?_ hcounted
    rw [logoutFromQueue]
    split_ifs with hslot
    · refine htold.of_undisturbed ?_ undisturbed_withdraw
      have honce : Once teams (told.removeBattlegroundQueueId guid) := htold.once
      exact honce.removePlayerFromQueue true fun _ hgroup => hsame.notMem_of_groupOf hgroup
    · exact htold
  · exact h

/-! ### Logging in -/

/-- **Logging in.** -/
theorem Playing.loginPlayer (h : Playing teams s) (guid : Guid) (alive rejoin : Bool) :
    Playing teams (s.loginPlayer guid alive rejoin) := by
  have hcounted := h.counted.loginPlayer guid alive rejoin
  rw [Match.loginPlayer] at hcounted ⊢
  by_cases hconn : (s.player guid).connected = true
  · rw [if_pos hconn]
    exact h
  · have houtside : ∀ f : Player → Player, guid ∉ s.bg.players.map (·.guid) →
        Counted (s.modifyPlayer guid f) → Playing teams (s.modifyPlayer guid f) := by
      intro f hnot hcounted
      refine ⟨hcounted, h.isArena, h.once, fun hstatus t => ?_, h.queue_nodup,
        fun hstatus g hg => ?_⟩
      · obtain ⟨e, he, hteam, hfight⟩ := h.alive hstatus t
        have hne : e.guid ≠ guid := fun heq => hnot (heq ▸ mem_map_of_mem he)
        refine ⟨e, he, hteam, ?_⟩
        rw [fights, findPlayer, player_modifyPlayer_of_ne s hne, transit_modifyPlayer]
        exact hfight
      · obtain ⟨hoff, hin⟩ := h.offline hstatus g hg
        have hne : g ≠ guid := fun heq => hnot (heq ▸ hin)
        rw [player_modifyPlayer_of_ne s hne]
        exact ⟨hoff, hin⟩
    have hnotInside : ¬ s.bg.isPlayerInBattleground guid = true →
        guid ∉ s.bg.players.map (·.guid) := fun hnot hmem =>
      hnot (isPlayerInBattleground_iff.mpr (keys_inside.symm ▸ hmem))
    split_ifs at hcounted ⊢ with hhere hinside hstatus
    · have hin : s.eventPlayerLoggedIn guid =
        { s with bg := { s.bg.setOfflineRemoveTime guid 0 with
          offlineQueue := s.bg.offlineQueue.erase guid } } := rfl
      obtain ⟨-, honce, harena, -, hfights, hkeys⟩ := h.enqueue hin
      have hoffline : (s.player guid).connected = false := by simpa using hconn
      refine ⟨hcounted, harena, honce, fun hprogress t => ?_, fun _ => ?_, fun _ g hg => ?_⟩
      · obtain ⟨e, he, hteam, hfight⟩ := hfights hprogress t
        have hne : e.guid ≠ guid := by
          rintro heq
          rw [fights, findPlayer, heq, hin] at hfight
          simp [hoffline] at hfight
        refine ⟨e, he, hteam, ?_⟩
        rw [fights, findPlayer, player_modifyPlayer_of_ne _ hne, transit_modifyPlayer]
        exact hfight
      · exact (h.queue_nodup hstatus).erase guid
      · obtain ⟨hne, hmem⟩ := (h.queue_nodup hstatus).mem_erase_iff.mp hg
        obtain ⟨hoff, hinside'⟩ := h.offline hstatus g hmem
        rw [player_modifyPlayer_of_ne _ hne]
        exact ⟨hoff, hkeys.symm ▸ hinside'⟩
    · refine playing_of_over hcounted ?_ ?_ ?_
      · exact isArena_removePlayerAtLeave.trans h.isArena
      · exact Once.removePlayerAtLeave h.once h.counted.apart
      · exact status_removePlayerAtLeave_of_waitLeave (not_not.mp hstatus)
    · exact houtside _ (hnotInside hinside) hcounted
    · refine houtside _ (fun hmem => hhere ?_) hcounted
      exact h.counted.isHere_of_inside (keys_inside.symm ▸ hmem)

/-! ### The update and kills -/

theorem Playing.checkWinConditions (hcounted : Counted s) (harena : s.bg.isArena = true)
    (honce : Once teams s) (hpresent : ∃ t, Present s t) (hstatus : s.bg.status = .inProgress)
    (hnodup : s.bg.offlineQueue.Nodup) (hoffline : ∀ g ∈ s.bg.offlineQueue,
      (s.player g).connected = false ∧ g ∈ s.bg.players.map (·.guid)) :
    Playing teams s.checkWinConditions := by
  have hne : s.bg.status ≠ .waitLeave := by simp [hstatus]
  have hended : ∀ winner, Playing teams (s.endBattleground winner) := fun winner =>
    playing_of_over (hcounted.endBattleground winner) (by rw [isArena_endBattleground, harena])
      (honce.endBattleground hcounted.apart hne harena winner) (status_endBattleground winner)
  obtain ⟨-, -, heq⟩ | ⟨-, -, -, heq⟩ | ⟨hhorde, halliance, heq⟩ :=
    checkWinConditions_cases fun t => hcounted.getPlayersCountByTeam_ne_zero_iff (t := t)
  · rw [heq]
    exact hended _
  · rw [heq]
    exact hended _
  · rw [heq]
    refine ⟨hcounted, harena, honce, fun _ t => ?_, fun _ => hnodup, fun _ => hoffline⟩
    obtain ⟨side, hside⟩ := hpresent
    cases side with
    | alliance =>
      have hother := halliance hside
      cases t with
      | alliance => exact hhorde hother.present
      | horde => exact hother
    | horde =>
      have hother := hhorde hside
      cases t with
      | alliance => exact hother
      | horde => exact halliance hother.present

section

variable (h : Playing teams s)
include h

/-- **A kill** ends the match, or both sides still fight. -/
theorem Playing.killPlayer (victim : Guid) (redemption : Bool) :
    Playing teams (s.killPlayer victim redemption) := by
  have hcounted : Counted (s.markKilled victim redemption) :=
    h.counted.of_eq (ledger_markKilled redemption) rfl
  have hconn : ∀ g, ((s.markKilled victim redemption).player g).connected =
      (s.player g).connected := fun g => by
    have hticket := congrArg (fun l : Ledger => (l.ticket g).connected)
      (@ledger_markKilled s victim redemption)
    exact hticket
  rw [Match.killPlayer]
  split_ifs with hfind hhere
  · rw [handleKillPlayer]
    split_ifs with hprogress
    · have hstatus : s.bg.status = .inProgress :=
        of_decide_eq_true ((Bool.and_eq_true _ _).mp hprogress).2
      have hne : s.bg.status ≠ .waitLeave := by simp [hstatus]
      refine Playing.checkWinConditions hcounted h.isArena h.once
        ⟨.alliance, (h.alive hstatus .alliance).present⟩ hstatus (h.queue_nodup hne) fun g hg => ?_
      rw [hconn]
      exact h.offline hne g hg
    · have hstatus : s.bg.status ≠ .inProgress := fun heq => hprogress (by
        rw [decide_eq_true (show (s.markKilled victim redemption).bg.status = .inProgress from heq),
          Bool.and_true]
        exact h.isArena)
      refine ⟨hcounted, h.isArena, h.once, fun heq => absurd heq hstatus, h.queue_nodup,
        fun hne g hg => ?_⟩
      rw [hconn]
      exact h.offline hne g hg
  · refine h.of_undisturbed hcounted h.once (undisturbed_modifyPlayer ?_ fun hmem => ?_)
    · split_ifs <;> rfl
    · exact absurd (h.counted.isHere_of_inside (keys_inside.symm ▸ hmem)) hhere
  · exact h

/-- **The doors open**, or not yet. -/
theorem Playing.processJoin (hstatus : s.bg.status = .waitJoin)
    (hplayers : s.bg.players ≠ []) (diff : UInt32) (setup : Bool) :
    Playing teams (s.processJoin diff setup) := by
  have hne : s.bg.status ≠ .waitLeave := by simp [hstatus]
  unfold Match.processJoin
  dsimp only
  split_ifs with _ _ _ _ _ harena
  · exact h.of_undisturbed (h.counted.of_eq rfl rfl) h.once (undisturbed_of_eq rfl rfl rfl rfl rfl rfl)
  · refine playing_of_over (h.counted.of_eq rfl rfl) h.isArena ?_ rfl
    exact Scoreboard.Sound.mono h.once rfl rfl nofun (fun _ => id) fun _ _ => Or.inl
  · exact h.of_undisturbed (h.counted.of_eq rfl rfl) h.once (undisturbed_of_eq rfl rfl rfl rfl rfl rfl)
  · exact h.of_undisturbed (h.counted.of_eq rfl rfl) h.once (undisturbed_of_eq rfl rfl rfl rfl rfl rfl)
  · obtain ⟨e, he⟩ := exists_mem_of_ne_nil _ hplayers
    refine Playing.checkWinConditions (h.counted.of_eq rfl rfl) h.isArena ?_
      ⟨e.team, e, he, rfl⟩ rfl (h.queue_nodup hne) (h.offline hne)
    exact Scoreboard.Sound.mono h.once rfl rfl (fun _ => by simp [scoreboard, hstatus]) (fun _ => id)
      fun _ _ => Or.inl
  · exact absurd h.isArena harena
  · exact h.of_undisturbed (h.counted.of_eq rfl rfl) h.once (undisturbed_of_eq rfl rfl rfl rfl rfl rfl)

theorem Playing.foldl_removePlayerAtLeave (hover : s.bg.status = .waitLeave) (guids : List Guid) : Playing teams (guids.foldl Match.removePlayerAtLeave s) := by
  induction guids generalizing s with
  | nil => exact h
  | cons g guids ih =>
    exact ih (h.removePlayerAtLeave fun hnot => absurd hover hnot)
      (status_removePlayerAtLeave_of_waitLeave hover)

theorem Playing.processLeave (hover : s.bg.status = .waitLeave) (diff : UInt32) : Playing teams (s.processLeave diff) := by
  have hcounted : Counted { s with bg := { s.bg with remainingTime := s.bg.remainingTime - diff } } :=
    h.counted.of_eq rfl rfl
  have hsame := h.of_undisturbed hcounted h.once (undisturbed_of_eq rfl rfl rfl rfl rfl rfl)
  rw [Match.processLeave]
  split_ifs
  · exact hsame.foldl_removePlayerAtLeave hover _
  · exact hsame

end

/-- When both sides fight without a player, its leaving does not end the match. -/
theorem Counted.status_removePlayerAtLeave (h : Counted s) (hfights : ∀ t, s.FightsOn guid t) :
    (s.removePlayerAtLeave guid).bg.status = s.bg.status := by
  obtain ⟨teams, log, hscore⟩ := scoreLeaver_eq s guid
  have hboth : ∀ t, Fighting ((s.scoreLeaver guid).departed guid) t := fun t => by
    rw [fighting_departed_iff, hscore]
    exact hfights t
  have hhook : ((s.scoreLeaver guid).departed guid).removePlayer =
      (s.scoreLeaver guid).departed guid := by
    rw [Match.removePlayer]
    split_ifs
    · obtain ⟨hnot, -⟩ | ⟨-, hnot, -⟩ | ⟨-, -, heq⟩ := checkWinConditions_cases fun t =>
        @Counted.getPlayersCountByTeam_departed _ guid t (h.scoreLeaver guid)
      · exact absurd (hboth _) hnot
      · exact absurd (hboth _) hnot
      · exact heq
    · rfl
  rw [removePlayerAtLeave_eq, status_forgetPlayer, hhook, status_departed, status_scoreLeaver]

/-- **A player offline for too long** is removed; the match does not end with it. -/
theorem Playing.processOfflineQueue (h : Playing teams s) (hstatus : s.bg.status = .inProgress)
    (now : ℕ) : Playing teams (s.processOfflineQueue now) ∧
      (s.processOfflineQueue now).bg.status = .inProgress := by
  have hne : s.bg.status ≠ .waitLeave := by simp [hstatus]
  rw [Match.processOfflineQueue]
  split
  · exact ⟨h, hstatus⟩
  · next guid rest hqueue =>
      split
      · exact ⟨h, hstatus⟩
      · split_ifs
        · have hnodup := h.queue_nodup hne
          rw [hqueue] at hnodup
          have hoffline : (s.player guid).connected = false :=
            (h.offline hne guid (hqueue ▸ mem_cons_self)).1
          have hfights : ∀ t, s.FightsOn guid t := fun t => by
            obtain ⟨e, he, hteam, hfight⟩ := h.alive hstatus t
            refine ⟨e, he, fun heq => ?_, hteam, hfight⟩
            rw [fights, findPlayer, heq] at hfight
            simp [hoffline] at hfight
          refine ⟨?_, (h.counted.status_removePlayerAtLeave hfights).trans hstatus⟩
          obtain hover | ⟨hdeparts, -⟩ := h.removePlayerAtLeave_cases guid
          · rw [h.counted.status_removePlayerAtLeave hfights, hstatus] at hover
            cases hover
          · dsimp only
            rw [hdeparts.offlineQueue, hqueue]
            refine h.removePlayerAtLeave_with guid (fun _ => (nodup_cons.mp hnodup).2)
              fun _ g hg => ⟨hqueue ▸ mem_cons_of_mem guid hg, ?_⟩
            rintro rfl
            exact (nodup_cons.mp hnodup).1 hg
        · exact ⟨h, hstatus⟩

theorem Playing.addElapsedTime (h : Playing teams s) (diff : UInt32) :
    Playing teams (s.addElapsedTime diff) :=
  h.of_undisturbed (h.counted.of_eq rfl rfl) h.once (undisturbed_of_eq rfl rfl rfl rfl rfl rfl)

/-- **The update.** The time limit ends a match that is still in progress. -/
theorem Playing.update (h : Playing teams s) (diff : UInt32) (now : ℕ) (setup : Bool) :
    Playing teams (s.update diff now setup) := by
  rw [Match.update]
  by_cases hempty : s.bg.players = []
  · split_ifs with hinvited
    · have hcounted := h.counted.update diff now setup
      rw [Match.update, if_pos hempty, if_pos hinvited] at hcounted
      exact h.of_undisturbed hcounted h.once (undisturbed_of_eq rfl rfl rfl rfl rfl rfl)
    · exact h
  · rw [if_neg hempty]
    cases hstatus : s.bg.status with
    | waitJoin => exact (h.processJoin hstatus hempty diff setup).addElapsedTime diff
    | inProgress =>
      obtain ⟨hsame, hprogress⟩ := h.processOfflineQueue hstatus now
      dsimp only
      split_ifs
      · refine playing_of_over (hsame.counted.endBattleground none) ?_ ?_ (status_endBattleground _)
        · rw [isArena_endBattleground, hsame.isArena]
        · exact hsame.once.endBattleground hsame.counted.apart (by simp [hprogress]) hsame.isArena _
      · exact hsame.addElapsedTime diff
    | waitLeave => exact (h.processLeave hstatus diff).addElapsedTime diff
    | none => exact h.addElapsedTime diff
    | waitQueue => exact h.addElapsedTime diff

end Match

open Match

/-- The events of a match: all but joining the queue and being invited. -/
def Event.inMatch : Event → Bool
  | .addGroup _ => false
  | .invite _ _ _ _ => false
  | _ => true

/-- **Every event of a match** keeps the invariant. -/
theorem Match.Playing.step (h : Playing teams s) {e : Event} (he : e.inMatch = true) :
    Playing teams (Battlegrounds.step s e) := by
  cases e with
  | addGroup group => exact Bool.noConfusion he
  | invite member side instanceID now => exact Bool.noConfusion he
  | port guid accepted checks =>
    exact step_port h (fun _ => h.withdraw) (fun _ => h.acceptInvite) accepted checks
  | arrive guid => exact h.arrive guid
  | queueRemove guid instanceID removeTime =>
    exact step_queueRemove h (fun _ => h.withdraw) instanceID removeTime
  | leave guid => exact h.leaveBattleground guid
  | logout guid now => exact h.logoutPlayer guid now
  | login guid alive rejoin => exact h.loginPlayer guid alive rejoin
  | update diff now setup =>
    rw [Battlegrounds.step]
    split_ifs
    · exact h
    · exact h.update diff now setup
  | kill victim redemption => exact h.killPlayer victim redemption
  | revive guid =>
    have hsame : Undisturbed s (Battlegrounds.step s (.revive guid)) :=
      undisturbed_modifyPlayer (f := fun p => { p with alive := true, spiritOfRedemption := false })
        rfl fun _ _ _ => ⟨rfl, rfl⟩
    exact h.of_undisturbed (h.counted.step (.revive guid)) h.once hsame
  | endBattleground winner =>
    rw [Battlegrounds.step, if_pos h.isArena]
    exact h

/-- A match that is about to begin: an arena in the preparation with exact counters, nobody offline
and an empty history. Only a rated match between two teams that exist scores anything at all, so
neither is asked for. -/
structure Match.Ready (s : Match) : Prop where
  counted : Counted s
  isArena : s.bg.isArena = true
  status : s.bg.status = .waitJoin
  offlineQueue : s.bg.offlineQueue = []
  log : s.log = []

end IscServer.Battlegrounds
