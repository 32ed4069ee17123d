import IscServer.Battlegrounds.ArenaScore

/-!
# The Scoreboard of an Arena Match

What the score of a match depends on: the history, the arena teams, whether the match is over, who
may still enter and who is inside. Every state has a scoreboard, and the operations of the model
act on it as one of a few operations of its own: somebody who is not on it any more has lost, the
match ends, or people move on. `Sound` says that the history scores nobody twice, and that whoever
it names can no longer be scored: not by the queue, and as long as the match is not over, not
inside either.

## Main results

* `Scoreboard.Sound.loss`, `Scoreboard.Sound.finish`, `Scoreboard.Sound.mono` — the operations of
  a scoreboard keep it sound.
* `Match.Once.endBattleground`, `Match.Once.removePlayerAtLeave`, `Match.Once.removePlayerFromQueue`
  — so do the end of a match, leaving it and leaving the queue.
-/

namespace IscServer.Battlegrounds

open List

/-- The history and the teams of a match, whether it is over, who may still enter, who is inside. -/
structure Scoreboard where
  log : List Report
  teams : ℕ → Option ArenaTeam
  isOver : Bool
  way : List Guid
  inside : List Guid

namespace Scoreboard

variable {teams : ℕ → Option ArenaTeam} {b b' : Scoreboard}

/-- The teams have the score of the history, nobody is scored twice, until the end only losses are
reported, and who was scored is out of reach. -/
structure Sound (teams : ℕ → Option ArenaTeam) (b : Scoreboard) : Prop where
  settled : b.teams = applyAll teams b.log
  scored : Scored b.log
  pending : b.isOver = false → ∀ r ∈ b.log, r.isLoss = true
  reported : ∀ r ∈ b.log, ∀ g, r.member = some g → g ∉ b.way ∧ (b.isOver = false → g ∉ b.inside)

/-- People move on: into the match from the way to it, or away. -/
theorem Sound.mono (h : Sound teams b) (hlog : b'.log = b.log) (hteams : b'.teams = b.teams)
    (hover : b'.isOver = false → b.isOver = false) (hway : ∀ g ∈ b'.way, g ∈ b.way)
    (hinside : b'.isOver = false → ∀ g ∈ b'.inside, g ∈ b.inside ∨ g ∈ b.way) : Sound teams b' := by
  refine ⟨by rw [hlog, hteams, h.settled], hlog ▸ h.scored, fun hnot => ?_, fun r hr g hg => ?_⟩
  · rw [hlog]
    exact h.pending (hover hnot)
  · rw [hlog] at hr
    obtain ⟨hnotWay, hnotInside⟩ := h.reported r hr g hg
    refine ⟨fun hmem => hnotWay (hway g hmem), fun hnot hmem => ?_⟩
    exact (hinside hnot g hmem).elim (hnotInside (hover hnot)) hnotWay

/-- Somebody has lost who could be scored before and cannot any more. -/
theorem Sound.loss (h : Sound teams b) {r : Report} {guid : Guid} (hloss : r.isLoss = true)
    (hguid : r.member = some guid) (hlog : b'.log = r :: b.log) (hteams : b'.teams = r.apply b.teams)
    (hover : b'.isOver = b.isOver) (hway : ∀ g ∈ b'.way, g ∈ b.way ∧ g ≠ guid)
    (hinside : b.isOver = false → ∀ g ∈ b'.inside, g ∈ b.inside ∧ g ≠ guid)
    (hbefore : guid ∈ b.way ∨ (b.isOver = false ∧ guid ∈ b.inside)) : Sound teams b' := by
  have hnew : ∀ r' ∈ b.log, r'.member ≠ some guid := by
    intro r' hr' hmember
    obtain ⟨hnotWay, hnotInside⟩ := h.reported r' hr' guid hmember
    exact hbefore.elim hnotWay fun hin => hnotInside hin.1 hin.2
  refine ⟨?_, ?_, fun hnot r' hr' => ?_, fun r' hr' g hg => ?_⟩
  · rw [hlog, hteams, h.settled]
    rfl
  · rw [hlog]
    refine h.scored.loss hloss fun g hg => ?_
    obtain rfl : guid = g := Option.some.inj (hguid.symm.trans hg)
    exact hnew
  · rw [hlog] at hr'
    obtain rfl | hr' := mem_cons.mp hr'
    · exact hloss
    · exact h.pending (hover ▸ hnot) r' hr'
  · rw [hlog] at hr'
    rw [hover]
    obtain rfl | hr' := mem_cons.mp hr'
    · obtain rfl : guid = g := Option.some.inj (hguid.symm.trans hg)
      exact ⟨fun hmem => (hway _ hmem).2 rfl, fun hnot hmem => (hinside hnot _ hmem).2 rfl⟩
    · obtain ⟨hnotWay, hnotInside⟩ := h.reported r' hr' g hg
      exact ⟨fun hmem => hnotWay (hway g hmem).1,
        fun hnot hmem => hnotInside hnot (hinside hnot g hmem).1⟩

/-- The match ends, and only those who are inside are scored. -/
theorem Sound.finish (h : Sound teams b) {rs : List Report} (hscored : Scored rs)
    (hover : b.isOver = false) (hlog : b'.log = rs ++ b.log)
    (hteams : b'.teams = applyAll b.teams rs) (hover' : b'.isOver = true)
    (hway : ∀ g ∈ b'.way, g ∈ b.way) (hapart : ∀ g ∈ b.inside, g ∉ b.way)
    (hinside : ∀ r ∈ rs, ∀ g, r.member = some g → g ∈ b.inside) : Sound teams b' := by
  refine ⟨?_, ?_, fun hnot => Bool.noConfusion (hnot.symm.trans hover'), fun r hr g hg => ?_⟩
  · rw [hlog, hteams, h.settled, applyAll_append]
  · rw [hlog]
    refine h.scored.append (h.pending hover) hscored fun r hr g hg r' hr' hmember => ?_
    exact (h.reported r' hr' g hmember).2 hover (hinside r hr g hg)
  · refine ⟨fun hmem => ?_, fun hnot => Bool.noConfusion (hnot.symm.trans hover')⟩
    rw [hlog] at hr
    rcases mem_append.mp hr with hr | hr
    · exact hapart g (hinside r hr g hg) (hway g hmem)
    · exact (h.reported r hr g hg).1 (hway g hmem)

end Scoreboard

namespace Match

variable {s : Match} {guid : Guid} {teams : ℕ → Option ArenaTeam}

/-- The players in the groups of the queue and those on the way. -/
def way (s : Match) : List Guid := s.queuedGroups.flatMap (·.players) ++ s.transit

/-- The scoreboard of a state. -/
def scoreboard (s : Match) : Scoreboard where
  log := s.log
  teams := s.arenaTeams
  isOver := s.bg.status = .waitLeave
  way := s.way
  inside := s.bg.players.map (·.guid)

/-- The scoreboard is sound. -/
def Once (teams : ℕ → Option ArenaTeam) (s : Match) : Prop := s.scoreboard.Sound teams

/-! ### Who is where -/

theorem keys_queued : s.ledger.queued.map Prod.fst = s.queuedGroups.flatMap (·.players) := by
  rw [ledger, map_flatMap]
  congr 1
  funext g
  rw [map_map]
  exact map_id _

theorem keys_inside : s.ledger.inside.map Prod.fst = s.bg.players.map (·.guid) := by
  rw [ledger, map_map]
  rfl

/-- Nobody is inside twice, or inside and on the way. -/
structure Apart (s : Match) : Prop where
  nodup : (s.bg.players.map (·.guid)).Nodup
  apart : ∀ g ∈ s.bg.players.map (·.guid), g ∉ s.way

theorem Counted.apart (h : Counted s) : Apart s := by
  have hnodup := h.sound.nodup
  rw [keys_queued, keys_inside] at hnodup
  refine ⟨(nodup_append.mp hnodup).2.1, fun g hg hway => ?_⟩
  exact (nodup_append.mp hnodup).2.2 g hway g hg rfl

/-- In the state of the hook too. -/
theorem Apart.departed (h : Apart s) : Apart (s.departed guid) := by
  have hsub : ((s.departed guid).bg.players.map (·.guid)).Sublist (s.bg.players.map (·.guid)) := by
    rw [players_departed]
    exact filter_sublist.map _
  refine ⟨h.nodup.sublist hsub, fun g hg hway => h.apart g (hsub.subset hg) ?_⟩
  obtain ⟨player, heq, -, -⟩ := departed_eq s guid
  rwa [heq] at hway

/-! ### The end of the match -/

theorem foldl_record (rs : List Report) : rs.foldl record s =
    { s with arenaTeams := applyAll s.arenaTeams rs.reverse, log := rs.reverse ++ s.log } := by
  induction rs generalizing s with
  | nil => rfl
  | cons r rs ih =>
    rw [foldl_cons, ih, reverse_cons, applyAll_append, append_assoc]
    rfl

/-- The rated part of the end adds reports of those inside. -/
theorem scoreMatch_eq (hnodup : (s.bg.players.map (·.guid)).Nodup) (winner : Option Team) :
    ∃ rs, s.scoreMatch winner =
        { s with arenaTeams := applyAll s.arenaTeams rs, log := rs ++ s.log } ∧
      Scored rs ∧ rs.countP Report.isEnded = 0 ∧
        ∀ r ∈ rs, ∀ g, r.member = some g → g ∈ s.bg.players.map (·.guid) := by
  rw [scoreMatch]
  split_ifs with hteams
  · have hne := of_decide_eq_true ((Bool.and_eq_true _ _).mp hteams).2
    obtain ⟨hscored, hended⟩ := scored_matchReports hne hnodup
    refine ⟨_, foldl_record _, hscored.perm (reverse_perm _).symm, ?_,
      fun r hr g hg => mem_matchReports_member (mem_reverse.mp hr) hg⟩
    rw [countP_reverse]
    exact hended
  · exact ⟨[], rfl, Scored.nil, rfl, fun _ hr => (not_mem_nil hr).elim⟩

/-- The end of a match: what it adds to the history, and the players who are revived. -/
theorem endBattleground_eq (hnodup : (s.bg.players.map (·.guid)).Nodup)
    (harena : s.bg.isArena = true) (winner : Option Team) :
    ∃ rs player, s.endBattleground winner =
        { s with
          bg := { s.bg with status := .waitLeave, remainingTime := timeAutocloseBattleground }
          player := player
          arenaTeams := applyAll s.arenaTeams rs
          log := rs ++ s.log } ∧
      Scored rs ∧ ∀ r ∈ rs, ∀ g, r.member = some g → g ∈ s.bg.players.map (·.guid) := by
  rw [endBattleground, if_pos harena]
  set ended : Report := .ended s.bg.status winner (s.awaitedAgainst winner)
  obtain ⟨rs, heq, hscored, hnone, hmember⟩ := @scoreMatch_eq (s.record ended) hnodup winner
  have hended : Scored (ended :: rs) := hscored.cons_ended hnone _ _ _
  by_cases hrated : s.bg.isRated = true
  · refine ⟨rs ++ [ended], (s.endBattlegroundBase).player, ?_, hended.perm ?_, fun r hr g hg => ?_⟩
    · dsimp only
      rw [if_pos (show (s.record ended).bg.isRated = true from hrated), heq, append_assoc,
        applyAll_append]
      rfl
    · exact (perm_append_singleton ended rs).symm
    · rcases mem_append.mp hr with hr | hr
      · exact hmember r hr g hg
      · obtain rfl := mem_singleton.mp hr
        cases hg
  · refine ⟨[ended], (s.endBattlegroundBase).player, ?_, Scored.nil.cons_ended rfl _ _ _,
      fun r hr g hg => ?_⟩
    · dsimp only
      rw [if_neg (show ¬ (s.record ended).bg.isRated = true from hrated)]
      rfl
    · obtain rfl := mem_singleton.mp hr
      cases hg

section

variable (h : Once teams s) (hapart : Apart s) (hstatus : s.bg.status ≠ .waitLeave)
  (harena : s.bg.isArena = true)
include h hapart hstatus harena

/-- **The end of the match** scores nobody twice. -/
theorem Once.endBattleground (winner : Option Team) : Once teams (s.endBattleground winner) := by
  obtain ⟨rs, player, heq, hscored, hmember⟩ := endBattleground_eq hapart.nodup harena winner
  rw [heq]
  exact Scoreboard.Sound.finish h hscored (decide_eq_false hstatus) rfl rfl rfl (fun _ => id)
    hapart.apart hmember

theorem Once.checkWinConditions : Once teams s.checkWinConditions := by
  rw [Match.checkWinConditions]
  split_ifs
  · exact h.endBattleground hapart hstatus harena _
  · exact h.endBattleground hapart hstatus harena _
  · exact h

end

theorem Once.removePlayer (h : Once teams s) (hapart : Apart s) : Once teams s.removePlayer := by
  rw [Match.removePlayer]
  split_ifs with hhook
  · obtain ⟨harena, hstatus⟩ := (Bool.and_eq_true _ _).mp hhook
    exact h.checkWinConditions hapart (of_decide_eq_true hstatus) harena
  · exact h

/-! ### Leaving -/

theorem way_departed : (s.departed guid).way = s.way := by
  obtain ⟨player, heq, -, -⟩ := departed_eq s guid
  rw [heq]
  rfl

theorem mem_inside_departed {g : Guid} : g ∈ (s.departed guid).bg.players.map (·.guid) ↔
    g ∈ s.bg.players.map (·.guid) ∧ g ≠ guid := by
  simp only [mem_map, mem_players_departed]
  constructor
  · rintro ⟨e, ⟨he, hne⟩, rfl⟩
    exact ⟨⟨e, he, rfl⟩, hne⟩
  · rintro ⟨⟨e, he, rfl⟩, hne⟩
    exact ⟨e, ⟨he, hne⟩, rfl⟩

theorem arenaTeams_departed : (s.departed guid).arenaTeams = s.arenaTeams := by
  obtain ⟨player, heq, -, -⟩ := departed_eq s guid
  rw [heq]

/-- Who leaves a match that is in progress is scored and gone. -/
theorem Once.departed (h : Once teams s) (hapart : Apart s) :
    Once teams ((s.scoreLeaver guid).departed guid) := by
  have hgone : ∀ (t : Match), t.bg = s.bg → t.queuedGroups = s.queuedGroups →
      t.transit = s.transit → (t.log = s.log ∧ t.arenaTeams = s.arenaTeams) →
        Once teams (t.departed guid) := by
    intro t hbg hgroups htransit hsame
    refine Scoreboard.Sound.mono h ?_ ?_ ?_ ?_ ?_
    · exact log_departed.trans hsame.1
    · exact arenaTeams_departed.trans hsame.2
    · exact fun hover => by simpa [scoreboard, hbg] using hover
    · intro g hg
      have hway : g ∈ t.way := way_departed ▸ hg
      rwa [way, hgroups, htransit] at hway
    · intro _ g hg
      have hmem := (mem_inside_departed.mp hg).1
      rw [hbg] at hmem
      exact Or.inl hmem
  rw [scoreLeaver]
  split_ifs with hprogress
  · cases hfind : s.bg.find guid with
    | none => exact hgone s rfl rfl rfl ⟨rfl, rfl⟩
    | some entry =>
      have hin : guid ∈ s.bg.players.map (·.guid) :=
        mem_map.mpr ⟨entry, Keyed.mem_of_find hfind, Keyed.key_of_find hfind⟩
      have hstatus : s.bg.status = .inProgress :=
        of_decide_eq_true ((Bool.and_eq_true _ _).mp hprogress).2
      have hlost : ∀ r : Report, r.isLoss = true → r.member = some guid →
          Once teams ((s.record r).departed guid) := by
        intro r hloss hmember
        refine Scoreboard.Sound.loss h hloss hmember log_departed arenaTeams_departed ?_
          (fun g hg => ?_) (fun _ g hg => (mem_inside_departed (s := s.record r)).mp hg)
          (Or.inr ⟨by simp [scoreboard, hstatus], hin⟩)
        · simp [scoreboard, record]
        · have hway : g ∈ (s.record r).way := way_departed ▸ hg
          refine ⟨hway, ?_⟩
          rintro rfl
          exact hapart.apart g hin hway
      dsimp only
      split_ifs
      · exact hlost _ rfl rfl
      · exact hlost _ rfl rfl
      · exact hgone s rfl rfl rfl ⟨rfl, rfl⟩
  · exact hgone s rfl rfl rfl ⟨rfl, rfl⟩

theorem scoreboard_forgetPlayer (entry : Option BattlegroundPlayer) :
    (s.forgetPlayer guid entry).scoreboard = s.scoreboard := by
  cases entry <;>
    · unfold forgetPlayer
      dsimp only
      split_ifs <;> rfl

theorem apart_scoreLeaver (h : Apart s) : Apart (s.scoreLeaver guid) := by
  obtain ⟨teams, log, heq⟩ := scoreLeaver_eq s guid
  rw [heq]
  exact ⟨h.nodup, h.apart⟩

/-- **Leaving** scores nobody twice. -/
theorem Once.removePlayerAtLeave (h : Once teams s) (hapart : Apart s) :
    Once teams (s.removePlayerAtLeave guid) := by
  rw [removePlayerAtLeave_eq, Once, scoreboard_forgetPlayer]
  exact (h.departed hapart).removePlayer (apart_scoreLeaver hapart).departed

/-! ### The queue -/

theorem mem_way_dropFromGroup {g : Guid} (h : g ∈ (s.dropFromGroup guid).way) :
    g ∈ s.way ∧ (g = guid → g ∈ s.transit) := by
  rcases mem_append.mp h with h | h
  · obtain ⟨group, hgroup, hg⟩ := mem_flatMap.mp h
    obtain ⟨hgroup, -⟩ := mem_filter.mp hgroup
    obtain ⟨old, hold, rfl⟩ := mem_map.mp hgroup
    obtain ⟨hg, hne⟩ := mem_filter.mp hg
    have hne : g ≠ guid := by simpa using hne
    exact ⟨mem_append_left _ (mem_flatMap.mpr ⟨old, hold, hg⟩), fun h => absurd h hne⟩
  · exact ⟨mem_append_right _ h, fun _ => h⟩

theorem Once.removeRest (h : Once teams s) (guids : List Guid) : Once teams (s.removeRest guids) := by
  induction guids generalizing s with
  | nil => exact h
  | cons g guids ih =>
    refine ih (Scoreboard.Sound.mono h ?_ ?_ ?_ (fun g' hg' => ?_) fun _ g' hg' => ?_)
    all_goals dsimp only at *
    · split_ifs <;> rfl
    · split_ifs <;> rfl
    · split_ifs <;> exact id
    · split_ifs at hg'
      · exact (mem_way_dropFromGroup hg').1
      · exact (mem_way_dropFromGroup hg').1
    · split_ifs at hg' <;> exact Or.inl hg'

/-- Who is queued is not on the way and not inside. -/
theorem Counted.notMem_of_groupOf (h : Counted s) {group : GroupQueueInfo}
    (hgroup : s.groupOf guid = some group) :
    guid ∉ s.transit ∧ guid ∉ s.bg.players.map (·.guid) := by
  obtain ⟨htransit, hinside⟩ := h.sound.notMem_of_queued (groupOf_some hgroup).2.2
  rw [keys_inside] at hinside
  exact ⟨htransit, hinside⟩

/-- **Leaving the queue** scores nobody twice: who is queued was not scored, and is not queued any
more. -/
theorem Once.removePlayerFromQueue (h : Once teams s) (decrease : Bool)
    (hnot : ∀ group, s.groupOf guid = some group →
      guid ∉ s.transit ∧ guid ∉ s.bg.players.map (·.guid)) :
    Once teams (s.removePlayerFromQueue guid decrease) := by
  rw [Match.removePlayerFromQueue]
  cases hgroup : s.groupOf guid with
  | none => exact h
  | some group =>
    obtain ⟨hmem, hguid, -⟩ := groupOf_some hgroup
    obtain ⟨htransit, hinside⟩ := hnot group hgroup
    have hway : guid ∈ s.way := mem_append_left _ (mem_flatMap.mpr ⟨group, hmem, hguid⟩)
    set dropped := (s.dropFromGroup guid).takeInvitationBack group decrease with hdropped
    have hboard : dropped.scoreboard = (s.dropFromGroup guid).scoreboard := by
      rw [hdropped, takeInvitationBack]
      split_ifs <;> rfl
    have hdrop : Once teams dropped := by
      rw [Once, hboard]
      exact Scoreboard.Sound.mono h rfl rfl id (fun g hg => (mem_way_dropFromGroup hg).1)
        fun _ g hg => Or.inl hg
    have hlost : ∀ r : Report, r.isLoss = true → r.member = some guid →
        Once teams (dropped.record r) := by
      intro r hloss hmember
      have hlog : dropped.log = s.log := congrArg Scoreboard.log hboard
      have hteams : dropped.arenaTeams = s.arenaTeams := congrArg Scoreboard.teams hboard
      have hover : dropped.scoreboard.isOver = (s.dropFromGroup guid).scoreboard.isOver :=
        congrArg Scoreboard.isOver hboard
      have hway' : dropped.way = (s.dropFromGroup guid).way := congrArg Scoreboard.way hboard
      have hin : dropped.scoreboard.inside = (s.dropFromGroup guid).scoreboard.inside :=
        congrArg Scoreboard.inside hboard
      refine Scoreboard.Sound.loss h hloss hmember (congrArg (r :: ·) hlog)
        (congrArg (Report.apply · r) hteams) hover (fun g hg => ?_) (fun _ g hg => ?_) (Or.inl hway)
      · have hg : g ∈ (s.dropFromGroup guid).way := hway' ▸ hg
        obtain ⟨hg, hself⟩ := mem_way_dropFromGroup hg
        exact ⟨hg, fun heq => htransit (heq ▸ hself heq)⟩
      · have hg : g ∈ (s.dropFromGroup guid).scoreboard.inside := hin ▸ hg
        refine ⟨hg, ?_⟩
        rintro rfl
        exact hinside hg
    have hscored : Once teams (dropped.scoreAbsent guid group decrease) := by
      rw [scoreAbsent]
      split_ifs
      · exact hlost _ rfl rfl
      · exact hlost _ rfl rfl
      · exact hdrop
    dsimp only
    split_ifs
    · exact h
    · exact hscored.removeRest _
    · exact hscored

end Match

end IscServer.Battlegrounds
