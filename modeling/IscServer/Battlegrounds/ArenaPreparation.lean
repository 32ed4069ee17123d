import IscServer.Battlegrounds.ArenaSides

/-!
# An Arena Match Before the Doors Open

The hook that runs when a player leaves an arena asks who has won in every status but
`STATUS_WAIT_LEAVE`, and the question counts only players who have arrived. So during the
preparation a player who leaves can end the match while the other side is still on its way. This
module says exactly when: `LeavesUncontested` describes the state in which such a player leaves,
and no other event decides a match early. The two siblings of the hook, `HandleKillPlayer` and
`EventPlayerLoggedOut`, ask only while the match is in progress.

## Main results

* `Match.undecided_removePlayerAtLeave` — what leaving adds to the history, by status.
* `undecided_step` — the one event and the states in which it decides a match early.
* `undecided_run` — a run decides no match early exactly if nobody leaves in such a state.
-/

namespace IscServer.Battlegrounds

open List

variable {s : Match} {guid : Guid}

/-- A winner is declared in the preparation while a player of the other side may still enter. -/
def Report.DecidedEarly : Report → Prop
  | .ended .waitJoin (some _) awaited => awaited ≠ []
  | _ => False

namespace Match

/-- No winner was declared early. -/
def Undecided (s : Match) : Prop := ∀ r ∈ s.log, ¬ r.DecidedEarly

/-- Once a player has left, a side with players inside faces nobody who fights, while the other
side is still awaited. When neither side fights, the question is asked for `HORDE` first. -/
def Uncontested (s : Match) (guid : Guid) : Prop :=
  ∃ winner, s.Remains guid winner ∧ ¬ s.FightsOn guid winner.other ∧ s.awaited winner.other ≠ [] ∧
    (winner = .alliance → s.Remains guid .horde → s.FightsOn guid .alliance)

end Match

open Match

/-- A player in the world leaves an arena in the preparation, and the match is then uncontested. -/
def LeavesUncontested (s : Match) : Event → Prop
  | .leave guid => s.bg.isArena = true ∧ s.bg.status = .waitJoin ∧ s.findPlayer guid = true ∧
      s.bg.isPlayerInBattleground guid = true ∧ s.Uncontested guid
  | _ => False

namespace Match

/-! ### The end of a match in the history -/

theorem undecided_of_log_eq {s' : Match} (h : s'.log = s.log) : Undecided s' ↔ Undecided s := by
  rw [Undecided, Undecided, h]

theorem undecided_record (r : Report) : Undecided (s.record r) ↔ ¬ r.DecidedEarly ∧ Undecided s :=
  forall_mem_cons

theorem undecided_records {rs : List Report} (h : ∀ r ∈ rs, ¬ r.DecidedEarly) :
    Undecided (rs.foldl record s) ↔ Undecided s := by
  induction rs generalizing s with
  | nil => exact Iff.rfl
  | cons r rs ih =>
    obtain ⟨hr, hrs⟩ := forall_mem_cons.mp h
    rw [foldl_cons, ih hrs, undecided_record, and_iff_right hr]

variable {winner : Option Team}

variable {won lost : ℕ} {r : Report}

theorem not_decidedEarly_teamReports (h : r ∈ teamReports winner won lost) : ¬ r.DecidedEarly := by
  rw [teamReports] at h
  split_ifs at h
  all_goals
    simp only [mem_cons, not_mem_nil, or_false] at h
    rcases h with rfl | rfl <;> exact id

theorem not_decidedEarly_memberReports {entry : BattlegroundPlayer}
    (h : r ∈ s.memberReports winner won lost entry) : ¬ r.DecidedEarly := by
  rw [memberReports] at h
  split_ifs at h
  all_goals simp only [mem_cons, not_mem_nil, or_false] at h
  all_goals
    first
      | subst h; exact id
      | rcases h with rfl | rfl <;> exact id

@[simp] theorem undecided_scoreMatch (winner : Option Team) :
    Undecided (s.scoreMatch winner) ↔ Undecided s := by
  rw [scoreMatch]
  split_ifs
  · refine undecided_records fun r hr => ?_
    rcases mem_append.mp hr with hr | hr
    · exact not_decidedEarly_teamReports hr
    · obtain ⟨entry, -, hr⟩ := mem_flatMap.mp hr
      exact not_decidedEarly_memberReports hr
  · exact Iff.rfl

/-- Ending an arena match adds one report that can be early. -/
theorem undecided_endBattleground (winner : Option Team) :
    Undecided (s.endBattleground winner) ↔ Undecided s ∧ ¬ (s.bg.isArena = true ∧
      Report.DecidedEarly (.ended s.bg.status winner (s.awaitedAgainst winner))) := by
  rw [endBattleground]
  by_cases harena : s.bg.isArena = true
  · rw [if_pos harena]
    have hscored : ∀ t : Match, Undecided ((if t.bg.isRated = true then t.scoreMatch winner
        else t).endBattlegroundBase) ↔ Undecided t := by
      intro t
      split_ifs
      · exact undecided_scoreMatch winner
      · exact Iff.rfl
    rw [hscored, undecided_record, and_comm, and_iff_right harena]
  · rw [if_neg harena]
    exact ⟨fun h => ⟨h, fun hc => harena hc.1⟩, fun h => h.1⟩

/-- Outside the preparation no winner is early. -/
theorem undecided_endBattleground_of_ne (h : s.bg.status ≠ .waitJoin) (winner : Option Team) :
    Undecided (s.endBattleground winner) ↔ Undecided s := by
  rw [undecided_endBattleground]
  cases hstatus : s.bg.status <;> simp_all [Report.DecidedEarly]

/-- A match that ends without a winner is not decided. -/
theorem undecided_endBattleground_none : Undecided (s.endBattleground none) ↔ Undecided s := by
  rw [undecided_endBattleground]
  cases hstatus : s.bg.status <;> simp_all [Report.DecidedEarly]

theorem undecided_checkWinConditions_of_ne (h : s.bg.status ≠ .waitJoin) :
    Undecided s.checkWinConditions ↔ Undecided s := by
  rw [checkWinConditions]
  split_ifs
  · exact undecided_endBattleground_of_ne h _
  · exact undecided_endBattleground_of_ne h _
  · exact Iff.rfl

/-! ### Leaving -/

theorem undecided_scoreLeaver : Undecided (s.scoreLeaver guid) ↔ Undecided s := by
  rw [scoreLeaver]
  split_ifs
  · cases s.bg.find guid with
    | none => exact Iff.rfl
    | some entry =>
      dsimp only
      split_ifs
      · exact (undecided_record _).trans (and_iff_right id)
      · exact (undecided_record _).trans (and_iff_right id)
      · exact Iff.rfl
  · exact Iff.rfl

/-- Leaving comes down to the hook. -/
theorem undecided_removePlayerAtLeave_iff : Undecided (s.removePlayerAtLeave guid) ↔
    Undecided ((s.scoreLeaver guid).departed guid).removePlayer := by
  exact undecided_of_log_eq (log_forgetPlayer _)

theorem undecided_departed : Undecided (s.departed guid) ↔ Undecided s :=
  undecided_of_log_eq log_departed

/-- Outside the preparation nobody who leaves decides a match early. -/
theorem undecided_removePlayerAtLeave_of_ne (h : s.bg.status ≠ .waitJoin) :
    Undecided (s.removePlayerAtLeave guid) ↔ Undecided s := by
  have hstatus : ((s.scoreLeaver guid).departed guid).bg.status ≠ .waitJoin := by
    rwa [status_departed, status_scoreLeaver]
  rw [undecided_removePlayerAtLeave_iff, removePlayer]
  split_ifs
  · rw [undecided_checkWinConditions_of_ne hstatus, undecided_departed, undecided_scoreLeaver]
  · rw [undecided_departed, undecided_scoreLeaver]

/-- In the preparation, the question who has won decides early for a side that is inside if nobody
of the other side fights and somebody of it is awaited. -/
theorem undecided_checkWinConditions (harena : s.bg.isArena = true) (hstatus : s.bg.status = .waitJoin)
    (hcount : ∀ t, s.bg.getPlayersCountByTeam t ≠ 0 ↔ Present s t) :
    Undecided s.checkWinConditions ↔ Undecided s ∧ ¬ ∃ winner : Team, Present s winner ∧
      ¬ Fighting s winner.other ∧ s.awaited winner.other ≠ [] ∧
        (winner = .alliance → Present s .horde → Fighting s .alliance) := by
  have hend : ∀ winner, Undecided (s.endBattleground (some winner)) ↔
      Undecided s ∧ ¬ s.awaited winner.other ≠ [] := by
    intro winner
    rw [undecided_endBattleground, hstatus, and_iff_right harena]
    rfl
  obtain ⟨hnone, hpresent, heq⟩ | ⟨hpresent, hnone, hfirst, heq⟩ | ⟨hhorde, halliance, heq⟩ :=
    checkWinConditions_cases hcount
  · rw [heq, hend]
    refine and_congr_right fun _ => not_congr ⟨fun hne => ⟨.horde, hpresent, hnone, hne, nofun⟩, ?_⟩
    rintro ⟨winner, -, -, hne, hfirst⟩
    cases winner with
    | horde => exact hne
    | alliance => exact absurd (hfirst rfl hpresent) hnone
  · rw [heq, hend]
    refine and_congr_right fun _ => not_congr
      ⟨fun hne => ⟨.alliance, hpresent, hnone, hne, fun _ => hfirst⟩, ?_⟩
    rintro ⟨winner, hother, hnot, hne, -⟩
    cases winner with
    | horde => exact absurd (hfirst hother) hnot
    | alliance => exact hne
  · rw [heq]
    refine (and_iff_left ?_).symm
    rintro ⟨winner, hpresent, hnot, -⟩
    cases winner with
    | horde => exact hnot (hhorde hpresent)
    | alliance => exact hnot (halliance hpresent)

/-- **Leaving in the preparation** decides the match early exactly if it is then uncontested. -/
theorem Counted.undecided_removePlayerAtLeave (h : Counted s) (hstatus : s.bg.status = .waitJoin) :
    Undecided (s.removePlayerAtLeave guid) ↔
      Undecided s ∧ ¬ (s.bg.isArena = true ∧ s.Uncontested guid) := by
  have hscore : s.scoreLeaver guid = s := by
    rw [scoreLeaver, if_neg (by simp [hstatus])]
  rw [undecided_removePlayerAtLeave_iff, hscore, removePlayer, status_departed, isArena_departed,
    hstatus]
  by_cases harena : s.bg.isArena = true
  · have hasked := @undecided_checkWinConditions (s.departed guid)
      (by rw [isArena_departed, harena]) (by rw [status_departed, hstatus])
      fun t => h.getPlayersCountByTeam_departed
    rw [if_pos (by simp [harena]), hasked, undecided_departed, and_iff_right harena]
    simp only [present_departed_iff, fighting_departed_iff, awaited_departed]
    rfl
  · rw [if_neg (by simp [harena]), undecided_departed]
    exact (and_iff_left fun hc => harena hc.1).symm

/-! ### The other operations -/

variable {f : Player → Player}

theorem undecided_modifyPlayer : Undecided (s.modifyPlayer guid f) ↔ Undecided s := Iff.rfl

/-- Leaving the queue scores nobody's match early. -/
theorem undecided_scoreAbsent (group : GroupQueueInfo) (decrease : Bool) :
    Undecided (s.scoreAbsent guid group decrease) ↔ Undecided s := by
  rw [scoreAbsent]
  split_ifs
  · exact (undecided_record _).trans (and_iff_right id)
  · exact (undecided_record _).trans (and_iff_right id)
  · exact Iff.rfl

variable (guids : List Guid)

theorem undecided_removeRest : Undecided (s.removeRest guids) ↔ Undecided s := by
  induction guids generalizing s with
  | nil => exact Iff.rfl
  | cons g guids ih =>
    refine ih.trans ?_
    dsimp only
    split_ifs <;> exact Iff.rfl

theorem undecided_removePlayerFromQueue (decrease : Bool) :
    Undecided (s.removePlayerFromQueue guid decrease) ↔ Undecided s := by
  rw [removePlayerFromQueue]
  cases s.groupOf guid with
  | none => exact Iff.rfl
  | some group =>
    have hscored : Undecided (((s.dropFromGroup guid).takeInvitationBack group decrease).scoreAbsent
        guid group decrease) ↔ Undecided s := by
      refine (undecided_scoreAbsent group decrease).trans (undecided_of_log_eq ?_)
      rw [takeInvitationBack]
      split_ifs <;> rfl
    dsimp only
    split_ifs
    · exact Iff.rfl
    · exact (undecided_removeRest _).trans hscored
    · exact hscored

theorem Counted.undecided_acceptInvite (h : Counted s) (group : GroupQueueInfo)
    (hgroup : s.groupOf guid = some group) (hinvited : group.isInvitedToBGInstanceGUID ≠ 0) :
    Undecided (s.acceptInvite guid group) ↔ Undecided s := by
  rw [h.acceptInvite_eq hgroup hinvited]
  dsimp only
  split_ifs <;> exact Iff.rfl

theorem undecided_arrive : Undecided (s.arrive guid) ↔ Undecided s := by
  rw [arrive]
  dsimp only
  split_ifs <;> exact Iff.rfl

/-- A player who is in the world and knows that it is here is inside. -/
theorem Counted.inside_of_findPlayer (h : Counted s) (hfind : s.findPlayer guid = true)
    (hhere : s.isHere (s.player guid).bgInstanceID = true) :
    s.bg.isPlayerInBattleground guid = true := by
  obtain ⟨hconn, htransit⟩ := (Bool.and_eq_true _ _).mp hfind
  obtain ⟨hid, -⟩ := (Bool.and_eq_true _ _).mp hhere
  have hnot : guid ∉ s.transit := by simpa using htransit
  exact isPlayerInBattleground_iff.mpr
    ((h.sound.here guid hconn (of_decide_eq_true hid)).resolve_left hnot)

/-- **Leaving**, as the player's own request. -/
theorem Counted.undecided_leaveBattleground (h : Counted s) :
    Undecided (s.leaveBattleground guid) ↔
      Undecided s ∧ ¬ LeavesUncontested s (.leave guid) := by
  have hothers : ¬ (s.findPlayer guid = true ∧ s.bg.isPlayerInBattleground guid = true) →
      ¬ LeavesUncontested s (.leave guid) := fun hnot hleave => hnot ⟨hleave.2.2.1, hleave.2.2.2.1⟩
  rw [Match.leaveBattleground]
  split_ifs with hfound hhere
  · obtain ⟨hfind, -⟩ := (Bool.and_eq_true _ _).mp hfound
    by_cases hstatus : s.bg.status = .waitJoin
    · rw [h.undecided_removePlayerAtLeave hstatus, LeavesUncontested, and_iff_right hstatus,
        and_iff_right hfind, and_iff_right (h.inside_of_findPlayer hfind hhere)]
    · rw [undecided_removePlayerAtLeave_of_ne hstatus]
      exact (and_iff_left fun hleave => hstatus hleave.2.1).symm
  · refine (and_iff_left (hothers fun hboth => hhere ?_)).symm
    exact h.isHere_of_inside (isPlayerInBattleground_iff.mp hboth.2)
  · refine (and_iff_left (hothers fun hboth => hfound ?_)).symm
    have hhere := h.isHere_of_inside (isPlayerInBattleground_iff.mp hboth.2)
    have hid := of_decide_eq_true ((Bool.and_eq_true _ _).mp hhere).1
    rw [hboth.1, Bool.true_and, decide_eq_true_eq, hid]
    exact h.sound.instanceID

variable (now : ℕ)

/-- Logging out asks who has won only while the match is in progress. -/
theorem undecided_eventPlayerLoggedOut :
    Undecided (s.eventPlayerLoggedOut guid now) ↔ Undecided s := by
  rw [eventPlayerLoggedOut]
  by_cases hinside : s.bg.isPlayerInBattleground guid = true
  · rw [if_pos hinside]
    generalize hout : ({ s with bg := { s.bg.setOfflineRemoveTime guid (now + maxOfflineTime) with
      offlineQueue := s.bg.offlineQueue ++ [guid] } } : Match) = out
    have hlog : out.log = s.log := by rw [← hout]
    dsimp only
    by_cases hstatus : out.bg.status = .inProgress
    · have hne : out.bg.status ≠ .waitJoin := by simp [hstatus]
      have hhook : Undecided out.removePlayer ↔ Undecided s := by
        rw [removePlayer]
        split_ifs
        · rw [undecided_checkWinConditions_of_ne hne, undecided_of_log_eq hlog]
        · exact undecided_of_log_eq hlog
      split_ifs
      · refine (undecided_endBattleground_of_ne ?_ _).trans hhook
        obtain hsame | hended := @status_removePlayer out
        · rwa [hsame]
        · rw [hended]
          decide
      · exact hhook
    · rw [if_neg hstatus]
      exact undecided_of_log_eq hlog
  · rw [if_neg hinside]

theorem undecided_logoutPlayer : Undecided (s.logoutPlayer guid now) ↔ Undecided s := by
  rw [logoutPlayer]
  split_ifs
  · rw [undecided_modifyPlayer]
    have hqueue : ∀ t : Match, Undecided (t.logoutFromQueue guid) ↔ Undecided t := fun t => by
      rw [logoutFromQueue]
      split_ifs
      · exact undecided_removePlayerFromQueue true
      · exact Iff.rfl
    have htold : ∀ t : Match, Undecided (t.logoutFromBattleground guid now) ↔ Undecided t :=
      fun t => by
        rw [logoutFromBattleground]
        split_ifs
        · exact undecided_eventPlayerLoggedOut now
        · exact Iff.rfl
    rw [hqueue, htold]
    exact undecided_arrive
  · exact Iff.rfl

theorem undecided_loginPlayer (alive rejoin : Bool) :
    Undecided (s.loginPlayer guid alive rejoin) ↔ Undecided s := by
  rw [loginPlayer]
  split_ifs with _ _ _ hstatus
  · exact Iff.rfl
  · exact Iff.rfl
  · refine undecided_removePlayerAtLeave_of_ne ?_
    rw [not_not.mp hstatus]
    decide
  · exact Iff.rfl
  · exact Iff.rfl

/-! ### The update -/

variable (diff : UInt32)

/-- When the doors open the match is in progress before anybody asks who has won. -/
theorem undecided_processJoin (setup : Bool) :
    Undecided (s.processJoin diff setup) ↔ Undecided s := by
  unfold processJoin
  dsimp only
  split_ifs
  all_goals try exact Iff.rfl
  exact undecided_checkWinConditions_of_ne nofun

theorem undecided_foldl_removePlayerAtLeave {guids : List Guid} (h : s.bg.status = .waitLeave) :
    Undecided (guids.foldl removePlayerAtLeave s) ↔ Undecided s := by
  induction guids generalizing s with
  | nil => exact Iff.rfl
  | cons g guids ih =>
    rw [foldl_cons, ih (status_removePlayerAtLeave_of_waitLeave h),
      undecided_removePlayerAtLeave_of_ne (by simp [h])]

theorem undecided_processLeave (h : s.bg.status = .waitLeave) :
    Undecided (s.processLeave diff) ↔ Undecided s := by
  rw [processLeave]
  split_ifs
  · exact undecided_foldl_removePlayerAtLeave h
  · exact Iff.rfl

theorem undecided_processOfflineQueue (h : s.bg.status = .inProgress) :
    Undecided (s.processOfflineQueue now) ↔ Undecided s := by
  rw [processOfflineQueue]
  split
  · exact Iff.rfl
  · split
    · exact Iff.rfl
    · split_ifs
      · exact undecided_removePlayerAtLeave_of_ne (by simp [h])
      · exact Iff.rfl

theorem undecided_update (now : ℕ) (setup : Bool) :
    Undecided (s.update diff now setup) ↔ Undecided s := by
  rw [update]
  split_ifs
  · exact Iff.rfl
  · exact Iff.rfl
  · cases hstatus : s.bg.status with
    | waitJoin => exact undecided_processJoin diff setup
    | inProgress =>
      dsimp only
      split_ifs
      · rw [undecided_endBattleground_none, undecided_processOfflineQueue now hstatus]
      · exact undecided_processOfflineQueue now hstatus
    | waitLeave => exact undecided_processLeave diff hstatus
    | none => exact Iff.rfl
    | waitQueue => exact Iff.rfl

theorem undecided_killPlayer (redemption : Bool) :
    Undecided (s.killPlayer guid redemption) ↔ Undecided s := by
  have hkill : Undecided (s.markKilled guid redemption).handleKillPlayer ↔ Undecided s := by
    rw [handleKillPlayer]
    split_ifs with hprogress
    · obtain ⟨-, hprogress⟩ := (Bool.and_eq_true _ _).mp hprogress
      exact undecided_checkWinConditions_of_ne (by simp [of_decide_eq_true hprogress])
    · exact Iff.rfl
  rw [killPlayer]
  split_ifs
  · exact hkill
  · exact Iff.rfl
  · exact Iff.rfl

/-! ### Joining the queue and being invited -/

theorem log_foldl_modifyPlayer :
    (guids.foldl (fun s guid => s.modifyPlayer guid f) s).log = s.log := by
  induction guids generalizing s with
  | nil => rfl
  | cons g guids ih => exact ih

theorem log_invitePlayers {side : Team} {instanceID : ℕ} :
    (guids.foldl (invitePlayer side instanceID) s).log = s.log := by
  induction guids generalizing s with
  | nil => rfl
  | cons g guids ih =>
    refine ih.trans ?_
    rw [invitePlayer]
    split_ifs <;> rfl

end Match

/-- **One event decides a match early** exactly if it is somebody leaving it uncontested. -/
theorem Match.Counted.undecided_step (h : Counted s) (e : Event) :
    Undecided (Battlegrounds.step s e) ↔ Undecided s ∧ ¬ LeavesUncontested s e := by
  have hother : ∀ {e : Event}, (Undecided (Battlegrounds.step s e) ↔ Undecided s) →
      ¬ LeavesUncontested s e →
        (Undecided (Battlegrounds.step s e) ↔ Undecided s ∧ ¬ LeavesUncontested s e) :=
    fun hsame hnot => hsame.trans (and_iff_left hnot).symm
  cases e with
  | leave guid => exact h.undecided_leaveBattleground
  | addGroup group =>
    refine hother ?_ id
    rw [Battlegrounds.step]
    split_ifs
    · exact undecided_of_log_eq (log_foldl_modifyPlayer _)
    · exact Iff.rfl
  | invite member side instanceID now =>
    refine hother ?_ id
    rw [Battlegrounds.step]
    cases s.groupOf member with
    | none => exact Iff.rfl
    | some group =>
      dsimp only
      split_ifs
      · exact undecided_of_log_eq (log_invitePlayers _)
      · exact Iff.rfl
  | port guid accepted checks =>
    exact hother (step_port (P := (Undecided · ↔ Undecided s)) Iff.rfl
      (fun _ _ => undecided_removePlayerFromQueue true) h.undecided_acceptInvite accepted checks) id
  | arrive guid => exact hother undecided_arrive id
  | queueRemove guid instanceID removeTime =>
    exact hother (step_queueRemove (P := (Undecided · ↔ Undecided s)) Iff.rfl
      (fun _ _ => undecided_removePlayerFromQueue true) instanceID removeTime) id
  | logout guid now => exact hother (undecided_logoutPlayer now) id
  | login guid alive rejoin => exact hother (undecided_loginPlayer alive rejoin) id
  | update diff now setup =>
    refine hother ?_ id
    rw [Battlegrounds.step]
    split_ifs
    · exact Iff.rfl
    · exact undecided_update diff now setup
  | kill victim redemption => exact hother (undecided_killPlayer redemption) id
  | revive guid => exact hother Iff.rfl id
  | endBattleground winner =>
    refine hother ?_ id
    rw [Battlegrounds.step]
    split_ifs with harena
    · exact Iff.rfl
    · rw [undecided_endBattleground]
      exact and_iff_left fun hearly => harena hearly.1

/-- **A match is decided early** in a run exactly if somebody leaves it uncontested: from a new
instance, no winner is declared in the preparation while a player of the other side may still
enter, if and only if nobody leaves in the preparation when, among the others, one side is inside,
nobody of the other side fights and somebody of the other side may still enter. -/
theorem undecided_run (h : Fresh s) (hlog : s.log = []) (events : List Event) :
    (∀ r ∈ (run s events).log, ¬ r.DecidedEarly) ↔
      Run.Along step (fun s e => ¬ LeavesUncontested s e) s events := by
  have hstart : Undecided s := fun r hr => by
    rw [hlog] at hr
    cases hr
  exact (Run.foldl_iff_along Counted (fun _ e hs => hs.step e) (fun _ e hs => hs.undecided_step e)
    events h.counted).trans (and_iff_right hstart)

/-! ### An example -/

theorem low_ne_zero : (1 : UInt32) ≠ 0 := by decide

/-- Four players. -/
def firstPlayer : Guid := ⟨1, low_ne_zero⟩
def secondPlayer : Guid := ⟨2, by decide⟩
def thirdPlayer : Guid := ⟨3, by decide⟩
def fourthPlayer : Guid := ⟨4, by decide⟩

/-- A new arena with the instance number 7 for a rated match, and two teams of two in the queue. -/
def twoAgainstTwo : Match where
  bg := {
    instanceID := 7, isArena := true, isRated := true, status := .waitJoin, events := 0
    startDelayTime := 0, elapsedTime := 0, remainingTime := 0, players := []
    playersCount := fun _ => 0, invitedCount := fun _ => 0, offlineQueue := []
    arenaTeamIds := fun _ => 0, setDeleteThis := false }
  queuedGroups := [
    ⟨[firstPlayer, secondPlayer], .alliance, .alliance, true, 1, 0, 0⟩,
    ⟨[thirdPlayer, fourthPlayer], .horde, .horde, true, 2, 0, 0⟩]
  player _ := ⟨⟨true, .alliance, none, 0, some 0⟩, true, false⟩
  transit := []
  arenaTeams id :=
    if id = 1 then
      some ⟨⟨0, 0, 0, 0⟩, [⟨firstPlayer, 0, 0, 0, 0⟩, ⟨secondPlayer, 0, 0, 0, 0⟩]⟩
    else if id = 2 then
      some ⟨⟨0, 0, 0, 0⟩, [⟨thirdPlayer, 0, 0, 0, 0⟩, ⟨fourthPlayer, 0, 0, 0, 0⟩]⟩
    else none
  log := []

theorem twoAgainstTwo_fresh : Fresh twoAgainstTwo :=
  ⟨Nat.succ_ne_zero 6, rfl, rfl, fun _ => rfl, fun _ => rfl, by decide,
    fun g hg => by
      simp only [twoAgainstTwo, mem_cons, not_mem_nil, or_false] at hg
      rcases hg with rfl | rfl <;> exact ⟨rfl, nofun, fun _ _ => ⟨rfl, rfl⟩⟩,
    fun _ => nofun⟩

/-- Both teams are invited, and the first one enters. -/
def oneTeamInside : List Event :=
  let checks : PortChecks := ⟨true, false, false, none⟩
  [.invite firstPlayer .alliance 7 0, .invite thirdPlayer .horde 7 0,
    .port firstPlayer true checks, .arrive firstPlayer,
    .port secondPlayer true checks, .arrive secondPlayer]

/-- Then one of the two leaves, and its team has won. -/
theorem win_before_the_doors_open :
    ∃ r ∈ (run twoAgainstTwo (oneTeamInside ++ [.leave secondPlayer])).log, r.DecidedEarly :=
  ⟨.ended .waitJoin (some .alliance) [thirdPlayer, fourthPlayer], by decide +kernel, cons_ne_nil _ _⟩

/-- Logging out decides nothing early. -/
theorem undecided_run_logout :
    Undecided (run twoAgainstTwo (oneTeamInside ++ [.logout secondPlayer 0])) :=
  (undecided_run twoAgainstTwo_fresh rfl _).mpr (by
    simp [oneTeamInside, Run.Along, LeavesUncontested])

end IscServer.Battlegrounds
