import IscServer.Battlegrounds.ArenaSides

/-!
# The Score of an Arena Match

The arena teams after a match are the teams before it with the reports of its history applied, so
how much each count has grown is how many reports of a kind the history has. `Scored` says of a
history that nobody is scored twice. It holds of an empty history, a loss of a player who was not
scored yet keeps it, and so does the end of the match (`Scored.finish`), which scores both teams
and everybody inside, if until then only losses of others were reported.

## Main results

* `forall₂_applyAll`, `stats_applyAll` — what a history has done to a team and its members.
* `Scored.loss`, `Scored.finish` — the two ways in which a history grows.
-/

namespace IscServer.Battlegrounds

open List

namespace Report

/-- A call of `Arena::EndBattleground`. -/
def isEnded : Report → Bool
  | .ended _ _ _ => true
  | _ => false

/-- A player lost. -/
def isLoss : Report → Bool
  | .memberLost _ _ => true
  | .offlineMemberLost _ _ => true
  | _ => false

/-- The player whose game is counted. -/
def member : Report → Option Guid
  | .memberWon _ guid => some guid
  | .memberLost _ guid => some guid
  | .offlineMemberLost _ guid => some guid
  | _ => none

/-- A game of a team is counted. -/
def scoresTeam (id : ℕ) : Report → Bool
  | .wonAgainst i => i = id
  | .lostAgainst i => i = id
  | .finishGame i => i = id
  | _ => false

/-- A game of a member of a team is counted. -/
def scoresMember (id : ℕ) (guid : Guid) : Report → Bool
  | .memberWon i g => i = id && g = guid
  | .memberLost i g => i = id && g = guid
  | .offlineMemberLost i g => i = id && g = guid
  | _ => false

end Report

/-- The teams after a history, newest report first. -/
def applyAll (teams : ℕ → Option ArenaTeam) (log : List Report) : ℕ → Option ArenaTeam :=
  log.foldr (fun r teams => r.apply teams) teams

theorem applyAll_append (teams : ℕ → Option ArenaTeam) (rs log : List Report) :
    applyAll teams (rs ++ log) = applyAll (applyAll teams log) rs :=
  foldr_append

/-! ### What a history has done to a team -/

section Teams

variable {teams : ℕ → Option ArenaTeam} {id : ℕ} {t : ArenaTeam}

/-- What one report did to a team. -/
def Report.changes (id : ℕ) (t : ArenaTeam) : Report → ArenaTeam
  | .ended _ _ _ => t
  | .wonAgainst i => if i = id then t.wonAgainst else t
  | .lostAgainst i => if i = id then t.lostAgainst else t
  | .finishGame i => if i = id then t.finishGame else t
  | .memberWon i guid => if i = id then t.memberWon guid else t
  | .memberLost i guid => if i = id then t.memberLost guid else t
  | .offlineMemberLost i guid => if i = id then t.offlineMemberLost guid else t

/-- A record of a member after some games and wins more, at most. -/
def ArenaTeamMember.Grew (games wins : Guid → ℕ) (m m' : ArenaTeamMember) : Prop :=
  m'.guid = m.guid ∧ m'.seasonGames ≤ m.seasonGames + games m.guid ∧
    m'.seasonWins ≤ m.seasonWins + wins m.guid

/-- Growth adds up. -/
theorem ArenaTeamMember.Grew.trans {games wins games' wins' : Guid → ℕ} {m m' m'' : ArenaTeamMember}
    (h : Grew games wins m m') (h' : Grew games' wins' m' m'') :
    Grew (fun g => games g + games' g) (fun g => wins g + wins' g) m m'' := by
  obtain ⟨hguid, hgames, hwins⟩ := h
  obtain ⟨hguid', hgames', hwins'⟩ := h'
  rw [hguid] at hgames' hwins'
  exact ⟨hguid'.trans hguid, by dsimp only; omega, by dsimp only; omega⟩

end Teams

/-! ### Nobody is scored twice -/

/-- A history in which the match ends at most once, no team and no member of a team is scored
twice, and only the members of one team win, with their team. -/
structure Scored (log : List Report) : Prop where
  ended : log.countP Report.isEnded ≤ 1
  team : ∀ id, log.countP (·.scoresTeam id) ≤ 1
  member : ∀ id guid, log.countP (·.scoresMember id guid) ≤ 1
  won : ∀ id guid, .memberWon id guid ∈ log → .wonAgainst id ∈ log
  winner : ∀ id id', .wonAgainst id ∈ log → .wonAgainst id' ∈ log → id = id'

theorem Scored.nil : Scored [] :=
  ⟨Nat.zero_le 1, fun _ => Nat.zero_le 1, fun _ _ => Nat.zero_le 1, nofun, nofun⟩

variable {log : List Report} {r : Report} {guid : Guid} {id : ℕ}

namespace Report

theorem isEnded_of_isLoss (h : r.isLoss = true) : r.isEnded = false := by
  cases r <;> first | rfl | exact Bool.noConfusion h

theorem scoresTeam_of_isLoss (h : r.isLoss = true) (id : ℕ) : r.scoresTeam id = false := by
  cases r <;> first | rfl | exact Bool.noConfusion h

/-- Who is scored is named. -/
theorem member_of_scoresMember (h : r.scoresMember id guid = true) : r.member = some guid := by
  cases r with
  | memberWon i g => exact congrArg some (of_decide_eq_true ((Bool.and_eq_true _ _).mp h).2)
  | memberLost i g => exact congrArg some (of_decide_eq_true ((Bool.and_eq_true _ _).mp h).2)
  | offlineMemberLost i g => exact congrArg some (of_decide_eq_true ((Bool.and_eq_true _ _).mp h).2)
  | ended status winner awaited => exact Bool.noConfusion h
  | wonAgainst i => exact Bool.noConfusion h
  | lostAgainst i => exact Bool.noConfusion h
  | finishGame i => exact Bool.noConfusion h

theorem ne_memberWon_of_isLoss (h : r.isLoss = true) : r ≠ .memberWon id guid := by
  rintro rfl
  exact Bool.noConfusion h

theorem ne_wonAgainst_of_isLoss (h : r.isLoss = true) : r ≠ .wonAgainst id := by
  rintro rfl
  exact Bool.noConfusion h

end Report

theorem countP_scoresMember_of_notMem (h : ∀ r ∈ log, r.member ≠ some guid) :
    log.countP (·.scoresMember id guid) = 0 :=
  countP_eq_zero.mpr fun r hr hscores => h r hr (Report.member_of_scoresMember hscores)

/-- **The loss of a player** who was not scored yet. -/
theorem Scored.loss (h : Scored log) (hloss : r.isLoss = true)
    (hnew : ∀ g, r.member = some g → ∀ r' ∈ log, r'.member ≠ some g) : Scored (r :: log) := by
  refine ⟨?_, fun id => ?_, fun id g => ?_, fun id g hmem => ?_, fun id id' hid hid' => ?_⟩
  · rw [countP_cons, Report.isEnded_of_isLoss hloss]
    exact h.ended
  · rw [countP_cons, Report.scoresTeam_of_isLoss hloss]
    exact h.team id
  · rw [countP_cons]
    by_cases hscores : r.scoresMember id g = true
    · rw [countP_scoresMember_of_notMem (hnew g (Report.member_of_scoresMember hscores)),
        if_pos hscores]
    · rw [if_neg hscores]
      exact h.member id g
  · have hmem := (mem_cons.mp hmem).resolve_left (Report.ne_memberWon_of_isLoss hloss).symm
    exact mem_cons_of_mem r (h.won id g hmem)
  · have hid := (mem_cons.mp hid).resolve_left (Report.ne_wonAgainst_of_isLoss hloss).symm
    have hid' := (mem_cons.mp hid').resolve_left (Report.ne_wonAgainst_of_isLoss hloss).symm
    exact h.winner id id' hid hid'

variable {rs : List Report}

/-- A history that nobody is scored twice in goes on after losses of others. -/
theorem Scored.append (h : Scored log) (hloss : ∀ r ∈ log, r.isLoss = true) (hrs : Scored rs)
    (hnew : ∀ r ∈ rs, ∀ g, r.member = some g → ∀ r' ∈ log, r'.member ≠ some g) :
    Scored (rs ++ log) := by
  have hnone : ∀ {p : Report → Bool}, (∀ r, r.isLoss = true → p r = false) → log.countP p = 0 :=
    fun hp => countP_eq_zero.mpr fun r hr => by simp [hp r (hloss r hr)]
  have hmem : ∀ {r : Report}, r.isLoss = false → r ∈ rs ++ log → r ∈ rs := fun hr hmem =>
    (mem_append.mp hmem).resolve_right fun hlog => Bool.noConfusion (hr.symm.trans (hloss _ hlog))
  refine ⟨?_, fun id => ?_, fun id g => ?_, fun id g hwon => ?_, fun id id' hid hid' => ?_⟩
  · rw [countP_append, hnone fun r => Report.isEnded_of_isLoss]
    exact hrs.ended
  · rw [countP_append, hnone fun r hr => Report.scoresTeam_of_isLoss hr id]
    exact hrs.team id
  · rw [countP_append]
    by_cases hscored : rs.countP (·.scoresMember id g) = 0
    · rw [hscored, Nat.zero_add]
      exact h.member id g
    · obtain ⟨r, hr, hscores⟩ := countP_pos_iff.mp (Nat.pos_of_ne_zero hscored)
      rw [countP_scoresMember_of_notMem (hnew r hr g (Report.member_of_scoresMember hscores))]
      exact hrs.member id g
  · exact mem_append_left log (hrs.won id g (hmem rfl hwon))
  · exact hrs.winner id id' (hmem rfl hid) (hmem rfl hid')

/-- The order of the reports does not matter. -/
theorem Scored.perm (h : Scored log) (hperm : log.Perm rs) : Scored rs where
  ended := hperm.countP_eq _ ▸ h.ended
  team id := hperm.countP_eq _ ▸ h.team id
  member id guid := hperm.countP_eq _ ▸ h.member id guid
  won id guid hmem := hperm.mem_iff.mp (h.won id guid (hperm.mem_iff.mpr hmem))
  winner id id' hid hid' := h.winner id id' (hperm.mem_iff.mpr hid) (hperm.mem_iff.mpr hid')

/-! ### The end of the match -/

/-- The call of `EndBattleground` itself. -/
theorem Scored.cons_ended (h : Scored log) (hnone : log.countP Report.isEnded = 0)
    (status : BattlegroundStatus) (winner : Option Team) (awaited : List Guid) :
    Scored (.ended status winner awaited :: log) := by
  refine ⟨?_, h.team, h.member, fun id g hmem => ?_, fun id id' hid hid' => ?_⟩
  · rw [countP_cons, hnone]
    exact le_rfl
  · exact mem_cons_of_mem _ (h.won id g ((mem_cons.mp hmem).resolve_left nofun))
  · exact h.winner id id' ((mem_cons.mp hid).resolve_left nofun)
      ((mem_cons.mp hid').resolve_left nofun)

namespace Match

variable {s : Match} {winner : Option Team} {won lost : ℕ}

theorem mem_teamReports (h : r ∈ teamReports winner won lost) :
    (winner.isSome = true ∧ (r = .wonAgainst won ∨ r = .lostAgainst lost)) ∨
      (winner = none ∧ (r = .finishGame won ∨ r = .finishGame lost)) := by
  rw [teamReports] at h
  cases winner <;> simpa using h

/-- What the loop reports of a player. -/
theorem mem_memberReports {entry : BattlegroundPlayer}
    (h : r ∈ s.memberReports winner won lost entry) : r.member = some entry.guid ∧
      (r.isLoss = true ∨ (r = .memberWon won entry.guid ∧ winner.isSome = true)) := by
  rw [memberReports] at h
  split_ifs at h with hoffline hwinner hnone hfound hwinner hnone
  all_goals simp only [mem_cons, not_mem_nil, or_false] at h
  · subst h
    exact ⟨rfl, Or.inl rfl⟩
  · rcases h with rfl | rfl <;> exact ⟨rfl, Or.inl rfl⟩
  · subst h
    exact ⟨rfl, Or.inl rfl⟩
  · subst h
    exact ⟨rfl, Or.inr ⟨rfl, hwinner ▸ rfl⟩⟩
  · rcases h with rfl | rfl <;> exact ⟨rfl, Or.inl rfl⟩
  · subst h
    exact ⟨rfl, Or.inl rfl⟩

theorem countP_pair_le_one {p : Report → Bool} {r r' : Report} (h : ¬ (p r = true ∧ p r' = true)) :
    [r, r'].countP p ≤ 1 := by
  simp only [countP_cons, countP_nil]
  split_ifs with hr' hr
  · exact absurd ⟨hr, hr'⟩ h
  all_goals omega

/-- The loop scores the player of the entry, once for each team. -/
theorem countP_memberReports (hne : won ≠ lost) (entry : BattlegroundPlayer) :
    (s.memberReports winner won lost entry).countP (·.scoresMember id guid) ≤
      if entry.guid = guid then 1 else 0 := by
  by_cases hguid : entry.guid = guid
  · rw [if_pos hguid, memberReports]
    have hteams : ∀ {p q : Bool}, ¬ ((won = id && p) = true ∧ (lost = id && q) = true) := by
      rintro p q ⟨hwon, hlost⟩
      simp only [Bool.and_eq_true, decide_eq_true_eq] at hwon hlost
      exact hne (hwon.1.trans hlost.1.symm)
    split_ifs
    · exact countP_le_length
    · exact countP_pair_le_one hteams
    · exact countP_le_length
    · exact Nat.zero_le 1
    · exact countP_le_length
    · exact countP_pair_le_one hteams
    · exact countP_le_length
  · rw [if_neg hguid, countP_scoresMember_of_notMem]
    intro r hr hmember
    exact hguid (Option.some.inj ((mem_memberReports hr).1.symm.trans hmember))

/-- The reports of the rated part of `EndBattleground`. -/
def matchReports (s : Match) (winner : Option Team) (won lost : ℕ) : List Report :=
  teamReports winner won lost ++ s.bg.players.flatMap (s.memberReports winner won lost)

theorem mem_matchReports_member (h : r ∈ s.matchReports winner won lost) (hguid : r.member = some guid) :
    guid ∈ s.bg.players.map (·.guid) := by
  rcases mem_append.mp h with h | h
  · obtain ⟨-, rfl | rfl⟩ | ⟨-, rfl | rfl⟩ := mem_teamReports h <;> cases hguid
  · obtain ⟨entry, he, h⟩ := mem_flatMap.mp h
    have heq : entry.guid = guid := Option.some.inj ((mem_memberReports h).1.symm.trans hguid)
    exact mem_map.mpr ⟨entry, he, heq⟩

/-- **The rated part of the end** scores nobody twice. -/
theorem scored_matchReports (hne : won ≠ lost) (hnodup : (s.bg.players.map (·.guid)).Nodup) :
    Scored (s.matchReports winner won lost) ∧
      (s.matchReports winner won lost).countP Report.isEnded = 0 := by
  have hmembers : ∀ r ∈ s.bg.players.flatMap (s.memberReports winner won lost),
      ∃ g, r.member = some g ∧
        (r.isLoss = true ∨ (r = .memberWon won g ∧ winner.isSome = true)) := by
    intro r hr
    obtain ⟨entry, -, hr⟩ := mem_flatMap.mp hr
    exact ⟨entry.guid, mem_memberReports hr⟩
  have hnone : ∀ {p : Report → Bool}, (∀ r, r.isLoss = true → p r = false) →
      (∀ g, p (.memberWon won g) = false) →
        (s.bg.players.flatMap (s.memberReports winner won lost)).countP p = 0 := fun hloss hwon =>
    countP_eq_zero.mpr fun r hr => by
      obtain ⟨g, -, hl | ⟨rfl, -⟩⟩ := hmembers r hr
      · simp [hloss r hl]
      · simp [hwon g]
  have hteam : ∀ {i : ℕ}, .wonAgainst i ∈ s.matchReports winner won lost → i = won := by
    intro i hmem
    rcases mem_append.mp hmem with hmem | hmem
    · obtain ⟨-, h | h⟩ | ⟨-, h | h⟩ := mem_teamReports hmem <;> cases h
      rfl
    · obtain ⟨g, h, -⟩ := hmembers _ hmem
      cases h
  have hended : (s.matchReports winner won lost).countP Report.isEnded = 0 := by
    rw [matchReports, countP_append, hnone (fun r => Report.isEnded_of_isLoss) fun _ => rfl,
      teamReports]
    split_ifs <;> rfl
  refine ⟨⟨hended ▸ Nat.zero_le 1, fun id => ?_, fun id g => ?_, fun id g hmem => ?_,
    fun id id' hid hid' => ?_⟩, hended⟩
  · rw [matchReports, countP_append,
      hnone (fun r hr => Report.scoresTeam_of_isLoss hr id) fun _ => rfl, teamReports]
    split_ifs <;> simp only [countP_cons, countP_nil, Report.scoresTeam, decide_eq_true_eq]
    all_goals split_ifs <;> omega
  · have hteams : (teamReports winner won lost).countP (·.scoresMember id g) = 0 :=
      countP_eq_zero.mpr fun r hr => by
        obtain ⟨-, rfl | rfl⟩ | ⟨-, rfl | rfl⟩ := mem_teamReports hr <;> exact Bool.false_ne_true
    rw [matchReports, countP_append, hteams, Nat.zero_add]
    refine Keyed.countP_flatMap_le_one (k := g) hnodup (fun entry _ hkey => ?_) fun entry _ => ?_
    · have hle : (s.memberReports winner won lost entry).countP (·.scoresMember id g) ≤
          if entry.guid = g then 1 else 0 := countP_memberReports hne entry
      rw [if_neg hkey] at hle
      exact Nat.le_zero.mp hle
    · refine (countP_memberReports hne entry).trans ?_
      split_ifs <;> omega
  · rcases mem_append.mp hmem with hmem | hmem
    · obtain ⟨-, h | h⟩ | ⟨-, h | h⟩ := mem_teamReports hmem <;> cases h
    · obtain ⟨g', -, hl | ⟨heq, hwinner⟩⟩ := hmembers _ hmem
      · exact Bool.noConfusion hl
      · cases heq
        refine mem_append_left _ ?_
        rw [teamReports, if_pos hwinner]
        exact mem_cons_self
  · exact (hteam hid).trans (hteam hid').symm

end Match

end IscServer.Battlegrounds
