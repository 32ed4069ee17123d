import IscServer.Battlegrounds.BattlegroundCounters

/-!
# Who Is Inside an Arena and Who Fights

`CheckWinConditions` compares two kinds of numbers: the player counters of the sides and the
players of a side who are found, alive and not in the form of the spirit of redemption. When the
counters are exact both are statements about the entries of `m_Players`, also in the state in
which the hook `RemovePlayer` runs: the player who leaves is already out of `m_Players` and
revived, and everybody else is as before (`Match.departed`).

## Main results

* `Match.Counted.getPlayersCountByTeam_ne_zero_iff`, `Match.getAlivePlayersCountByTeam_eq_zero_iff`
  — what the two numbers say.
* `Match.checkWinConditions_cases` — when a match ends, and who has won.
* `Match.removePlayerAtLeave_eq` — leaving, with the state of the hook made explicit.
* `Match.Counted.getPlayersCountByTeam_departed` — who is inside when the hook runs.
-/

namespace IscServer.Battlegrounds

namespace Match

variable {s : Match} {guid : Guid} {t : Team}

/-- A player who is found, alive and not a spirit of redemption. -/
def fights (s : Match) (guid : Guid) : Bool :=
  s.findPlayer guid && (s.player guid).alive && !(s.player guid).spiritOfRedemption

/-- Somebody of a side is inside. -/
def Present (s : Match) (t : Team) : Prop := ∃ e ∈ s.bg.players, e.team = t

/-- Somebody of a side is inside and fights. -/
def Fighting (s : Match) (t : Team) : Prop :=
  ∃ e ∈ s.bg.players, e.team = t ∧ s.fights e.guid = true

/-- Somebody else of a side is inside. -/
def Remains (s : Match) (guid : Guid) (t : Team) : Prop :=
  ∃ e ∈ s.bg.players, e.guid ≠ guid ∧ e.team = t

/-- Somebody else of a side is inside and fights. -/
def FightsOn (s : Match) (guid : Guid) (t : Team) : Prop :=
  ∃ e ∈ s.bg.players, e.guid ≠ guid ∧ e.team = t ∧ s.fights e.guid = true

theorem Fighting.present (h : Fighting s t) : Present s t := by
  obtain ⟨e, he, hteam, -⟩ := h
  exact ⟨e, he, hteam⟩

theorem getAlivePlayersCountByTeam_eq_zero_iff :
    s.getAlivePlayersCountByTeam t = 0 ↔ ¬ Fighting s t := by
  rw [getAlivePlayersCountByTeam, List.countP_eq_zero, Fighting]
  constructor
  · rintro h ⟨e, he, hteam, hfights⟩
    refine h e he ?_
    rw [← fights, hfights, decide_eq_true hteam, Bool.and_self]
  · intro h e he hcount
    obtain ⟨hteam, hfights⟩ := (Bool.and_eq_true _ _).mp hcount
    exact h ⟨e, he, of_decide_eq_true hteam, hfights⟩

theorem insideCount_ne_zero_iff : s.ledger.insideCount t ≠ 0 ↔ Present s t := by
  rw [← countP_players, ← Nat.pos_iff_ne_zero, List.countP_pos_iff]
  simp only [decide_eq_true_eq, Present]

/-- With exact counters the player counter of a side says whether somebody is inside. -/
theorem Counted.getPlayersCountByTeam_ne_zero_iff (h : Counted s) :
    s.bg.getPlayersCountByTeam t ≠ 0 ↔ Present s t := by
  rw [← insideCount_ne_zero_iff]
  exact not_congr (h.sound.playersCount_eq_zero_iff t)

variable (winner : Option Team)

@[simp] theorem status_endBattleground : (s.endBattleground winner).bg.status = .waitLeave := by
  rw [endBattleground]
  split_ifs <;> rfl

theorem bg_records (rs : List Report) : (rs.foldl record s).bg = s.bg := by
  induction rs generalizing s with
  | nil => rfl
  | cons r rs ih => exact ih

@[simp] theorem isArena_endBattleground : (s.endBattleground winner).bg.isArena = s.bg.isArena := by
  rw [endBattleground]
  dsimp only
  split_ifs
  · rw [scoreMatch]
    split_ifs
    · exact (congrArg Battleground.isArena (bg_records _) : (List.foldl record _ _).bg.isArena = _)
    · rfl
  · rfl
  · rfl

/-- The question who has won changes nothing or ends the match. -/
theorem checkWinConditions_eq_or :
    s.checkWinConditions = s ∨ ∃ winner, s.checkWinConditions = s.endBattleground (some winner) := by
  rw [checkWinConditions]
  split_ifs
  · exact Or.inr ⟨_, rfl⟩
  · exact Or.inr ⟨_, rfl⟩
  · exact Or.inl rfl

/-- So does the hook. -/
theorem removePlayer_eq_or :
    s.removePlayer = s ∨ ∃ winner, s.removePlayer = s.endBattleground (some winner) := by
  rw [removePlayer]
  split_ifs
  · exact checkWinConditions_eq_or
  · exact Or.inl rfl

theorem status_removePlayer :
    s.removePlayer.bg.status = s.bg.status ∨ s.removePlayer.bg.status = .waitLeave := by
  obtain heq | ⟨winner, heq⟩ := @removePlayer_eq_or s
  · exact Or.inl (by rw [heq])
  · exact Or.inr (by rw [heq, status_endBattleground])

/-- What `CheckWinConditions` does, when the player counters say who is inside. -/
theorem checkWinConditions_cases (hcount : ∀ t, s.bg.getPlayersCountByTeam t ≠ 0 ↔ Present s t) :
    (¬ Fighting s .alliance ∧ Present s .horde ∧
        s.checkWinConditions = s.endBattleground (some .horde)) ∨
      (Present s .alliance ∧ ¬ Fighting s .horde ∧ (Present s .horde → Fighting s .alliance) ∧
        s.checkWinConditions = s.endBattleground (some .alliance)) ∨
      ((Present s .horde → Fighting s .alliance) ∧ (Present s .alliance → Fighting s .horde) ∧
        s.checkWinConditions = s) := by
  rw [checkWinConditions]
  split_ifs with hhorde halliance
  · obtain ⟨hnone, hpresent⟩ := hhorde
    exact Or.inl ⟨getAlivePlayersCountByTeam_eq_zero_iff.mp hnone, (hcount _).mp hpresent, rfl⟩
  · obtain ⟨hpresent, hnone⟩ := halliance
    refine Or.inr (Or.inl ⟨(hcount _).mp hpresent, getAlivePlayersCountByTeam_eq_zero_iff.mp hnone,
      fun hother => ?_, rfl⟩)
    by_contra hnot
    exact hhorde ⟨getAlivePlayersCountByTeam_eq_zero_iff.mpr hnot, (hcount _).mpr hother⟩
  · refine Or.inr (Or.inr ⟨fun hpresent => ?_, fun hpresent => ?_, rfl⟩)
    · by_contra hnot
      exact hhorde ⟨getAlivePlayersCountByTeam_eq_zero_iff.mpr hnot, (hcount _).mpr hpresent⟩
    · by_contra hnot
      exact halliance ⟨(hcount _).mpr hpresent, getAlivePlayersCountByTeam_eq_zero_iff.mpr hnot⟩

/-! ### The state of the hook -/

/-- The state in which the hook `RemovePlayer` of `RemovePlayerAtLeave` runs: the player is out of
`m_Players` and, if found, revived. -/
def departed (s : Match) (guid : Guid) : Match :=
  let s := { s with bg := s.bg.erasePlayer guid }
  if s.findPlayer guid then
    s.modifyPlayer guid fun p => { p with alive := true, spiritOfRedemption := false }
  else s

/-- Leaving: scoring, the state of the hook, the hook, and the rest. -/
theorem removePlayerAtLeave_eq (s : Match) (guid : Guid) : s.removePlayerAtLeave guid =
    ((s.scoreLeaver guid).departed guid).removePlayer.forgetPlayer guid (s.bg.find guid) := by
  obtain ⟨teams, log, hscore⟩ := scoreLeaver_eq s guid
  rw [removePlayerAtLeave, hscore]
  rfl

variable (b : Battleground)

theorem players_erasePlayer (guid : Guid) :
    (b.erasePlayer guid).players = b.players.filter fun e => !(e.guid = guid) := by
  rw [Battleground.erasePlayer]
  cases hfind : b.find guid with
  | none =>
    refine (List.filter_eq_self.mpr fun e he => ?_).symm
    simpa using Keyed.find_eq_none_iff.mp hfind e he
  | some entry => rfl

/-- What the hook's state shares with the state before. -/
theorem departed_eq (s : Match) (guid : Guid) : ∃ player,
    s.departed guid = { s with bg := s.bg.erasePlayer guid, player := player } ∧
      (∀ g, (player g).toTicket = (s.player g).toTicket) ∧
        ∀ g, g ≠ guid → player g = s.player g := by
  rw [departed]
  split_ifs
  · refine ⟨_, rfl, fun g => ?_, fun g hne => Function.update_of_ne hne ..⟩
    by_cases hg : g = guid
    · subst hg
      rw [Function.update_self]
    · rw [Function.update_of_ne hg]
  · exact ⟨s.player, rfl, fun _ => rfl, fun _ _ => rfl⟩

theorem erasePlayer_eq (guid : Guid) : ∃ players counts,
    b.erasePlayer guid = { b with players := players, playersCount := counts } := by
  rw [Battleground.erasePlayer]
  cases b.find guid with
  | none => exact ⟨_, _, rfl⟩
  | some entry => exact ⟨_, _, rfl⟩

theorem players_departed :
    (s.departed guid).bg.players = s.bg.players.filter fun e => !(e.guid = guid) := by
  obtain ⟨player, h, -, -⟩ := departed_eq s guid
  rw [h]
  exact players_erasePlayer s.bg guid

theorem mem_players_departed {e : BattlegroundPlayer} :
    e ∈ (s.departed guid).bg.players ↔ e ∈ s.bg.players ∧ e.guid ≠ guid := by
  rw [players_departed, List.mem_filter]
  simp

@[simp] theorem status_departed : (s.departed guid).bg.status = s.bg.status := by
  obtain ⟨player, h, -, -⟩ := departed_eq s guid
  obtain ⟨players, counts, hb⟩ := erasePlayer_eq s.bg guid
  rw [h, hb]

@[simp] theorem isArena_departed : (s.departed guid).bg.isArena = s.bg.isArena := by
  obtain ⟨player, h, -, -⟩ := departed_eq s guid
  obtain ⟨players, counts, hb⟩ := erasePlayer_eq s.bg guid
  rw [h, hb]

@[simp] theorem log_departed : (s.departed guid).log = s.log := by
  obtain ⟨player, h, -, -⟩ := departed_eq s guid
  rw [h]

theorem fights_departed {g : Guid} (hne : g ≠ guid) : (s.departed guid).fights g = s.fights g := by
  obtain ⟨player, h, -, hplayer⟩ := departed_eq s guid
  rw [h, fights, findPlayer, fights, findPlayer]
  dsimp only
  rw [hplayer g hne]

theorem awaited_departed : (s.departed guid).awaited t = s.awaited t := by
  obtain ⟨player, h, hticket, -⟩ := departed_eq s guid
  obtain ⟨players, counts, hb⟩ := erasePlayer_eq s.bg guid
  have hteam : ∀ g, (player g).getBGTeam = (s.player g).getBGTeam := fun g => by rw [hticket g]
  rw [h, hb, awaited, awaited, queuedHere, queuedHere, inTransit, inTransit]
  simp only [hteam]

theorem fighting_departed_iff : Fighting (s.departed guid) t ↔ s.FightsOn guid t := by
  refine exists_congr fun e => ?_
  rw [mem_players_departed, and_assoc]
  refine and_congr_right fun _ => and_congr_right fun hne => ?_
  rw [fights_departed hne]

theorem present_departed_iff : Present (s.departed guid) t ↔ s.Remains guid t :=
  exists_congr fun e => by rw [mem_players_departed, and_assoc]

/-- The player counters also say who is inside when the hook runs. -/
theorem Counted.getPlayersCountByTeam_departed (h : Counted s) :
    (s.departed guid).bg.getPlayersCountByTeam t ≠ 0 ↔ Present (s.departed guid) t := by
  have hledger : (s.departed guid).ledger =
      ({ s with bg := s.bg.erasePlayer guid } : Match).ledger := by
    obtain ⟨player, hdep, hticket, -⟩ := departed_eq s guid
    rw [hdep]
    simp only [ledger, hticket]
  have hcount : (s.departed guid).ledger.playersCount t = 0 ↔
      (s.departed guid).ledger.insideCount t = 0 := by
    rw [hledger]
    cases hfind : s.bg.find guid with
    | none =>
      rw [ledger_erasePlayer_none hfind]
      exact h.sound.playersCount_eq_zero_iff t
    | some e =>
      have hkey : e.guid = guid := Keyed.key_of_find hfind
      have hleft := h.sound.leave guid
      have hfound : Keyed.find Prod.fst s.ledger.inside guid = some (e.guid, e.team) := by
        rw [find_inside, hfind]
        rfl
      rw [Ledger.leave, hfound] at hleft
      rw [ledger_erasePlayer_some hfind]
      subst hkey
      split_ifs at hleft
      · exact hleft.playersCount_eq_zero_iff t
      · exact hleft.playersCount_eq_zero_iff t
  exact (not_congr hcount).trans insideCount_ne_zero_iff

variable (entry : Option BattlegroundPlayer)

@[simp] theorem isArena_forgetPlayer : (s.forgetPlayer guid entry).bg.isArena = s.bg.isArena := by
  cases entry <;>
    · unfold forgetPlayer
      dsimp only
      split_ifs <;> rfl

@[simp] theorem status_forgetPlayer : (s.forgetPlayer guid entry).bg.status = s.bg.status := by
  cases entry <;>
    · unfold forgetPlayer
      dsimp only
      split_ifs <;> rfl

@[simp] theorem log_forgetPlayer : (s.forgetPlayer guid entry).log = s.log := by
  cases entry <;>
    · unfold forgetPlayer
      dsimp only
      split_ifs <;> rfl

@[simp] theorem status_scoreLeaver : (s.scoreLeaver guid).bg.status = s.bg.status := by
  obtain ⟨teams, log, h⟩ := scoreLeaver_eq s guid
  rw [h]

@[simp] theorem isArena_scoreLeaver : (s.scoreLeaver guid).bg.isArena = s.bg.isArena := by
  obtain ⟨teams, log, h⟩ := scoreLeaver_eq s guid
  rw [h]

@[simp] theorem isArena_removePlayerAtLeave :
    (s.removePlayerAtLeave guid).bg.isArena = s.bg.isArena := by
  rw [removePlayerAtLeave_eq, isArena_forgetPlayer]
  obtain heq | ⟨winner, heq⟩ := @removePlayer_eq_or ((s.scoreLeaver guid).departed guid)
  · rw [heq, isArena_departed, isArena_scoreLeaver]
  · rw [heq, isArena_endBattleground, isArena_departed, isArena_scoreLeaver]

/-- Leaving a match that has ended. -/
theorem status_removePlayerAtLeave_of_waitLeave (h : s.bg.status = .waitLeave) :
    (s.removePlayerAtLeave guid).bg.status = .waitLeave := by
  have hhook : ((s.scoreLeaver guid).departed guid).bg.status = .waitLeave := by simp [h]
  rw [removePlayerAtLeave_eq, status_forgetPlayer]
  obtain hsame | hended := @status_removePlayer ((s.scoreLeaver guid).departed guid)
  · rw [hsame, hhook]
  · exact hended

end Match

end IscServer.Battlegrounds
