import IscServer.Battlegrounds.ArenaSides

/-!
# Closing a Battleground

After the end of a match, `Battleground::_ProcessLeave` counts the remaining time down and removes
everybody when it is over. The remaining time is read as an unsigned number, so it is over in the update
that brings it to zero exactly; an update that steps over zero leaves a time of several weeks.

## Main results

* `processLeave_players` — an update removes everybody, or nobody.
* `closedInTime_iff` — when a battleground is closed in time.
-/

namespace IscServer.Battlegrounds

namespace Match

open List

variable {s : Match} {diff : UInt32}

/-- What may happen to a battleground that has ended: a player leaves, or it is updated. -/
inductive Closing
  | leave (guid : Guid)
  | update (diff : UInt32) (now : ℕ) (setup : Bool)
  deriving Repr

/-- One such event. -/
def closing (s : Match) : Closing → Match
  | .leave guid => s.leaveBattleground guid
  | .update diff now setup => s.update diff now setup

/-- The loop of `_ProcessLeave` when the time is over: one `RemovePlayerAtLeave` for each player. -/
def removeAll (s : Match) (diff : UInt32) : Match :=
  ((s.bg.players.map (·.guid)).foldl removePlayerAtLeave
    { s with bg := { s.bg with remainingTime := 0 } }).addElapsedTime diff

/-- From a state in which `elapsed` milliseconds have passed since the end: no update removes anybody
before `TIME_AUTOCLOSE_BATTLEGROUND`, and the first one at which it has passed removes everybody. -/
def ClosedInTime (elapsed : ℕ) (s : Match) : List Closing → Prop
  | [] => True
  | .leave guid :: es => ClosedInTime elapsed (s.leaveBattleground guid) es
  | .update diff now setup :: es =>
    let updated := s.update diff now setup
    if elapsed + diff.toNat < timeAutocloseBattleground.toNat then
      updated.bg.players = s.bg.players ∧ ClosedInTime (elapsed + diff.toNat) updated es
    else updated.bg.players = [] ∧ (s.bg.players ≠ [] → updated = s.removeAll diff)

/-- The first update at which `TIME_AUTOCLOSE_BATTLEGROUND` has passed comes at that very moment, or
when nobody is left. -/
def EndsOnTime (elapsed : ℕ) (s : Match) : List Closing → Prop
  | [] => True
  | .leave guid :: es => EndsOnTime elapsed (s.leaveBattleground guid) es
  | .update diff now setup :: es =>
    if elapsed + diff.toNat < timeAutocloseBattleground.toNat then
      EndsOnTime (elapsed + diff.toNat) (s.update diff now setup) es
    else s.bg.players = [] ∨ elapsed + diff.toNat = timeAutocloseBattleground.toNat

/-! ### Leaving a match that has ended -/

/-- Whoever leaves is taken out of the players; the time goes on. -/
theorem bg_removePlayerAtLeave (h : s.bg.status = .waitLeave) (guid : Guid) : ∃ counts invited,
    (s.removePlayerAtLeave guid).bg = { s.bg with
      players := s.bg.players.filter fun e => !(e.guid = guid)
      playersCount := counts
      invitedCount := invited } := by
  obtain ⟨teams, log, hscore⟩ := scoreLeaver_eq s guid
  obtain ⟨player, hdeparted, -, -⟩ := departed_eq (s.scoreLeaver guid) guid
  obtain ⟨players, counts, herase⟩ := erasePlayer_eq s.bg guid
  have hplayers : players = s.bg.players.filter fun e => !(e.guid = guid) := by
    rw [← players_erasePlayer, herase]
  have hbg : ((s.scoreLeaver guid).departed guid).bg =
      { s.bg with players := players, playersCount := counts } := by
    rw [hdeparted, hscore, herase]
  have hhook : ((s.scoreLeaver guid).departed guid).removePlayer =
      (s.scoreLeaver guid).departed guid := by
    rw [removePlayer, if_neg (by simp [h])]
  have hforget : ∀ (t : Match) entry, ∃ invited,
      (t.forgetPlayer guid entry).bg = { t.bg with invitedCount := invited } := by
    intro t entry
    cases entry <;>
      · unfold forgetPlayer
        dsimp only
        split_ifs <;> exact ⟨_, rfl⟩
  obtain ⟨invited, heq⟩ := hforget ((s.scoreLeaver guid).departed guid) (s.bg.find guid)
  refine ⟨counts, invited, ?_⟩
  rw [removePlayerAtLeave_eq, hhook, heq, hbg, hplayers]

/-- Removing players one after the other. -/
theorem players_foldl_removePlayerAtLeave (guids : List Guid) (h : s.bg.status = .waitLeave) :
    (guids.foldl removePlayerAtLeave s).bg.players = s.bg.players.filter fun e => !(e.guid ∈ guids) := by
  induction guids generalizing s with
  | nil => simp
  | cons guid guids ih =>
    obtain ⟨_, _, hbg⟩ := bg_removePlayerAtLeave h guid
    rw [foldl_cons, ih (status_removePlayerAtLeave_of_waitLeave h), hbg, filter_filter]
    exact filter_congr fun e _ => by simp [Bool.and_comm]

/-- When the time is over nobody stays. -/
theorem players_removeAll (h : s.bg.status = .waitLeave) : (s.removeAll diff).bg.players = [] := by
  have hall := @players_foldl_removePlayerAtLeave { s with bg := { s.bg with remainingTime := 0 } }
    (s.bg.players.map (·.guid)) h
  refine hall.trans (filter_eq_nil_iff.mpr fun e he => ?_)
  simpa using ⟨e, he, rfl⟩

/-- **An update** removes everybody if it brings the time to zero, and nobody otherwise. -/
theorem update_closing (h : s.bg.status = .waitLeave) (hplayers : s.bg.players ≠ []) (now : ℕ)
    (setup : Bool) : s.update diff now setup =
      if s.bg.remainingTime - diff = 0 then s.removeAll diff
      else { s with bg := { s.bg with
        remainingTime := s.bg.remainingTime - diff, elapsedTime := s.bg.elapsedTime + diff } } := by
  rw [update, if_neg hplayers, h, processLeave]
  dsimp only
  split_ifs with hover
  · rw [hover]
    rfl
  · rfl

/-- An update of an empty battleground. -/
theorem update_empty (hplayers : s.bg.players = []) (now : ℕ) (setup : Bool) :
    ∃ gone, s.update diff now setup = { s with bg := { s.bg with setDeleteThis := gone } } := by
  rw [update, if_pos hplayers]
  split_ifs
  · exact ⟨true, rfl⟩
  · exact ⟨_, rfl⟩

/-! ### The run -/

/-- The match has ended, and the remaining time is what is left, unless nobody is left. -/
structure Waiting (elapsed : ℕ) (s : Match) : Prop where
  status : s.bg.status = .waitLeave
  remaining : s.bg.players ≠ [] → s.bg.remainingTime.toNat + elapsed = timeAutocloseBattleground.toNat

variable {elapsed : ℕ}

theorem Waiting.leave (h : Waiting elapsed s) (guid : Guid) :
    Waiting elapsed (s.leaveBattleground guid) := by
  rw [leaveBattleground]
  split_ifs
  · obtain ⟨_, _, hbg⟩ := bg_removePlayerAtLeave h.status guid
    refine ⟨status_removePlayerAtLeave_of_waitLeave h.status, fun hplayers => ?_⟩
    rw [hbg] at hplayers ⊢
    exact h.remaining fun hnil => hplayers (by rw [hnil, filter_nil])
  · exact ⟨h.status, h.remaining⟩
  · exact h

/-- **Before the time has passed** an update removes nobody. -/
theorem Waiting.update (h : Waiting elapsed s) (now : ℕ) (setup : Bool)
    (hearly : elapsed + diff.toNat < timeAutocloseBattleground.toNat) :
    (s.update diff now setup).bg.players = s.bg.players ∧
      Waiting (elapsed + diff.toNat) (s.update diff now setup) := by
  by_cases hplayers : s.bg.players = []
  · obtain ⟨gone, hsame⟩ := @update_empty s diff hplayers now setup
    rw [hsame]
    exact ⟨rfl, h.status, fun hne => absurd hplayers hne⟩
  · have hleft := h.remaining hplayers
    have hsub : (s.bg.remainingTime - diff).toNat = s.bg.remainingTime.toNat - diff.toNat :=
      UInt32.toNat_sub_of_le _ _ (UInt32.le_iff_toNat_le.mpr (by omega))
    have hnot : s.bg.remainingTime - diff ≠ 0 := by
      intro hzero
      rw [hzero, UInt32.toNat_zero] at hsub
      omega
    rw [update_closing h.status hplayers, if_neg hnot]
    refine ⟨rfl, h.status, fun _ => ?_⟩
    dsimp only
    omega

/-- The update at which the time has passed removes everybody exactly if it comes on time. -/
theorem Waiting.update_iff (h : Waiting elapsed s) (now : ℕ) (setup : Bool)
    (hlate : ¬ elapsed + diff.toNat < timeAutocloseBattleground.toNat) :
    (s.update diff now setup).bg.players = [] ∧
        (s.bg.players ≠ [] → s.update diff now setup = s.removeAll diff) ↔
      s.bg.players = [] ∨ elapsed + diff.toNat = timeAutocloseBattleground.toNat := by
  by_cases hplayers : s.bg.players = []
  · obtain ⟨gone, hsame⟩ := @update_empty s diff hplayers now setup
    rw [hsame]
    exact iff_of_true ⟨hplayers, fun hne => absurd hplayers hne⟩ (Or.inl hplayers)
  · have hleft := h.remaining hplayers
    have hzero : s.bg.remainingTime - diff = 0 ↔
        elapsed + diff.toNat = timeAutocloseBattleground.toNat := by
      have hdiff := diff.toNat_lt
      have hremaining := s.bg.remainingTime.toNat_lt
      rw [← UInt32.toNat_inj, UInt32.toNat_sub, UInt32.toNat_zero]
      omega
    rw [update_closing h.status hplayers, or_iff_right hplayers, ← hzero]
    split_ifs with hover
    · exact iff_of_true ⟨players_removeAll h.status, fun _ => rfl⟩ hover
    · exact iff_of_false (fun hgone => hplayers hgone.1) hover

theorem Waiting.closedInTime_iff (h : Waiting elapsed s) (es : List Closing) :
    ClosedInTime elapsed s es ↔ EndsOnTime elapsed s es := by
  induction es generalizing elapsed s with
  | nil => exact Iff.rfl
  | cons e es ih =>
    cases e with
    | leave guid => exact ih (h.leave guid)
    | update diff now setup =>
      rw [ClosedInTime, EndsOnTime]
      split_ifs with hearly
      · obtain ⟨hsame, hnext⟩ := h.update now setup hearly
        rw [and_iff_right hsame, ih hnext]
      · exact h.update_iff now setup hearly

theorem waiting_endBattleground (s : Match) (winner : Option Team) :
    Waiting 0 (s.endBattleground winner) := by
  rw [endBattleground]
  split_ifs <;> exact ⟨rfl, fun _ => rfl⟩

/-- **A finished battleground is closed in time** exactly if the first update at which
`TIME_AUTOCLOSE_BATTLEGROUND` has passed comes at that very moment, or finds nobody. -/
theorem closedInTime_endBattleground_iff (s : Match) (winner : Option Team) (es : List Closing) :
    ClosedInTime 0 (s.endBattleground winner) es ↔ EndsOnTime 0 (s.endBattleground winner) es :=
  (waiting_endBattleground s winner).closedInTime_iff es

/-- A battleground with one player. -/
def onePlayer : Match where
  bg := {
    instanceID := 1
    isArena := false
    isRated := false
    status := .inProgress
    events := 15
    startDelayTime := 0
    elapsedTime := 0
    remainingTime := 0
    players := [⟨⟨7, by decide⟩, .alliance, 0⟩]
    playersCount := fun _ => 1
    invitedCount := fun _ => 1
    offlineQueue := []
    arenaTeamIds := fun _ => 0
    setDeleteThis := false }
  queuedGroups := []
  player := fun _ => ⟨⟨true, .alliance, some .alliance, 1, some 1⟩, true, false⟩
  transit := []
  arenaTeams := fun _ => none
  log := []

/-- An update after one millisecond more than two minutes removes nobody. -/
theorem not_closedInTime_onePlayer :
    ¬ ClosedInTime 0 (onePlayer.endBattleground (some .alliance)) [.update 120001 0 true] := by
  rw [(waiting_endBattleground onePlayer _).closedInTime_iff]
  rintro (hempty | hlate)
  · cases hempty
  · exact absurd hlate (by decide)

end Match

end IscServer.Battlegrounds
