import IscServer.ArenaTeams.ArenaTeamRecords

/-!
# When the Records of a Member Agree

The member lists, the character cache and the unit fields agree in a state (`World.Agreed`) if each
team is well formed, no player is in two teams of a type, and the id in either record is that of his
team, or zero if he has none. Steps are shown to keep this through an invariant that also speaks of
the member table and of logins that are under way (`World.Consistent`). What a step does is one of
two things: a player joins a team (`World.Joins`), or some members of a team leave it
(`World.Leaves`); a step that leaves the teams alone is one where nobody leaves.

## Main results

* `World.Consistent.agreed` — the invariant gives agreement.
* `World.Consistent.of_joins`, `World.Consistent.of_leaves` — the two kinds of steps keep it.
-/

namespace IscServer.ArenaTeams

variable {store : List ArenaTeam} {g guid : Guid} {ty type : ArenaTeamType} {id teamId v : ℕ}

/-- The id is that of the player's team of this type, or zero if he has none. -/
def TeamIdIs (store : List ArenaTeam) (guid : Guid) (type : ArenaTeamType) (v : ℕ) : Prop :=
  ∀ id, MemberOf store guid type id ↔ id ≠ 0 ∧ v = id

/-- A team of the store has this id and type. -/
def HasType (store : List ArenaTeam) (teamId : ℕ) (type : ArenaTeamType) : Prop :=
  ∃ team ∈ store, team.teamId = teamId ∧ team.type = type

/-- A team has at most twice as many members as fight on one side, none of them twice, and its
captain is one of them. -/
structure ArenaTeam.WellFormed (team : ArenaTeam) : Prop where
  size : team.members.length ≤ team.type.value * 2
  nodup : (team.members.map ArenaTeamMember.guid).Nodup
  captain : team.isMember team.captainGuid = true

theorem MemberOf.hasType (h : MemberOf store g ty id) : HasType store id ty := by
  obtain ⟨team, hmem, hid, hty, -⟩ := h
  exact ⟨team, hmem, hid, hty⟩

theorem TeamIdIs.eq (h : TeamIdIs store g ty v) (hmem : MemberOf store g ty id) : v = id :=
  ((h id).mp hmem).2

/-- The id of a team says what its type is. -/
theorem HasType.eq (hkeys : (store.map ArenaTeam.teamId).Nodup) (h : HasType store id ty)
    (h' : HasType store id type) : ty = type := by
  obtain ⟨team, hmem, hid, rfl⟩ := h
  obtain ⟨team', hmem', hid', rfl⟩ := h'
  rw [Keyed.eq_of_key hkeys hmem hmem' (hid.trans hid'.symm)]

namespace World

variable {w w' : World} {left : Guid → Prop}

/-- The three records agree. -/
structure Agreed (w : World) : Prop where
  teams : ∀ team ∈ w.arenaTeamStore, team.WellFormed
  unique : ∀ team ∈ w.arenaTeamStore, ∀ team' ∈ w.arenaTeamStore, team.type = team'.type →
    ∀ guid, team.isMember guid = true → team'.isMember guid = true → team = team'
  cache : ∀ guid type v, w.cacheId guid type = some v → TeamIdIs w.arenaTeamStore guid type v
  online : ∀ guid type v, w.fieldId guid type = some v → TeamIdIs w.arenaTeamStore guid type v

/-- The id has been given out; the counter is zero when it has come round. -/
def Issued (w : World) (id : ℕ) : Prop := w.nextArenaTeamId = 0 ∨ id < w.nextArenaTeamId

/-- The character is in the cache. -/
def Known (w : World) (guid : Guid) : Prop := ∀ type, w.cacheId guid type ≠ none

/-- What every step keeps as long as the records agree: besides their agreement, team ids are
distinct and have been given out, members and connected players are characters of the cache, the
member table has the rows of the members, and of the rows that a login has read no two are of
teams with the same type. -/
structure Consistent (w : World) : Prop where
  teams : ∀ team ∈ w.arenaTeamStore, team.WellFormed
  cache : ∀ guid type v, w.cacheId guid type = some v → TeamIdIs w.arenaTeamStore guid type v
  online : ∀ guid type v, w.fieldId guid type = some v → TeamIdIs w.arenaTeamStore guid type v
  keys : (w.arenaTeamStore.map ArenaTeam.teamId).Nodup
  issued : ∀ id type, HasType w.arenaTeamStore id type → id ≠ 0 ∧ w.Issued id
  counter : w.nextArenaTeamId < 2 ^ 32
  known : ∀ guid type id, MemberOf w.arenaTeamStore guid type id → w.Known guid
  onlineKnown : ∀ guid type, w.fieldId guid type ≠ none → w.Known guid
  rows : ∀ guid id, id ∈ w.memberRows guid ↔ ∃ type, MemberOf w.arenaTeamStore guid type id
  loading : ∀ guid arenaRows, w.loadingRows guid = some arenaRows → ∀ id ∈ arenaRows,
    w.Issued id ∧ ∀ id' ∈ arenaRows, ∀ type, HasType w.arenaTeamStore id type →
      HasType w.arenaTeamStore id' type → id = id'

/-- A member's cache entry has the id of his team. -/
theorem Consistent.cacheId_of_memberOf (h : w.Consistent) (hmem : MemberOf w.arenaTeamStore g ty id) :
    w.cacheId g ty = some id := by
  cases hcache : w.cacheId g ty with
  | none => exact absurd hcache (h.known g ty id hmem ty)
  | some v => rw [(h.cache g ty v hcache).eq hmem]

theorem Consistent.agreed (h : w.Consistent) : w.Agreed where
  teams := h.teams
  cache := h.cache
  online := h.online
  unique := by
    intro team hteam team' hteam' htype guid hmem hmem'
    have hid := h.cacheId_of_memberOf ⟨team, hteam, rfl, rfl, hmem⟩
    have hid' := h.cacheId_of_memberOf ⟨team', hteam', rfl, rfl, hmem'⟩
    rw [htype, hid'] at hid
    exact Keyed.eq_of_key h.keys hteam hteam' (Option.some.inj hid).symm

/-! ### Somebody joins -/

/-- The player joins the team with this id and type, and all records are told. -/
structure Joins (w w' : World) (guid : Guid) (type : ArenaTeamType) (teamId : ℕ) : Prop where
  member : ∀ g ty id, MemberOf w'.arenaTeamStore g ty id ↔
    MemberOf w.arenaTeamStore g ty id ∨ (g = guid ∧ ty = type ∧ id = teamId)
  cache : ∀ g ty, w'.cacheId g ty =
    if g = guid ∧ ty = type then (w.cacheId g ty).map fun _ => teamId else w.cacheId g ty
  field : ∀ g ty, w'.fieldId g ty =
    if g = guid ∧ ty = type then (w.fieldId g ty).map fun _ => teamId else w.fieldId g ty
  rows : ∀ g id, id ∈ w'.memberRows g ↔ id ∈ w.memberRows g ∨ (g = guid ∧ id = teamId)
  loading : ∀ g, w'.loadingRows g = w.loadingRows g
  hasType : ∀ id ty, HasType w'.arenaTeamStore id ty →
    HasType w.arenaTeamStore id ty ∨ ¬ w.Issued id

variable {record : Option ℕ}

/-- A record of the player who joined, and of the others. -/
theorem Joins.teamIdIs (hj : w.Joins w' guid type teamId) (hid : teamId ≠ 0)
    (hnone : TeamIdIs w.arenaTeamStore guid type 0)
    (h : ∀ v, record = some v → TeamIdIs w.arenaTeamStore g ty v)
    (hv : (if g = guid ∧ ty = type then record.map fun _ => teamId else record) = some v) :
    TeamIdIs w'.arenaTeamStore g ty v := by
  intro id
  rw [hj.member]
  split_ifs at hv with hg
  · obtain ⟨rfl, rfl⟩ := hg
    obtain ⟨-, -, rfl⟩ := Option.map_eq_some_iff.mp hv
    rw [hnone id]
    constructor
    · rintro (⟨hne, rfl⟩ | ⟨-, -, rfl⟩)
      · exact absurd rfl hne
      · exact ⟨hid, rfl⟩
    · rintro ⟨-, rfl⟩
      exact Or.inr ⟨rfl, rfl, rfl⟩
  · rw [h v hv id]
    constructor
    · rintro (hold | ⟨hguid, htype, -⟩)
      · exact hold
      · exact absurd ⟨hguid, htype⟩ hg
    · exact Or.inl

/-- **Joining** keeps the invariant, for a character without a team of the type. -/
theorem Consistent.of_joins (h : w.Consistent) (hj : w.Joins w' guid type teamId)
    (hzero : w.cacheId guid type = some 0) (hteams : ∀ team ∈ w'.arenaTeamStore, team.WellFormed)
    (hkeys : (w'.arenaTeamStore.map ArenaTeam.teamId).Nodup)
    (hids : ∀ id ty, HasType w'.arenaTeamStore id ty → id ≠ 0 ∧ w'.Issued id)
    (hissued : ∀ id, w.Issued id → w'.Issued id) (hcounter : w'.nextArenaTeamId < 2 ^ 32) :
    w'.Consistent := by
  have hnone := h.cache guid type 0 hzero
  have hhas : MemberOf w'.arenaTeamStore guid type teamId :=
    (hj.member guid type teamId).mpr (Or.inr ⟨rfl, rfl, rfl⟩)
  have hid : teamId ≠ 0 := (hids teamId type hhas.hasType).1
  have hknown : ∀ g, w.Known g → w'.Known g := by
    intro g hg ty hcache
    rw [hj.cache] at hcache
    split_ifs at hcache
    · exact hg ty (Option.map_eq_none_iff.mp hcache)
    · exact hg ty hcache
  have hguid : w.Known guid := by
    intro ty hcache
    rw [cacheId, Option.map_eq_none_iff] at hcache
    rw [cacheId, hcache] at hzero
    cases hzero
  refine ⟨hteams, ?_, ?_, hkeys, hids, hcounter, ?_, ?_, ?_, ?_⟩
  · intro g ty v hv
    rw [hj.cache] at hv
    exact hj.teamIdIs hid hnone (h.cache g ty) hv
  · intro g ty v hv
    rw [hj.field] at hv
    exact hj.teamIdIs hid hnone (h.online g ty) hv
  · intro g ty id hmem
    rcases (hj.member g ty id).mp hmem with hold | ⟨rfl, -, -⟩
    · exact hknown g (h.known g ty id hold)
    · exact hknown g hguid
  · intro g ty hfield
    refine hknown g (h.onlineKnown g ty ?_)
    rw [hj.field] at hfield
    split_ifs at hfield
    · exact fun hnone => hfield (Option.map_eq_none_iff.mpr hnone)
    · exact hfield
  · intro g id
    rw [hj.rows, h.rows]
    constructor
    · rintro (⟨ty, hmem⟩ | ⟨rfl, rfl⟩)
      · exact ⟨ty, (hj.member g ty id).mpr (Or.inl hmem)⟩
      · exact ⟨type, hhas⟩
    · rintro ⟨ty, hmem⟩
      rcases (hj.member g ty id).mp hmem with hold | ⟨rfl, -, rfl⟩
      · exact Or.inl ⟨ty, hold⟩
      · exact Or.inr ⟨rfl, rfl⟩
  · intro g arenaRows hrows id hmem
    rw [hj.loading] at hrows
    obtain ⟨hiss, hone⟩ := h.loading g arenaRows hrows id hmem
    refine ⟨hissued id hiss, fun id' hmem' ty hty hty' => hone id' hmem' ty ?_ ?_⟩
    · exact (hj.hasType id ty hty).resolve_right (not_not_intro hiss)
    · exact (hj.hasType id' ty hty').resolve_right
        (not_not_intro (h.loading g arenaRows hrows id' hmem').1)

/-! ### Somebody leaves -/

/-- Some members leave the team with this id and type, and all records are told. A player object or
a login may go away as well. -/
structure Leaves (w w' : World) (left : Guid → Prop) (type : ArenaTeamType) (teamId : ℕ) :
    Prop where
  were : ∀ g, left g → MemberOf w.arenaTeamStore g type teamId
  member : ∀ g ty id, MemberOf w'.arenaTeamStore g ty id ↔
    MemberOf w.arenaTeamStore g ty id ∧ ¬ (left g ∧ id = teamId)
  cache : ∀ g ty v, w'.cacheId g ty = some v →
    (left g ∧ ty = type ∧ v = 0) ∨ (¬ (left g ∧ ty = type) ∧ w.cacheId g ty = some v)
  known : ∀ g, w.Known g → w'.Known g
  field : ∀ g ty v, w'.fieldId g ty = some v → w.fieldId g ty ≠ none ∧
    ((left g ∧ ty = type ∧ v = 0) ∨ (¬ (left g ∧ ty = type) ∧ w.fieldId g ty = some v))
  rows : ∀ g id, id ∈ w'.memberRows g ↔ id ∈ w.memberRows g ∧ ¬ (left g ∧ id = teamId)
  loading : ∀ g arenaRows, w'.loadingRows g = some arenaRows → w.loadingRows g = some arenaRows
  hasType : ∀ id ty, HasType w'.arenaTeamStore id ty → HasType w.arenaTeamStore id ty

/-- A record of those who left, and of the others. -/
theorem Leaves.teamIdIs (hl : w.Leaves w' left type teamId) (h : w.Consistent)
    (hrecord : ∀ v, record = some v → TeamIdIs w.arenaTeamStore g ty v)
    (hv : (left g ∧ ty = type ∧ v = 0) ∨ (¬ (left g ∧ ty = type) ∧ record = some v)) :
    TeamIdIs w'.arenaTeamStore g ty v := by
  intro id
  rw [hl.member]
  rcases hv with ⟨hg, rfl, rfl⟩ | ⟨hg, hv⟩
  · constructor
    · rintro ⟨hmem, hnot⟩
      have hid := h.cacheId_of_memberOf hmem
      rw [h.cacheId_of_memberOf (hl.were g hg)] at hid
      exact absurd ⟨hg, (Option.some.inj hid).symm⟩ hnot
    · rintro ⟨hne, rfl⟩
      exact absurd rfl hne
  · rw [← hrecord v hv id]
    refine and_iff_left_of_imp fun hmem hleft => hg ⟨hleft.1, ?_⟩
    obtain ⟨hleft, rfl⟩ := hleft
    exact HasType.eq h.keys hmem.hasType (hl.were g hleft).hasType

/-- **Leaving** keeps the invariant. -/
theorem Consistent.of_leaves (h : w.Consistent) (hl : w.Leaves w' left type teamId)
    (hteams : ∀ team ∈ w'.arenaTeamStore, team.WellFormed)
    (hkeys : (w'.arenaTeamStore.map ArenaTeam.teamId).Nodup)
    (hnext : w'.nextArenaTeamId = w.nextArenaTeamId) : w'.Consistent := by
  have hissued : ∀ id, w'.Issued id ↔ w.Issued id := fun id => by rw [Issued, hnext, Issued]
  refine ⟨hteams, ?_, ?_, hkeys, ?_, by rw [hnext]; exact h.counter, ?_, ?_, ?_, ?_⟩
  · intro g ty v hv
    exact hl.teamIdIs h (h.cache g ty) (hl.cache g ty v hv)
  · intro g ty v hv
    exact hl.teamIdIs h (h.online g ty) (hl.field g ty v hv).2
  · intro id ty hty
    rw [hissued]
    exact h.issued id ty (hl.hasType id ty hty)
  · intro g ty id hmem
    exact hl.known g (h.known g ty id ((hl.member g ty id).mp hmem).1)
  · intro g ty hfield
    obtain ⟨v, hv⟩ := Option.ne_none_iff_exists'.mp hfield
    exact hl.known g (h.onlineKnown g ty (hl.field g ty v hv).1)
  · intro g id
    rw [hl.rows, h.rows]
    constructor
    · rintro ⟨⟨ty, hmem⟩, hnot⟩
      exact ⟨ty, (hl.member g ty id).mpr ⟨hmem, hnot⟩⟩
    · rintro ⟨ty, hmem⟩
      obtain ⟨hmem, hnot⟩ := (hl.member g ty id).mp hmem
      exact ⟨⟨ty, hmem⟩, hnot⟩
  · intro g arenaRows hrows id hmem
    obtain ⟨hiss, hone⟩ := h.loading g arenaRows (hl.loading g arenaRows hrows) id hmem
    rw [hissued]
    exact ⟨hiss, fun id' hmem' ty hty hty' =>
      hone id' hmem' ty (hl.hasType id ty hty) (hl.hasType id' ty hty')⟩

end World

end IscServer.ArenaTeams
