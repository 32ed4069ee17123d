import IscServer.ArenaTeams.ArenaTeamMgr

/-!
# The Records of a Member, Read Off the World

Each record of who is in which arena team is read off the world by a function of its own: the
member lists (`MemberOf`), the cache (`cacheId`), the unit fields (`fieldId`), the member table and
the rows a login has read (`loadingRows`). This module says what the writes of the source do to
each of them, and from it what `AddMember`, `DelMember` and `Disband` do.

## Main results

* `World.cacheId_recordMember`, `World.fieldId_recordMember` — a new member.
* `World.cacheId_dropMember`, `World.fieldId_dropMember` — a member that is deleted.
* `World.disband_eq` — `Disband` drops the members one after the other; `World.cacheId_dropMembers`,
  `World.fieldId_dropMembers` say what that does.
-/

namespace IscServer.ArenaTeams

/-- A team of the store with this id and type has the player as a member. -/
def MemberOf (store : List ArenaTeam) (guid : Guid) (type : ArenaTeamType) (teamId : ℕ) : Prop :=
  ∃ team ∈ store, team.teamId = teamId ∧ team.type = type ∧ team.isMember guid = true

theorem ArenaTeam.isMember_iff {team : ArenaTeam} {guid : Guid} :
    team.isMember guid = true ↔ guid ∈ team.members.map ArenaTeamMember.guid := by
  simp [ArenaTeam.isMember]

namespace World

variable {w : World} {guid g : Guid} {type ty : ArenaTeamType} {id : ℕ} {team : ArenaTeam}

/-- The team id in the character cache. -/
def cacheId (w : World) (guid : Guid) (type : ArenaTeamType) : Option ℕ :=
  (w.characterCache guid).map fun entry => entry.arenaTeamId type.getSlot

/-- The team id in the unit fields of a connected player. -/
def fieldId (w : World) (guid : Guid) (type : ArenaTeamType) : Option ℕ :=
  (w.findConnectedPlayer guid).map fun player => player.arenaTeamId type.getSlot

/-- The rows that a login has read. -/
def loadingRows (w : World) (guid : Guid) : Option (List ℕ) :=
  match w.sessions guid with
  | .loading arenaRows => some arenaRows
  | _ => none

theorem cacheId_of_cache {entry : CharacterCacheEntry} (h : w.characterCache guid = some entry) :
    w.cacheId guid type = some (entry.arenaTeamId type.getSlot) := by
  rw [cacheId, h]
  rfl

variable {player : Player}

theorem fieldId_of_connected (h : w.findConnectedPlayer guid = some player) :
    w.fieldId guid type = some (player.arenaTeamId type.getSlot) := by
  rw [fieldId, h]
  rfl

theorem findConnectedPlayer_of_findPlayer (h : w.findPlayer guid = some player) :
    w.findConnectedPlayer guid = some player := (Option.filter_eq_some_iff.mp h).1

theorem getCharacterArenaTeamIdByGuid_eq :
    w.getCharacterArenaTeamIdByGuid guid type = (w.cacheId guid type).getD 0 := by
  rw [getCharacterArenaTeamIdByGuid, cacheId]
  cases w.characterCache guid <;> rfl

/-! ### The single writes -/

/-- The cache after one of its ids was written. -/
theorem cacheId_update : (w.updateCharacterArenaTeamId guid type.getSlot id).cacheId g ty =
    if g = guid ∧ ty = type then (w.cacheId g ty).map fun _ => id else w.cacheId g ty := by
  rw [updateCharacterArenaTeamId]
  cases hcache : w.characterCache guid with
  | none =>
    split_ifs with h
    · rw [cacheId, h.1, hcache]
      rfl
    · rfl
  | some entry =>
    by_cases hg : g = guid
    · subst hg
      by_cases hty : ty = type
      · subst hty
        simp [cacheId, hcache]
      · have hslot : ty.getSlot ≠ type.getSlot := fun h => hty (ArenaTeamType.getSlot_inj.mp h)
        simp [cacheId, hcache, hty, hslot]
    · simp [cacheId, hg]

variable {f : Player → Player}

/-- The unit fields after a player object was written to. -/
theorem findConnectedPlayer_modify :
    (w.modifyPlayer guid f).findConnectedPlayer g =
      if g = guid then (w.findConnectedPlayer g).map f else w.findConnectedPlayer g := by
  rw [modifyPlayer]
  cases hsession : w.sessions guid with
  | online player =>
    by_cases hg : g = guid
    · subst hg
      simp [findConnectedPlayer, hsession]
    · simp [findConnectedPlayer, hg]
  | _ =>
    split_ifs with hg
    · simp [findConnectedPlayer, hg, hsession]
    · rfl

theorem fieldId_modify (hf : ∀ player, (f player).arenaTeamId = player.arenaTeamId) :
    (w.modifyPlayer guid f).fieldId g ty = w.fieldId g ty := by
  rw [fieldId, findConnectedPlayer_modify, fieldId]
  split_ifs with h
  · cases w.findConnectedPlayer g with
    | none => rfl
    | some player => simp [hf]
  · rfl

theorem fieldId_modify_set (type : ArenaTeamType) (id : ℕ)
    (hf : ∀ player, (f player).arenaTeamId = Function.update player.arenaTeamId type.getSlot id) :
    (w.modifyPlayer guid f).fieldId g ty =
      if g = guid ∧ ty = type then (w.fieldId g ty).map fun _ => id else w.fieldId g ty := by
  rw [fieldId, findConnectedPlayer_modify, fieldId]
  by_cases hg : g = guid
  · rw [if_pos hg]
    cases w.findConnectedPlayer g with
    | none =>
      split_ifs <;> rfl
    | some player =>
      by_cases hty : ty = type
      · subst hty
        simp [hf, hg]
      · have hslot : ty.getSlot ≠ type.getSlot := fun h => hty (ArenaTeamType.getSlot_inj.mp h)
        simp [hf, hty, hslot]
  · rw [if_neg hg, if_neg fun h => hg h.1]

theorem loadingRows_modify : (w.modifyPlayer guid f).loadingRows g = w.loadingRows g := by
  rw [modifyPlayer]
  cases hsession : w.sessions guid with
  | online player =>
    by_cases hg : g = guid
    · subst hg
      simp [loadingRows, hsession]
    · simp [loadingRows, hg]
  | _ => rfl

variable {slot : Fin 3}

@[simp]
theorem store_update :
    (w.updateCharacterArenaTeamId guid slot id).arenaTeamStore = w.arenaTeamStore := by
  rw [updateCharacterArenaTeamId]
  cases w.characterCache guid <;> rfl

@[simp]
theorem next_update :
    (w.updateCharacterArenaTeamId guid slot id).nextArenaTeamId = w.nextArenaTeamId := by
  rw [updateCharacterArenaTeamId]
  cases w.characterCache guid <;> rfl

@[simp]
theorem sessions_update : (w.updateCharacterArenaTeamId guid slot id).sessions = w.sessions := by
  rw [updateCharacterArenaTeamId]
  cases w.characterCache guid <;> rfl

@[simp]
theorem memberRows_update :
    (w.updateCharacterArenaTeamId guid slot id).memberRows = w.memberRows := by
  rw [updateCharacterArenaTeamId]
  cases w.characterCache guid <;> rfl

/-- Nothing but the sessions is touched when a player object is written to. -/
theorem modifyPlayer_eq (w : World) (guid : Guid) (f : Player → Player) :
    ∃ sessions, w.modifyPlayer guid f = { w with sessions := sessions } := by
  rw [modifyPlayer]
  cases w.sessions guid with
  | online player => exact ⟨_, rfl⟩
  | _ => exact ⟨w.sessions, rfl⟩

@[simp] theorem store_modify : (w.modifyPlayer guid f).arenaTeamStore = w.arenaTeamStore := by
  obtain ⟨sessions, h⟩ := w.modifyPlayer_eq guid f
  rw [h]

@[simp] theorem next_modify : (w.modifyPlayer guid f).nextArenaTeamId = w.nextArenaTeamId := by
  obtain ⟨sessions, h⟩ := w.modifyPlayer_eq guid f
  rw [h]

@[simp] theorem memberRows_modify : (w.modifyPlayer guid f).memberRows = w.memberRows := by
  obtain ⟨sessions, h⟩ := w.modifyPlayer_eq guid f
  rw [h]

@[simp]
theorem cacheId_modify {f : Player → Player} :
    (w.modifyPlayer guid f).cacheId g ty = w.cacheId g ty := by
  obtain ⟨sessions, h⟩ := w.modifyPlayer_eq guid f
  rw [h]
  rfl

variable {w' : World}

section

variable (h : w'.sessions g = w.sessions g)
include h

/-- What the session of a player says depends on nothing else. -/
theorem fieldId_congr : w'.fieldId g ty = w.fieldId g ty := by
  rw [fieldId, findConnectedPlayer, h]
  rfl

theorem loadingRows_congr : w'.loadingRows g = w.loadingRows g := by
  rw [loadingRows, h]
  rfl

theorem findPlayer_congr : w'.findPlayer g = w.findPlayer g := by
  rw [findPlayer, findConnectedPlayer, h]
  rfl

end

/-! ### A new member -/

@[simp]
theorem store_recordMember : (w.recordMember team guid).arenaTeamStore = w.arenaTeamStore := by
  unfold recordMember
  dsimp only
  split <;> simp [insertMemberRow]

@[simp]
theorem next_recordMember : (w.recordMember team guid).nextArenaTeamId = w.nextArenaTeamId := by
  unfold recordMember
  dsimp only
  split <;> simp [insertMemberRow]

theorem memberRows_recordMember : (w.recordMember team guid).memberRows =
    Function.update w.memberRows guid (w.memberRows guid ++ [team.teamId]) := by
  unfold recordMember
  dsimp only
  split <;> simp [insertMemberRow]

theorem loadingRows_recordMember : (w.recordMember team guid).loadingRows g = w.loadingRows g := by
  unfold recordMember
  dsimp only
  split
  · exact loadingRows_congr (congrFun sessions_update g)
  · rw [loadingRows_modify]
    exact loadingRows_congr (congrFun sessions_update g)

theorem cacheId_recordMember : (w.recordMember team guid).cacheId g ty =
    if g = guid ∧ ty = team.type then (w.cacheId g ty).map fun _ => team.teamId
    else w.cacheId g ty := by
  unfold recordMember
  dsimp only
  split
  · exact cacheId_update
  · rw [cacheId_modify]
    exact cacheId_update

/-- The unit fields get the id only if the player is in the world. -/
theorem fieldId_recordMember : (w.recordMember team guid).fieldId g ty =
    if (g = guid ∧ ty = team.type) ∧ (w.findPlayer guid).isSome then
      (w.fieldId g ty).map fun _ => team.teamId
    else w.fieldId g ty := by
  have hsessions : ((w.updateCharacterArenaTeamId guid team.type.getSlot
      team.teamId).insertMemberRow team.teamId guid).sessions = w.sessions := sessions_update
  have hplayer : ((w.updateCharacterArenaTeamId guid team.type.getSlot
      team.teamId).insertMemberRow team.teamId guid).findPlayer guid = w.findPlayer guid :=
    findPlayer_congr (congrFun hsessions guid)
  have hfield : ((w.updateCharacterArenaTeamId guid team.type.getSlot
      team.teamId).insertMemberRow team.teamId guid).fieldId g ty = w.fieldId g ty :=
    fieldId_congr (congrFun hsessions g)
  unfold recordMember
  dsimp only
  cases hfound : w.findPlayer guid with
  | none =>
    rw [hfound] at hplayer
    rw [hplayer, hfield, if_neg (by simp)]
  | some player =>
    rw [hfound] at hplayer
    rw [hplayer]
    rw [fieldId_modify_set team.type team.teamId fun _ => rfl, hfield]
    simp

/-! ### A member that is deleted -/

/-- What `DelMember` writes outside the team and the member table, for a player who was found in the
team or not. -/
def dropMember (w : World) (type : ArenaTeamType) (found : Bool) (guid : Guid) : World :=
  (if found then w.updateCharacterArenaTeamId guid type.getSlot 0 else w).modifyPlayer guid
    fun player => Player.setArenaTeamId player type.getSlot 0

theorem delMember_eq (cleanDb : Bool) : w.delMember team guid cleanDb =
    ({ team with members := team.members.eraseP fun m => m.guid = guid },
      if cleanDb then (w.dropMember team.type (team.isMember guid) guid).deleteMemberRow
        team.teamId guid
      else w.dropMember team.type (team.isMember guid) guid) := rfl

variable {found : Bool}

@[simp]
theorem store_dropMember : (w.dropMember type found guid).arenaTeamStore = w.arenaTeamStore := by
  rw [dropMember, store_modify]
  split_ifs <;> simp

@[simp]
theorem next_dropMember : (w.dropMember type found guid).nextArenaTeamId = w.nextArenaTeamId := by
  rw [dropMember, next_modify]
  split_ifs <;> simp

@[simp]
theorem memberRows_dropMember : (w.dropMember type found guid).memberRows = w.memberRows := by
  rw [dropMember, memberRows_modify]
  split_ifs <;> simp

theorem sessions_of_found : (if found then w.updateCharacterArenaTeamId guid type.getSlot 0
    else w).sessions = w.sessions := by
  split_ifs <;> simp

theorem loadingRows_dropMember :
    (w.dropMember type found guid).loadingRows g = w.loadingRows g := by
  rw [dropMember, loadingRows_modify]
  exact loadingRows_congr (congrFun sessions_of_found g)

theorem cacheId_dropMember : (w.dropMember type found guid).cacheId g ty =
    if (g = guid ∧ ty = type) ∧ found then (w.cacheId g ty).map fun _ => 0 else w.cacheId g ty := by
  rw [dropMember, cacheId_modify]
  cases found with
  | false => simp
  | true =>
    rw [if_pos rfl, cacheId_update]
    simp

/-- The unit fields are cleared in any case. -/
theorem fieldId_dropMember : (w.dropMember type found guid).fieldId g ty =
    if g = guid ∧ ty = type then (w.fieldId g ty).map fun _ => 0 else w.fieldId g ty := by
  rw [dropMember, fieldId_modify_set type 0 fun _ => rfl,
    fieldId_congr (congrFun sessions_of_found g)]

/-! ### All members are deleted -/

/-- `DelMember` for one member after the other. -/
def dropMembers (w : World) (type : ArenaTeamType) (members : List ArenaTeamMember) : World :=
  members.foldl (fun w m => w.dropMember type true m.guid) w

/-- The loop of `Disband` finds each member it deletes at the front of the list. -/
theorem foldl_delMember (w : World) (team : ArenaTeam) (members : List ArenaTeamMember) :
    members.foldl (fun (p : ArenaTeam × World) m => p.2.delMember p.1 m.guid false)
      ({ team with members := members }, w) =
    ({ team with members := [] }, w.dropMembers team.type members) := by
  induction members generalizing w with
  | nil => rfl
  | cons m members ih =>
    have hfound : ArenaTeam.isMember { team with members := m :: members } m.guid = true := by
      simp [ArenaTeam.isMember]
    rw [List.foldl_cons, delMember_eq, hfound, List.eraseP_cons_of_pos (by simp)]
    exact ih _

theorem disband_eq : w.disband team =
    ((w.dropMembers team.type team.members).deleteTeamRows team.teamId).removeArenaTeam
      team.teamId := by
  have h := foldl_delMember w team team.members
  rw [disband, h]

variable {members : List ArenaTeamMember}

@[simp]
theorem store_dropMembers : (w.dropMembers type members).arenaTeamStore = w.arenaTeamStore := by
  induction members generalizing w with
  | nil => rfl
  | cons m members ih => exact ih.trans store_dropMember

@[simp]
theorem next_dropMembers : (w.dropMembers type members).nextArenaTeamId = w.nextArenaTeamId := by
  induction members generalizing w with
  | nil => rfl
  | cons m members ih => exact ih.trans next_dropMember

@[simp]
theorem memberRows_dropMembers : (w.dropMembers type members).memberRows = w.memberRows := by
  induction members generalizing w with
  | nil => rfl
  | cons m members ih => exact ih.trans memberRows_dropMember

theorem loadingRows_dropMembers : (w.dropMembers type members).loadingRows g = w.loadingRows g := by
  induction members generalizing w with
  | nil => rfl
  | cons m members ih => exact ih.trans loadingRows_dropMember

/-- A record that each deletion sets to zero for the player it deletes, and leaves alone for the
others, is zero in the end for those who were deleted. -/
theorem record_dropMembers (record : World → Option ℕ)
    (hrecord : ∀ w m, record (dropMember w type true m) =
      if g = m ∧ ty = type then (record w).map fun _ => 0 else record w) :
    record (w.dropMembers type members) =
      if g ∈ members.map ArenaTeamMember.guid ∧ ty = type then (record w).map fun _ => 0
      else record w := by
  induction members generalizing w with
  | nil => simp [dropMembers]
  | cons m members ih =>
    rw [dropMembers, List.foldl_cons, ← dropMembers, ih, hrecord]
    by_cases hty : ty = type <;> by_cases hm : g = m.guid <;>
      by_cases hmem : g ∈ members.map ArenaTeamMember.guid <;>
      simp_all [Function.comp_def]

theorem cacheId_dropMembers : (w.dropMembers type members).cacheId g ty =
    if g ∈ members.map ArenaTeamMember.guid ∧ ty = type then (w.cacheId g ty).map fun _ => 0
    else w.cacheId g ty := by
  refine record_dropMembers (fun w => w.cacheId g ty) fun w m => ?_
  rw [cacheId_dropMember]
  simp

theorem fieldId_dropMembers : (w.dropMembers type members).fieldId g ty =
    if g ∈ members.map ArenaTeamMember.guid ∧ ty = type then (w.fieldId g ty).map fun _ => 0
    else w.fieldId g ty :=
  record_dropMembers (fun w => w.fieldId g ty) fun _ _ => fieldId_dropMember

end World

end IscServer.ArenaTeams
