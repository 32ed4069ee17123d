import IscServer.Library.Run
import IscServer.ArenaTeams.ArenaTeamSteps

/-!
# Agreement of the Member Records over Runs

Over any run of events the records of who is in which arena team agree in every state exactly if no
event of four kinds occurs (`Diverges`):

* a player leaves a team of which he is no member while he has another team of its type — the handler
  does not ask for membership, and `DelMember` clears his unit fields by slot;
* a player who is connected, but not in the world, is entered as a member — `AddMember` looks for him
  among those in the world;
* a captain founds a team when the counter of team ids has come round to zero;
* a login finishes for a player who got into a team after his rows had been read.

## Main results

* `agreed_step_iff` — one event, from a state of the invariant.
* `agreed_run_iff` — whole runs.
* `leave_of_another_team` — a run in which a member of one team leaves another.
-/

namespace IscServer.ArenaTeams

variable {w : World} {team : ArenaTeam} {guid : Guid} {type : ArenaTeamType} {id : ℕ}
  {name : String}

/-- The event writes to one record and not to another. -/
def Diverges (w : World) : Event → Prop
  | .create captainGuid type teamName =>
    w.cacheId captainGuid type = some 0 ∧ w.isNameTaken teamName = false ∧
      (w.Absent captainGuid ∨ w.nextArenaTeamId = 0)
  | .addSigner arenaTeamId playerGuid =>
    ∃ team, w.getArenaTeamById arenaTeamId = some team ∧ w.canJoin team playerGuid = true ∧
      w.Absent playerGuid
  | .leave sender arenaTeamId inArena isInvited =>
    ∃ player team, w.findPlayer sender = some player ∧
      w.getArenaTeamById arenaTeamId = some team ∧ inArena = false ∧ isInvited = false ∧
      team.isMember sender = false ∧ player.arenaTeamId team.type.getSlot ≠ 0
  | .finishLoading guid =>
    ∃ arenaRows type id, w.loadingRows guid = some arenaRows ∧ w.cacheId guid type = some id ∧
      id ≠ 0 ∧ id ∉ arenaRows
  | _ => False

namespace World

/-! ### The packets -/

variable {player : Player} {isAllied : Bool}

/-- An invitation is written to the player object, or nothing is. -/
theorem Consistent.invite (h : w.Consistent) {invitedName : Option String}
    {isMaxLevel hasIgnore : Bool} :
    (w.handleArenaTeamInvite player id invitedName isMaxLevel hasIgnore isAllied).Consistent := by
  unfold handleArenaTeamInvite
  repeat' split
  all_goals first | exact h | exact h.modifyPlayer fun _ => rfl

theorem not_absent (h : w.findPlayer guid = some player) : ¬ w.Absent guid := by
  rintro ⟨-, hnone⟩
  rw [h] at hnone
  cases hnone

theorem Consistent.accept (h : w.Consistent) (hplayer : w.findPlayer guid = some player) :
    (w.handleArenaTeamAccept guid player isAllied).Consistent := by
  rw [handleArenaTeamAccept]
  cases hteam : w.getArenaTeamById player.arenaTeamIdInvited with
  | none => exact h
  | some team =>
    dsimp only
    split_ifs
    · exact h
    · exact h
    · exact h.addMemberOf (h.mem_store.mp hteam).1 fun _ => not_absent hplayer

variable {isInvited : Bool}

theorem Consistent.leave (h : w.Consistent) {inArena : Bool}
    (hplayer : w.findPlayer guid = some player)
    (hd : ¬ Diverges w (.leave guid id inArena isInvited)) :
    (w.handleArenaTeamLeave guid id inArena isInvited).Consistent := by
  rw [handleArenaTeamLeave]
  cases hteam : w.getArenaTeamById id with
  | none => exact h
  | some team =>
    have hmem := (h.mem_store.mp hteam).1
    dsimp only
    split_ifs with harena hcaptain hinvited hself
    · exact h
    · exact h
    · exact h
    · exact h.disband hmem
    · refine h.delMemberOf hmem (Ne.symm hself) fun hnot v hv => ?_
      rw [fieldId_of_connected (findConnectedPlayer_of_findPlayer hplayer)] at hv
      obtain rfl := Option.some.inj hv
      by_contra hne
      exact hd ⟨player, team, hplayer, hteam, Bool.eq_false_iff.mpr harena,
        Bool.eq_false_iff.mpr hinvited, hnot, hne⟩

variable {memberName : Option String} {isFighting : Bool}

theorem Consistent.remove (h : w.Consistent) :
    (w.handleArenaTeamRemove guid id memberName isInvited isFighting).Consistent := by
  rw [handleArenaTeamRemove]
  cases hteam : w.getArenaTeamById id with
  | none => exact h
  | some team =>
    dsimp only
    by_cases hsender : team.captainGuid ≠ guid
    · rw [if_pos hsender]
      exact h
    · rw [if_neg hsender]
      cases hmember : memberName.bind team.getMember with
      | none => exact h
      | some member =>
        obtain ⟨_, -, hget⟩ := Option.bind_eq_some_iff.mp hmember
        have hin := ArenaTeam.isMember_getMember hget
        dsimp only
        split_ifs with hcaptain
        · exact h
        · exact h
        · exact h
        · refine h.delMemberOf (h.mem_store.mp hteam).1 hcaptain fun hnot => ?_
          rw [hin] at hnot
          cases hnot

theorem Consistent.leader (h : w.Consistent) :
    (w.handleArenaTeamLeader guid id memberName).Consistent := by
  rw [handleArenaTeamLeader]
  cases hteam : w.getArenaTeamById id with
  | none => exact h
  | some team =>
    dsimp only
    by_cases hsender : team.captainGuid ≠ guid
    · rw [if_pos hsender]
      exact h
    · rw [if_neg hsender]
      cases hmember : memberName.bind team.getMember with
      | none => exact h
      | some member =>
        obtain ⟨_, -, hget⟩ := Option.bind_eq_some_iff.mp hmember
        dsimp only
        split_ifs
        · exact h
        · exact h.setCaptain (h.mem_store.mp hteam).1 (ArenaTeam.isMember_getMember hget)

theorem Consistent.disbandPacket (h : w.Consistent) :
    (w.handleArenaTeamDisband guid id isInvited isFighting).Consistent := by
  rw [handleArenaTeamDisband]
  cases hteam : w.getArenaTeamById id with
  | none => exact h
  | some team =>
    dsimp only
    split_ifs
    · exact h
    · exact h
    · exact h
    · exact h.disband (h.mem_store.mp hteam).1

/-! ### Logging in and out -/

variable {entry : CharacterCacheEntry} {arenaRows : List ℕ}

theorem finishLoading_eq (hentry : w.characterCache guid = some entry)
    (hloading : w.loadingRows guid = some arenaRows) : w.finishLoading guid =
      { w with
        sessions := Function.update w.sessions guid
          (.online ⟨entry.name, w.checkArenaTeams guid (w.loadArenaTeamInfo arenaRows), 0, true⟩)
        playerNameMap := Function.update w.playerNameMap entry.name (some guid) } := by
  rw [finishLoading, hentry]
  rw [loadingRows] at hloading
  cases hsession : w.sessions guid with
  | loading rows =>
    rw [hsession] at hloading
    obtain rfl := Option.some.inj hloading
    rfl
  | _ =>
    rw [hsession] at hloading
    cases hloading

theorem finishLoading_of_not_loading
    (h : w.characterCache guid = none ∨ w.loadingRows guid = none) : w.finishLoading guid = w := by
  rw [finishLoading]
  split
  · rename_i entry arenaRows hentry hsession
    rcases h with hnone | hnone
    · rw [hentry] at hnone
      cases hnone
    · rw [loadingRows, hsession] at hnone
      cases hnone
  · rfl

/-- The unit fields of the player who has come in, and of the others. -/
theorem fieldId_finishLoading (hentry : w.characterCache guid = some entry)
    (hloading : w.loadingRows guid = some arenaRows) (g : Guid) (ty : ArenaTeamType) :
    (w.finishLoading guid).fieldId g ty = if g = guid then
      some (w.checkArenaTeams guid (w.loadArenaTeamInfo arenaRows) ty.getSlot)
    else w.fieldId g ty := by
  rw [finishLoading_eq hentry hloading]
  split_ifs with hg
  · subst hg
    simp [fieldId, findConnectedPlayer]
  · refine fieldId_congr ?_
    exact Function.update_of_ne hg _ _

theorem Consistent.finishLoading (h : w.Consistent) (hd : ¬ Diverges w (.finishLoading guid)) :
    (w.finishLoading guid).Consistent := by
  cases hentry : w.characterCache guid with
  | none =>
    rw [finishLoading_of_not_loading (Or.inl hentry)]
    exact h
  | some entry =>
    cases hloading : w.loadingRows guid with
    | none =>
      rw [finishLoading_of_not_loading (Or.inr hloading)]
      exact h
    | some arenaRows =>
      have hfield := fieldId_finishLoading hentry hloading
      have heq := finishLoading_eq hentry hloading
      have hrows : ∀ g r, (w.finishLoading guid).loadingRows g = some r →
          w.loadingRows g = some r := by
        intro g r hr
        rw [heq] at hr
        by_cases hg : g = guid
        · subst hg
          simp [loadingRows] at hr
        · rw [← hr]
          exact (loadingRows_congr (Function.update_of_ne hg _ _)).symm
      generalize w.finishLoading guid = w' at hfield heq hrows
      subst heq
      refine ⟨h.teams, h.cache, ?_, h.keys, h.issued, h.counter, h.known, ?_, h.rows,
        fun g r hr => h.loading g r (hrows g r hr)⟩
      · intro g ty v hv
        rw [hfield] at hv
        split_ifs at hv with hg
        · subst hg
          obtain rfl := Option.some.inj hv
          refine h.teamIdIs_loaded hloading fun id hid hne => ?_
          by_contra hnot
          exact hd ⟨arenaRows, ty, id, hloading, hid, hne, hnot⟩
        · exact h.online g ty v hv
      · intro g ty hv
        rw [hfield] at hv
        split_ifs at hv with hg
        · subst hg
          intro ty' hnone
          have hnone : w.cacheId g ty' = none := hnone
          rw [cacheId_of_cache hentry] at hnone
          cases hnone
        · exact h.onlineKnown g ty hv

theorem Consistent.logout (h : w.Consistent) : (w.logout guid).Consistent := by
  refine h.of_sessions rfl rfl (fun _ _ => rfl) rfl ?_ ?_
  · intro g ty v hv
    by_cases hg : g = guid
    · subst hg
      simp [fieldId, findConnectedPlayer, World.logout] at hv
    · rw [← hv]
      exact (fieldId_congr (Function.update_of_ne hg _ _)).symm
  · intro g r hr
    by_cases hg : g = guid
    · subst hg
      simp [loadingRows, World.logout] at hr
    · rw [← hr]
      exact (loadingRows_congr (Function.update_of_ne hg _ _)).symm

/-! ### One event -/

theorem cacheId_eq_zero_or_not_known (hzero : w.getCharacterArenaTeamIdByGuid guid type = 0) :
    w.cacheId guid type = some 0 ∨ ¬ w.Known guid := by
  rw [getCharacterArenaTeamIdByGuid_eq] at hzero
  cases hcache : w.cacheId guid type with
  | none => exact Or.inr fun hknown => hknown type hcache
  | some v =>
    rw [hcache] at hzero
    exact Or.inl (congrArg some hzero)

/-- **One event** keeps the invariant unless it diverges. -/
theorem Consistent.step (h : w.Consistent) {e : Event} (hd : ¬ Diverges w e) :
    (step w e).Consistent := by
  cases e with
  | create captainGuid type teamName =>
    rw [ArenaTeams.step]
    by_cases hzero : w.getCharacterArenaTeamIdByGuid captainGuid type = 0
    · rw [if_neg (not_not_intro hzero)]
      rcases cacheId_eq_zero_or_not_known hzero with hcache | hunknown
      · refine h.create hcache fun hname => ?_
        exact not_or.mp fun hor => hd ⟨hcache, hname, hor⟩
      · rw [create_of_not_allowed fun hk => hunknown hk.1]
        exact h
    · rw [if_pos hzero]
      exact h
  | addSigner arenaTeamId playerGuid =>
    rw [ArenaTeams.step, addSigner]
    cases hteam : w.getArenaTeamById arenaTeamId with
    | none => exact h
    | some team =>
      exact h.addMemberOf (h.mem_store.mp hteam).1 fun hjoin habsent =>
        hd ⟨team, hteam, hjoin, habsent⟩
  | loadArenaRows guid => exact h.loadArenaRows
  | finishLoading guid => exact h.finishLoading hd
  | logout guid => exact h.logout
  | setInWorld guid inWorld => exact h.modifyPlayer fun _ => rfl
  | invite sender arenaTeamId name isMaxLevel hasIgnore isAllied =>
    rw [ArenaTeams.step, handlePacket]
    cases w.findPlayer sender with
    | none => exact h
    | some player => exact h.invite
  | accept sender isAllied =>
    rw [ArenaTeams.step, handlePacket]
    cases hplayer : w.findPlayer sender with
    | none => exact h
    | some player => exact h.accept hplayer
  | decline sender =>
    rw [ArenaTeams.step, handlePacket]
    cases w.findPlayer sender with
    | none => exact h
    | some player => exact h.modifyPlayer fun _ => rfl
  | leave sender arenaTeamId inArena isInvited =>
    rw [ArenaTeams.step, handlePacket]
    cases hplayer : w.findPlayer sender with
    | none => exact h
    | some player => exact h.leave hplayer hd
  | remove sender arenaTeamId name isInvited isFighting =>
    rw [ArenaTeams.step, handlePacket]
    cases w.findPlayer sender with
    | none => exact h
    | some player => exact h.remove
  | leader sender arenaTeamId name =>
    rw [ArenaTeams.step, handlePacket]
    cases w.findPlayer sender with
    | none => exact h
    | some player => exact h.leader
  | disband sender arenaTeamId isInvited isFighting =>
    rw [ArenaTeams.step, handlePacket]
    cases w.findPlayer sender with
    | none => exact h
    | some player => exact h.disbandPacket

/-! ### The events that diverge -/

/-- A member whose unit fields were not told. -/
theorem not_agreed_of_absent {w' : World} (hnone : TeamIdIs w.arenaTeamStore guid type 0)
    (h : w.Consistent) (habsent : w.Absent guid)
    (hfield : w'.fieldId guid type = w.fieldId guid type)
    (hmem : MemberOf w'.arenaTeamStore guid type id) : ¬ w'.Agreed := by
  intro hagreed
  obtain ⟨player, hplayer⟩ := Option.isSome_iff_exists.mp habsent.1
  have hold : w.fieldId guid type = some (player.arenaTeamId type.getSlot) :=
    fieldId_of_connected hplayer
  obtain ⟨hid, heq⟩ := (hagreed.online guid type _ (hfield.trans hold) id).mp hmem
  have hmember := (h.online guid type _ hold id).mpr ⟨hid, heq⟩
  exact hid ((hnone id).mp hmember).2.symm

theorem fieldId_recordMember_of_absent {v : World} (habsent : v.Absent guid) :
    (v.recordMember team guid).fieldId guid type = v.fieldId guid type := by
  rw [fieldId_recordMember, habsent.2]
  exact if_neg fun h => Bool.false_ne_true h.2

section

variable (h : w.Consistent)
include h

/-- A captain who is not in the world, or a team with the id zero. -/
theorem Consistent.create_diverges (hzero : w.cacheId guid type = some 0)
    (hname : w.isNameTaken name = false) (hor : w.Absent guid ∨ w.nextArenaTeamId = 0) :
    ¬ (w.create guid type name).Agreed := by
  obtain ⟨captainName, heq⟩ := h.create_eq hzero hname
  have hmem : MemberOf (w.create guid type name).arenaTeamStore guid type w.nextArenaTeamId := by
    rw [heq, store_create, memberOf_append]
    exact Or.inr ⟨rfl, rfl, (isMember_newTeam captainName).mpr rfl⟩
  rcases hor with habsent | hnext
  · refine not_agreed_of_absent (h.cache guid type 0 hzero) h habsent ?_ hmem
    rw [heq]
    exact fieldId_recordMember_of_absent (v := w.countTeam) habsent
  · intro hagreed
    have hcache : (w.create guid type name).cacheId guid type = some w.nextArenaTeamId := by
      rw [heq]
      refine cacheId_recordMember.trans ((if_pos ⟨rfl, rfl⟩).trans ?_)
      exact congrArg (Option.map fun _ => w.nextArenaTeamId) hzero
    exact ((hagreed.cache guid type _ hcache _).mp hmem).1 hnext

/-- A signer who is connected, but not in the world. -/
theorem Consistent.addMemberOf_diverges (hteam : team ∈ w.arenaTeamStore)
    (hjoin : w.canJoin team guid = true) (habsent : w.Absent guid) :
    ¬ (w.addMemberOf team guid).Agreed := by
  have hnone := h.cache guid team.type 0 (h.cacheId_of_canJoin hjoin)
  obtain ⟨name, hadd⟩ := addMember_of_canJoin hjoin
  have hmem : MemberOf (w.addMemberOf team guid).arenaTeamStore guid team.type team.teamId := by
    rw [World.addMemberOf, hadd]
    dsimp only [putArenaTeam]
    rw [store_recordMember, memberOf_put hteam (team.push guid name) rfl rfl,
      ArenaTeam.isMember_push]
    exact Or.inl ⟨rfl, rfl, Or.inr rfl⟩
  refine not_agreed_of_absent hnone h habsent ?_ hmem
  rw [World.addMemberOf, hadd]
  exact fieldId_recordMember_of_absent habsent

/-- A player leaves a team that is not his while he has one of its type. -/
theorem Consistent.leave_diverges (hplayer : w.findPlayer guid = some player)
    (hteam : w.getArenaTeamById id = some team) (hmem : team.isMember guid = false)
    (hfield : player.arenaTeamId team.type.getSlot ≠ 0) :
    ¬ (w.handleArenaTeamLeave guid id false false).Agreed := by
  have hin := (h.mem_store.mp hteam).1
  have hcaptain : guid ≠ team.captainGuid := by
    rintro rfl
    rw [(h.teams team hin).captain] at hmem
    cases hmem
  have hold : w.fieldId guid team.type = some (player.arenaTeamId team.type.getSlot) :=
    fieldId_of_connected (findConnectedPlayer_of_findPlayer hplayer)
  have hhis := (h.online guid team.type _ hold _).mpr ⟨hfield, rfl⟩
  have hstays : MemberOf (w.delMemberOf team guid).arenaTeamStore guid team.type
      (player.arenaTeamId team.type.getSlot) := by
    rw [store_delMemberOf, memberOf_put hin (team.erase guid) rfl rfl]
    refine Or.inr ⟨fun heq => ?_, hhis⟩
    rw [heq, memberOf_self h.keys hin, hmem] at hhis
    exact Bool.false_ne_true hhis.2
  have hcleared : (w.delMemberOf team guid).fieldId guid team.type = some 0 := by
    have hdrop : (w.dropMember team.type (team.isMember guid) guid).fieldId guid team.type =
        some 0 := by
      rw [fieldId_dropMember, if_pos ⟨rfl, rfl⟩, hold]
      rfl
    exact hdrop
  rw [handleArenaTeamLeave, hteam]
  dsimp only
  rw [if_neg Bool.false_ne_true, if_neg fun hc => hcaptain hc.1, if_neg Bool.false_ne_true,
    if_neg hcaptain]
  exact fun hagreed => hfield ((hagreed.online guid team.type 0 hcleared _).mp hstays).2.symm

/-- A login with rows that were read too early. -/
theorem Consistent.finishLoading_diverges (hloading : w.loadingRows guid = some arenaRows)
    (hcache : w.cacheId guid type = some id) (hid : id ≠ 0) (hrow : id ∉ arenaRows) : ¬ (w.finishLoading guid).Agreed := by
  obtain ⟨entry, hentry, -⟩ := Option.map_eq_some_iff.mp hcache
  have hmem := (h.cache guid type id hcache id).mpr ⟨hid, rfl⟩
  have hfield := fieldId_finishLoading hentry hloading guid type
  rw [if_pos rfl] at hfield
  have hstore : (w.finishLoading guid).arenaTeamStore = w.arenaTeamStore := by
    rw [finishLoading_eq hentry hloading]
  intro hagreed
  have honline := hagreed.online guid type _ hfield id
  rw [hstore] at honline
  obtain ⟨hloaded, -⟩ := (checkArenaTeams_eq_iff hid).mp (honline.mp hmem).2
  rcases loadArenaTeamInfo_mem (w := w) arenaRows type.getSlot with hzero | ⟨-, -, -, hin⟩
  · exact hid (hloaded.symm.trans hzero)
  · rw [hloaded] at hin
    exact hrow hin

theorem Consistent.not_agreed_of_diverges {e : Event} (hd : Diverges w e) :
    ¬ (ArenaTeams.step w e).Agreed := by
  cases e with
  | create captainGuid type teamName =>
    obtain ⟨hzero, hname, hor⟩ := hd
    have hid : w.getCharacterArenaTeamIdByGuid captainGuid type = 0 := by
      rw [getCharacterArenaTeamIdByGuid_eq, hzero]
      rfl
    rw [ArenaTeams.step, if_neg (not_not_intro hid)]
    exact h.create_diverges hzero hname hor
  | addSigner arenaTeamId playerGuid =>
    obtain ⟨team, hteam, hjoin, habsent⟩ := hd
    rw [ArenaTeams.step, addSigner, hteam]
    exact h.addMemberOf_diverges (h.mem_store.mp hteam).1 hjoin habsent
  | leave sender arenaTeamId inArena isInvited =>
    obtain ⟨player, team, hplayer, hteam, rfl, rfl, hmem, hfield⟩ := hd
    rw [ArenaTeams.step, handlePacket, hplayer]
    exact h.leave_diverges hplayer hteam hmem hfield
  | finishLoading guid =>
    obtain ⟨arenaRows, type, id, hloading, hcache, hid, hrow⟩ := hd
    exact h.finishLoading_diverges hloading hcache hid hrow
  | _ => exact absurd hd id

end

end World

/-! ### Runs -/

/-- **One event**: the records agree after it exactly if it does not diverge. -/
theorem agreed_step_iff (h : w.Consistent) (e : Event) : (step w e).Agreed ↔ ¬ Diverges w e :=
  ⟨fun hagreed hd => h.not_agreed_of_diverges hd hagreed, fun hd => (h.step hd).agreed⟩

/-- **Runs**: from a state of the invariant, the records agree after every event exactly if no event
diverges. -/
theorem agreed_run_iff (h : w.Consistent) (events : List Event) :
    Run.Along step (fun w e => (step w e).Agreed) w events ↔
      Run.Along step (fun w e => ¬ Diverges w e) w events :=
  Run.along_congr World.Consistent (fun _ e hw => agreed_step_iff hw e)
    (fun _ _ hw hd => hw.step hd) events h

/-- A server with three characters, and no arena team. -/
def emptyWorld : World where
  arenaTeamStore := []
  nextArenaTeamId := 1
  characterCache := fun guid => if guid < 3 then some ⟨"Player", fun _ => 0⟩ else none
  sessions := fun _ => .offline
  playerNameMap := fun _ => none
  memberRows := fun _ => []

theorem consistent_emptyWorld : emptyWorld.Consistent := by
  have hmem : ∀ g ty id, ¬ MemberOf emptyWorld.arenaTeamStore g ty id := by
    rintro g ty id ⟨team, hteam, -⟩
    cases hteam
  have htype : ∀ id ty, ¬ HasType emptyWorld.arenaTeamStore id ty := by
    rintro id ty ⟨team, hteam, -⟩
    cases hteam
  refine ⟨fun _ ht => absurd ht List.not_mem_nil, ?_, fun _ _ _ hv => (nomatch hv),
    List.nodup_nil, fun id ty hty => absurd hty (htype id ty), by decide,
    fun g ty id h => absurd h (hmem g ty id), fun _ _ hne => absurd rfl hne, ?_,
    fun _ _ hr => (nomatch hr)⟩
  · intro g ty v hv id
    have hzero : v = 0 := by
      obtain ⟨entry, hentry, rfl⟩ := Option.map_eq_some_iff.mp hv
      have hentry : (if g < 3 then some (⟨"Player", fun _ => 0⟩ : CharacterCacheEntry) else none) =
        some entry := hentry
      split_ifs at hentry
      obtain rfl := Option.some.inj hentry
      rfl
    exact ⟨fun h => absurd h (hmem g ty id), fun h => absurd (hzero.symm.trans h.2).symm h.1⟩
  · intro g id
    exact ⟨fun h => absurd h List.not_mem_nil, fun ⟨ty, h⟩ => absurd h (hmem g ty id)⟩

/-- Two captains log in and found a team each. -/
def twoTeams : List Event :=
  [.loadArenaRows 0, .finishLoading 0, .loadArenaRows 1, .finishLoading 1,
    .create 0 .arenaTeam2v2 "Reds", .create 1 .arenaTeam2v2 "Blues"]

/-- The theorem at a run in which two captains log in and found a team each. -/
theorem agreed_run_twoTeams :
    Run.Along step (fun w e => (step w e).Agreed) emptyWorld twoTeams := by
  have hlogin : ∀ w : World, ∀ guid, (∀ type, w.cacheId guid type = some 0) →
      ¬ Diverges w (.finishLoading guid) := by
    rintro w guid hzero ⟨-, type, id, -, hcache, hid, -⟩
    rw [hzero] at hcache
    exact hid (Option.some.inj hcache).symm
  have hcreate : ∀ w : World, ∀ guid type name, (w.findPlayer guid).isSome = true →
      w.nextArenaTeamId ≠ 0 → ¬ Diverges w (.create guid type name) := by
    rintro w guid type name hplayer hnext ⟨-, -, ⟨-, habsent⟩ | hzero⟩
    · rw [habsent] at hplayer
      cases hplayer
    · exact hnext hzero
  refine (agreed_run_iff consistent_emptyWorld twoTeams).mpr
    ⟨fun h => h, hlogin _ _ ?_, fun h => h, hlogin _ _ ?_, hcreate _ _ _ _ ?_ ?_,
      hcreate _ _ _ _ ?_ ?_, trivial⟩
  · rintro (_ | _ | _) <;> rfl
  · rintro (_ | _ | _) <;> rfl
  · decide +kernel
  · decide +kernel
  · decide +kernel
  · decide +kernel

/-- The first captain then leaves the team of the second. -/
def leaveOther : List Event := twoTeams ++ [.leave 0 2 false false]

/-- **A member of one team leaves another**: his unit fields are cleared, while the cache and the
member list of his own team still have him. -/
theorem leave_of_another_team : emptyWorld.Agreed ∧
    (leaveOther.foldl step emptyWorld).fieldId 0 .arenaTeam2v2 = some 0 ∧
    (leaveOther.foldl step emptyWorld).cacheId 0 .arenaTeam2v2 = some 1 ∧
    ¬ (leaveOther.foldl step emptyWorld).Agreed := by
  have hfield : (leaveOther.foldl step emptyWorld).fieldId 0 .arenaTeam2v2 = some 0 := by
    decide +kernel
  have hcache : (leaveOther.foldl step emptyWorld).cacheId 0 .arenaTeam2v2 = some 1 := by
    decide +kernel
  refine ⟨consistent_emptyWorld.agreed, hfield, hcache, fun hagreed => ?_⟩
  have hmem := (hagreed.cache 0 .arenaTeam2v2 1 hcache 1).mpr ⟨Nat.one_ne_zero, rfl⟩
  exact Nat.zero_ne_one ((hagreed.online 0 .arenaTeam2v2 0 hfield 1).mp hmem).2

end IscServer.ArenaTeams
