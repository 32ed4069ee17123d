import IscServer.ArenaTeams.ArenaTeamAgree

/-!
# What the Steps Do to the Records

Each operation of the source is shown to be one of the two kinds of steps: `AddMember` lets a player
join, `DelMember` and `Disband` let members leave, and the rest leaves the teams alone. Two
operations do so only under a condition: `AddMember` tells the unit fields only of a player who is
in the world, and `DelMember` clears them for a player who is no member.

## Main results

* `World.addMemberOf_joins`, `World.create_joins` — a player joins.
* `World.delMemberOf_leaves`, `World.disband_leaves` — members leave.
* `World.Consistent.finishLoading` — a login that has read the rows of all teams of the player.
-/

namespace IscServer.ArenaTeams

open List Function Option Bool Keyed

variable {store : List ArenaTeam} {team new : ArenaTeam} {g guid : Guid} {ty type : ArenaTeamType}
  {id teamId v : ℕ} {name : String}

/-! ### Teams of the store -/

theorem memberOf_self (hkeys : (store.map ArenaTeam.teamId).Nodup) (hteam : team ∈ store) :
    MemberOf store g ty team.teamId ↔ ty = team.type ∧ team.isMember g = true := by
  constructor
  · rintro ⟨team', hteam', hid, rfl, hmem⟩
    rw [← eq_of_key hkeys hteam' hteam hid]
    exact ⟨rfl, hmem⟩
  · rintro ⟨rfl, hmem⟩
    exact ⟨team, hteam, rfl, rfl, hmem⟩

section

variable (hteam : team ∈ store) (new : ArenaTeam) (hid : new.teamId = team.teamId)
  (htype : new.type = team.type)
include hteam hid htype

/-- The members after one team has been written back. -/
theorem memberOf_put : MemberOf (Keyed.put ArenaTeam.teamId store new) g ty id ↔
      (id = team.teamId ∧ ty = team.type ∧ new.isMember g = true) ∨
      (id ≠ team.teamId ∧ MemberOf store g ty id) := by
  have hkey : new.teamId ∈ store.map ArenaTeam.teamId := hid ▸ mem_map_of_mem hteam
  constructor
  · rintro ⟨team', hteam', rfl, rfl, hmem⟩
    rcases mem_put_iff.mp hteam' with ⟨rfl, -⟩ | ⟨hold, hne⟩
    · exact Or.inl ⟨hid, htype, hmem⟩
    · exact Or.inr ⟨hid ▸ hne, team', hold, rfl, rfl, hmem⟩
  · rintro (⟨rfl, rfl, hmem⟩ | ⟨hne, team', hold, rfl, rfl, hmem⟩)
    · exact ⟨new, mem_put_iff.mpr (Or.inl ⟨rfl, hkey⟩), hid, htype, hmem⟩
    · exact ⟨team', mem_put_iff.mpr (Or.inr ⟨hold, hid ▸ hne⟩), rfl, rfl, hmem⟩

theorem hasType_of_put (h : HasType (Keyed.put ArenaTeam.teamId store new) id ty) :
    HasType store id ty := by
  obtain ⟨team', hteam', rfl, rfl⟩ := h
  rcases mem_put_iff.mp hteam' with ⟨rfl, -⟩ | ⟨hold, -⟩
  · exact ⟨team, hteam, hid.symm, htype.symm⟩
  · exact ⟨team', hold, rfl, rfl⟩

end

theorem wellFormed_of_put (hstore : ∀ team ∈ store, team.WellFormed) (hnew : new.WellFormed) :
    ∀ team ∈ Keyed.put ArenaTeam.teamId store new, team.WellFormed := by
  intro team hteam
  rcases mem_put_iff.mp hteam with ⟨rfl, -⟩ | ⟨hold, -⟩
  · exact hnew
  · exact hstore team hold

/-- The members after a team has been added. -/
theorem memberOf_append : MemberOf (store ++ [new]) g ty id ↔ MemberOf store g ty id ∨
    (new.teamId = id ∧ new.type = ty ∧ new.isMember g = true) := by
  simp [MemberOf]

theorem hasType_append : HasType (store ++ [new]) id ty ↔ HasType store id ty ∨
    (new.teamId = id ∧ new.type = ty) := by
  simp [HasType]

/-! ### One team -/

/-- The team with a new member. -/
def ArenaTeam.push (team : ArenaTeam) (guid : Guid) (name : String) : ArenaTeam :=
  { team with members := team.members ++ [⟨guid, name⟩] }

/-- The team without a member. -/
def ArenaTeam.erase (team : ArenaTeam) (guid : Guid) : ArenaTeam :=
  { team with members := team.members.eraseP fun m => m.guid = guid }

theorem ArenaTeam.isMember_push :
    (team.push guid name).isMember g = true ↔ team.isMember g = true ∨ g = guid := by
  rw [ArenaTeam.isMember_iff, ArenaTeam.isMember_iff, ArenaTeam.push, map_append,
    mem_append, map_singleton, mem_singleton]

theorem map_guid_eraseP (members : List ArenaTeamMember) :
    (members.eraseP fun m => m.guid = guid).map ArenaTeamMember.guid =
      (members.map ArenaTeamMember.guid).erase guid := by
  induction members with
  | nil => rfl
  | cons m members ih =>
    by_cases h : m.guid = guid
    · simp [h]
    · simp [h, ih]

theorem ArenaTeam.isMember_erase (hnodup : (team.members.map ArenaTeamMember.guid).Nodup) :
    (team.erase guid).isMember g = true ↔ g ≠ guid ∧ team.isMember g = true := by
  rw [ArenaTeam.isMember_iff, ArenaTeam.erase, map_guid_eraseP, hnodup.mem_erase_iff,
    ArenaTeam.isMember_iff]

theorem ArenaTeam.WellFormed.push (hfull : team.isFull = false)
    (hnodup : (team.members.map ArenaTeamMember.guid).Nodup) (hnew : team.isMember guid = false)
    (hcaptain : team.isMember team.captainGuid = true ∨ team.captainGuid = guid) :
    (team.push guid name).WellFormed := by
  refine ⟨?_, ?_, ArenaTeam.isMember_push.mpr hcaptain⟩
  · have hsize := of_decide_eq_false hfull
    rw [ArenaTeam.push, length_append, length_singleton]
    dsimp only
    omega
  · have hnot : guid ∉ team.members.map ArenaTeamMember.guid := by
      rw [← ArenaTeam.isMember_iff, hnew]
      exact false_ne_true
    rw [ArenaTeam.push, map_append, map_singleton]
    refine nodup_append.mpr ⟨hnodup, nodup_singleton guid, fun a ha b hb hab => hnot ?_⟩
    have hguid : a = guid := hab.trans (mem_singleton.mp hb)
    exact hguid ▸ ha

theorem ArenaTeam.WellFormed.erase (h : team.WellFormed) (hguid : team.captainGuid ≠ guid) :
    (team.erase guid).WellFormed := by
  refine ⟨?_, ?_, (ArenaTeam.isMember_erase h.nodup).mpr ⟨hguid, h.captain⟩⟩
  · have hle : (team.erase guid).members.length ≤ team.members.length :=
      eraseP_sublist.length_le
    have hsize := h.size
    dsimp only [ArenaTeam.erase] at hle ⊢
    omega
  · exact h.nodup.sublist (eraseP_sublist.map ArenaTeamMember.guid)

theorem ArenaTeam.isMember_getMember {member : ArenaTeamMember}
    (h : team.getMember name = some member) : team.isMember member.guid = true :=
  ArenaTeam.isMember_iff.mpr (mem_map_of_mem (mem_of_find?_eq_some h))

namespace World

variable {w w' : World} {left : Guid → Prop}

theorem Consistent.mem_store (h : w.Consistent) :
    w.getArenaTeamById id = some team ↔ team ∈ w.arenaTeamStore ∧ team.teamId = id :=
  find_eq_some_iff h.keys

/-! ### Joining -/

/-- The checks of `AddMember`. -/
def canJoin (w : World) (team : ArenaTeam) (guid : Guid) : Bool :=
  !team.isFull && (w.memberName guid).isSome && !w.isInSimilarTeam guid team.type

/-- The player is connected, but not in the world. -/
def Absent (w : World) (guid : Guid) : Prop :=
  (w.findConnectedPlayer guid).isSome = true ∧ w.findPlayer guid = none

theorem addMember_of_canJoin (h : w.canJoin team guid = true) :
    ∃ name, w.addMember team guid = some (team.push guid name, w.recordMember team guid) := by
  simp only [canJoin, and_eq_true, not_eq_true'] at h
  obtain ⟨⟨hfull, hname⟩, hsimilar⟩ := h
  obtain ⟨name, hname⟩ := isSome_iff_exists.mp hname
  exact ⟨name, by simp [addMember, hfull, hname, hsimilar, ArenaTeam.push]⟩

theorem addMember_of_not_canJoin (h : w.canJoin team guid = false) :
    w.addMember team guid = none := by
  rw [addMember]
  by_cases hfull : team.isFull = true
  · rw [if_pos hfull]
  · rw [if_neg hfull]
    cases hname : w.memberName guid with
    | none => rfl
    | some name =>
      simp only [canJoin, hname] at h
      simpa [hfull] using h

/-- Whoever can join has an entry in the cache, and no team in it. -/
theorem Consistent.cacheId_of_canJoin (h : w.Consistent) (hjoin : w.canJoin team guid = true) :
    w.cacheId guid team.type = some 0 := by
  simp only [canJoin, and_eq_true, not_eq_true'] at hjoin
  obtain ⟨⟨-, hname⟩, hsimilar⟩ := hjoin
  have hknown : w.cacheId guid team.type ≠ none := by
    unfold memberName at hname
    cases hplayer : w.findPlayer guid with
    | some player =>
      refine h.onlineKnown guid team.type ?_ team.type
      rw [fieldId_of_connected (findConnectedPlayer_of_findPlayer hplayer)]
      exact some_ne_none _
    | none =>
      rw [hplayer] at hname
      intro hnone
      rw [cacheId, map_eq_none_iff] at hnone
      rw [hnone] at hname
      cases hname
  obtain ⟨v, hv⟩ := ne_none_iff_exists'.mp hknown
  rw [isInSimilarTeam, or_eq_false_iff, getCharacterArenaTeamIdByGuid_eq, hv] at hsimilar
  have hzero : v = 0 := by simpa using hsimilar.2
  rw [hv, hzero]

/-- The records after `AddMember` told everybody, but perhaps not the unit fields. -/
theorem fieldId_recordMember_of_not_absent (h : ¬ w.Absent guid) :
    (w.recordMember team guid).fieldId g ty =
      if g = guid ∧ ty = team.type then (w.fieldId g ty).map fun _ => team.teamId
      else w.fieldId g ty := by
  rw [fieldId_recordMember]
  by_cases hg : g = guid ∧ ty = team.type
  · cases hplayer : w.findPlayer guid with
    | some player => simp [hg]
    | none =>
      have hnone : w.findConnectedPlayer guid = none := by
        cases hconnected : w.findConnectedPlayer guid with
        | none => rfl
        | some player => exact absurd ⟨by rw [hconnected]; rfl, hplayer⟩ h
      simp [fieldId, hg, hnone]
  · rw [if_neg hg, if_neg fun h => hg h.1]

section

variable (h : w.Consistent) (hteam : team ∈ w.arenaTeamStore)
include h hteam

/-- **`AddMember`** on a team of the store. -/
theorem addMemberOf_joins (hjoin : w.canJoin team guid = true) (habsent : ¬ w.Absent guid) :
    w.Joins (w.addMemberOf team guid) guid team.type team.teamId := by
  obtain ⟨name, hadd⟩ := addMember_of_canJoin hjoin
  rw [addMemberOf, hadd]
  refine ⟨?_, fun _ _ => cacheId_recordMember,
    fun _ _ => fieldId_recordMember_of_not_absent habsent, ?_, fun _ => loadingRows_recordMember, ?_⟩
  · intro g ty id
    dsimp only [putArenaTeam]
    rw [store_recordMember, memberOf_put hteam (team.push guid name) rfl rfl, ArenaTeam.isMember_push]
    by_cases hid : id = team.teamId
    · subst hid
      rw [memberOf_self h.keys hteam]
      tauto
    · tauto
  · intro g id
    dsimp only [putArenaTeam]
    rw [memberRows_recordMember]
    by_cases hg : g = guid
    · simp [hg]
    · simp [hg]
  · intro id ty hty
    dsimp only [putArenaTeam] at hty
    rw [store_recordMember] at hty
    exact Or.inl (hasType_of_put hteam (team.push guid name) rfl rfl hty)

theorem Consistent.not_isMember_of_cacheId (hzero : w.cacheId guid team.type = some 0) : team.isMember guid = false := by
  refine eq_false_iff.mpr fun hmem => ?_
  have hid := (h.cache guid team.type 0 hzero).eq ⟨team, hteam, rfl, rfl, hmem⟩
  exact (h.issued team.teamId team.type ⟨team, hteam, rfl, rfl⟩).1 hid.symm

/-- `AddMember` keeps the invariant, unless the player is connected but not in the world. -/
theorem Consistent.addMemberOf (habsent : w.canJoin team guid = true → ¬ w.Absent guid) : (w.addMemberOf team guid).Consistent := by
  by_cases hjoin : w.canJoin team guid = true
  · have hzero := h.cacheId_of_canJoin hjoin
    obtain ⟨name, hadd⟩ := addMember_of_canJoin hjoin
    have hfull : team.isFull = false := by
      simp only [canJoin, and_eq_true, not_eq_true'] at hjoin
      exact hjoin.1.1
    have hstore : (w.addMemberOf team guid).arenaTeamStore =
        Keyed.put ArenaTeam.teamId w.arenaTeamStore (team.push guid name) := by
      rw [World.addMemberOf, hadd]
      exact congrArg (fun store => Keyed.put ArenaTeam.teamId store _) store_recordMember
    have hnext : (w.addMemberOf team guid).nextArenaTeamId = w.nextArenaTeamId := by
      rw [World.addMemberOf, hadd]
      exact next_recordMember
    have hissued : ∀ id, (w.addMemberOf team guid).Issued id ↔ w.Issued id := fun id => by
      rw [Issued, hnext, Issued]
    refine h.of_joins (addMemberOf_joins h hteam hjoin (habsent hjoin)) hzero ?_ ?_ ?_
      (fun id => (hissued id).mpr) (by rw [hnext]; exact h.counter)
    · rw [hstore]
      refine wellFormed_of_put h.teams (ArenaTeam.WellFormed.push hfull (h.teams team hteam).nodup
        (h.not_isMember_of_cacheId hteam hzero) (Or.inl (h.teams team hteam).captain))
    · rw [hstore, keys_put]
      exact h.keys
    · intro id ty hty
      rw [hstore] at hty
      rw [hissued]
      exact h.issued id ty (hasType_of_put hteam (team.push guid name) rfl rfl hty)
  · rw [World.addMemberOf, addMember_of_not_canJoin (eq_false_iff.mpr hjoin)]
    exact h

end

/-! ### Founding a team -/

/-- The team that a captain founds, before he is its member. -/
def newTeam (w : World) (captainGuid : Guid) (type : ArenaTeamType) (teamName : String) :
    ArenaTeam := ⟨w.nextArenaTeamId, type, teamName, captainGuid, []⟩

/-- The world with the next team id. -/
def countTeam (w : World) : World :=
  { w with nextArenaTeamId := (w.nextArenaTeamId + 1) % 2 ^ 32 }

/-- A captain without a team of the type always becomes the first member. -/
theorem Consistent.create_eq (h : w.Consistent) (hzero : w.cacheId guid type = some 0)
    (hname : w.isNameTaken name = false) : ∃ captainName, w.create guid type name =
      ((w.countTeam.recordMember (w.newTeam guid type name) guid).addArenaTeam
        ((w.newTeam guid type name).push guid captainName)) := by
  have hnone := h.cache guid type 0 hzero
  obtain ⟨entry, hentry, hid⟩ := map_eq_some_iff.mp hzero
  have hjoin : w.countTeam.canJoin (w.newTeam guid type name) guid = true := by
    have hfull : (w.newTeam guid type name).isFull = false := by
      cases type <;> exact decide_eq_false (by simp [newTeam, ArenaTeamType.value])
    have hmemberName : (w.countTeam.memberName guid).isSome = true := by
      unfold memberName
      cases w.countTeam.findPlayer guid with
      | some player => rfl
      | none => simp [countTeam, hentry]
    have hsimilar : w.countTeam.isInSimilarTeam guid type = false := by
      rw [isInSimilarTeam, or_eq_false_iff]
      constructor
      · cases hplayer : w.countTeam.findPlayer guid with
        | none => rfl
        | some player =>
          have hfield := h.online guid type _
            (fieldId_of_connected (findConnectedPlayer_of_findPlayer (w := w) hplayer))
          by_contra hne
          have hne : player.arenaTeamId type.getSlot ≠ 0 := by simpa using hne
          obtain ⟨hne, hzero⟩ := (hnone _).mp ((hfield _).mpr ⟨hne, rfl⟩)
          exact hne hzero.symm
      · simpa [getCharacterArenaTeamIdByGuid, countTeam, hentry] using hid
    rw [canJoin, hfull, hmemberName]
    simpa [newTeam] using hsimilar
  obtain ⟨captainName, hadd⟩ := addMember_of_canJoin hjoin
  refine ⟨captainName, ?_⟩
  rw [create, hentry]
  rw [if_neg (by rw [hname]; exact false_ne_true)]
  rw [show w.generateArenaTeamId = (w.nextArenaTeamId, w.countTeam) from rfl]
  dsimp only [newTeam] at hadd ⊢
  rw [hadd]

theorem create_of_not_allowed (h : ¬ (w.Known guid ∧ w.isNameTaken name = false)) :
    w.create guid type name = w := by
  rw [create]
  cases hentry : w.characterCache guid with
  | none => rfl
  | some entry =>
    by_cases hname : w.isNameTaken name = true
    · exact if_pos hname
    · refine absurd ⟨fun ty => ?_, eq_false_iff.mpr hname⟩ h
      rw [cacheId_of_cache hentry]
      exact some_ne_none _

variable (captainName : String)

theorem store_create :
    ((w.countTeam.recordMember (w.newTeam guid type name) guid).addArenaTeam
      ((w.newTeam guid type name).push guid captainName)).arenaTeamStore =
    w.arenaTeamStore ++ [(w.newTeam guid type name).push guid captainName] :=
  congrArg (fun store => store ++ [(w.newTeam guid type name).push guid captainName])
    store_recordMember

theorem isMember_newTeam :
    ((w.newTeam guid type name).push guid captainName).isMember g = true ↔ g = guid := by
  rw [ArenaTeam.isMember_push, or_iff_right]
  exact false_ne_true

/-- **`Create`**: the captain joins a new team, if he is in the world or not connected. -/
theorem create_joins (habsent : ¬ w.Absent guid) (hnext : w.nextArenaTeamId ≠ 0) (captainName : String) :
    w.Joins ((w.countTeam.recordMember (w.newTeam guid type name) guid).addArenaTeam
      ((w.newTeam guid type name).push guid captainName)) guid type w.nextArenaTeamId := by
  refine ⟨?_, fun _ _ => cacheId_recordMember, fun _ _ =>
    fieldId_recordMember_of_not_absent (w := w.countTeam) habsent, ?_,
    fun _ => loadingRows_recordMember, ?_⟩
  · intro g ty id
    rw [store_create, memberOf_append, isMember_newTeam]
    refine or_congr_right ⟨?_, ?_⟩
    · rintro ⟨rfl, rfl, rfl⟩
      exact ⟨rfl, rfl, rfl⟩
    · rintro ⟨rfl, rfl, rfl⟩
      exact ⟨rfl, rfl, rfl⟩
  · intro g id
    dsimp only [addArenaTeam]
    rw [memberRows_recordMember]
    by_cases hg : g = guid
    · simp [hg, countTeam, newTeam]
    · simp [hg, countTeam]
  · intro id ty hty
    rw [store_create, hasType_append] at hty
    rcases hty with hold | ⟨rfl, -⟩
    · exact Or.inl hold
    · refine Or.inr ?_
      rintro (hzero | hlt)
      · exact hnext hzero
      · exact Nat.lt_irrefl w.nextArenaTeamId hlt

theorem issued_countTeam (hcounter : w.nextArenaTeamId < 2 ^ 32) :
    (w.nextArenaTeamId + 1) % 2 ^ 32 = 0 ∨
      w.nextArenaTeamId < (w.nextArenaTeamId + 1) % 2 ^ 32 := by
  omega

/-- `Create` keeps the invariant while there are team ids left, unless the captain is connected but
not in the world. -/
theorem Consistent.create (h : w.Consistent) (hzero : w.cacheId guid type = some 0)
    (hdiverges : w.isNameTaken name = false → ¬ w.Absent guid ∧ w.nextArenaTeamId ≠ 0) :
    (w.create guid type name).Consistent := by
  by_cases hname : w.isNameTaken name = false
  · obtain ⟨habsent, hnext⟩ := hdiverges hname
    obtain ⟨captainName, heq⟩ := h.create_eq hzero hname
    have hfresh : ∀ ty, ¬ HasType w.arenaTeamStore w.nextArenaTeamId ty := by
      intro ty hty
      rcases (h.issued _ ty hty).2 with hz | hlt
      · exact hnext hz
      · exact Nat.lt_irrefl _ hlt
    have hcount := issued_countTeam h.counter
    have hissued : ∀ id, w.Issued id →
        (w.nextArenaTeamId + 1) % 2 ^ 32 = 0 ∨ id < (w.nextArenaTeamId + 1) % 2 ^ 32 := by
      rintro id (hz | hlt)
      · exact absurd hz hnext
      · exact hcount.imp_right (Nat.lt_trans hlt)
    have hissuedIff : ∀ id, (w.create guid type name).Issued id ↔
        ((w.nextArenaTeamId + 1) % 2 ^ 32 = 0 ∨ id < (w.nextArenaTeamId + 1) % 2 ^ 32) := by
      intro id
      have hnext' : (w.create guid type name).nextArenaTeamId =
          (w.nextArenaTeamId + 1) % 2 ^ 32 := by
        rw [heq]
        exact next_recordMember
      rw [Issued, hnext']
    have hstore : (w.create guid type name).arenaTeamStore =
        w.arenaTeamStore ++ [(w.newTeam guid type name).push guid captainName] := by
      rw [heq, store_create]
    have hj : w.Joins (w.create guid type name) guid type w.nextArenaTeamId := by
      rw [heq]
      exact create_joins habsent hnext captainName
    refine h.of_joins hj hzero ?_ ?_ ?_ (fun id hid => (hissuedIff id).mpr (hissued id hid)) ?_
    · rw [hstore]
      intro team hteam
      rcases mem_append.mp hteam with hold | hnew
      · exact h.teams team hold
      · rw [mem_singleton.mp hnew]
        refine ArenaTeam.WellFormed.push ?_ nodup_nil rfl (Or.inr rfl)
        cases type <;> exact decide_eq_false (by simp [newTeam, ArenaTeamType.value])
    · rw [hstore, map_append]
      refine nodup_append.mpr ⟨h.keys, nodup_singleton _, ?_⟩
      intro id hid id' hid' heq
      rw [map_singleton, mem_singleton] at hid'
      obtain ⟨team, hteam, hteamId⟩ := mem_map.mp hid
      exact hfresh team.type ⟨team, hteam, hteamId.trans (heq.trans hid'), rfl⟩
    · intro id ty hty
      rw [hstore, hasType_append] at hty
      rw [hissuedIff]
      rcases hty with hold | ⟨rfl, -⟩
      · exact ⟨(h.issued id ty hold).1, hissued id (h.issued id ty hold).2⟩
      · exact ⟨hnext, hcount⟩
    · rw [heq]
      refine lt_of_eq_of_lt next_recordMember (Nat.mod_lt _ (Nat.two_pow_pos 32))
  · rw [create_of_not_allowed fun hk => hname hk.2]
    exact h

/-! ### Leaving -/

theorem store_delMemberOf : (w.delMemberOf team guid).arenaTeamStore =
    Keyed.put ArenaTeam.teamId w.arenaTeamStore (team.erase guid) := by
  exact congrArg (fun store => Keyed.put ArenaTeam.teamId store _) store_dropMember

/-- **`DelMember`** on a team of the store: the player leaves if he was a member, and no record is
spoiled if he has no team of the type. -/
theorem delMemberOf_leaves (h : w.Consistent) (hteam : team ∈ w.arenaTeamStore)
    (hfield : team.isMember guid = false → ∀ v, w.fieldId guid team.type = some v → v = 0) :
    w.Leaves (w.delMemberOf team guid) (fun g => g = guid ∧ team.isMember guid = true) team.type
      team.teamId := by
  have hnodup := (h.teams team hteam).nodup
  refine ⟨?_, ?_, ?_, ?_, ?_, ?_, ?_, ?_⟩
  · rintro g ⟨rfl, hmem⟩
    exact ⟨team, hteam, rfl, rfl, hmem⟩
  · intro g ty id
    rw [store_delMemberOf, memberOf_put hteam (team.erase guid) rfl rfl,
      ArenaTeam.isMember_erase hnodup]
    by_cases hid : id = team.teamId
    · subst hid
      rw [memberOf_self h.keys hteam]
      by_cases hg : g = guid
      · subst hg
        tauto
      · tauto
    · tauto
  · intro g ty v hv
    have hv : (w.dropMember team.type (team.isMember guid) guid).cacheId g ty = some v := hv
    rw [cacheId_dropMember] at hv
    split_ifs at hv with hg
    · obtain ⟨-, -, rfl⟩ := map_eq_some_iff.mp hv
      exact Or.inl ⟨⟨hg.1.1, hg.2⟩, hg.1.2, rfl⟩
    · exact Or.inr ⟨fun hleft => hg ⟨⟨hleft.1.1, hleft.2⟩, hleft.1.2⟩, hv⟩
  · intro g hg ty hnone
    have hnone : (w.dropMember team.type (team.isMember guid) guid).cacheId g ty = none := hnone
    rw [cacheId_dropMember] at hnone
    split_ifs at hnone
    · exact hg ty (map_eq_none_iff.mp hnone)
    · exact hg ty hnone
  · intro g ty v hv
    have hv : (w.dropMember team.type (team.isMember guid) guid).fieldId g ty = some v := hv
    rw [fieldId_dropMember] at hv
    split_ifs at hv with hg
    · obtain ⟨u, hu, rfl⟩ := map_eq_some_iff.mp hv
      refine ⟨by rw [hu]; exact some_ne_none u, ?_⟩
      by_cases hmem : team.isMember guid = true
      · exact Or.inl ⟨⟨hg.1, hmem⟩, hg.2, rfl⟩
      · obtain ⟨rfl, rfl⟩ := hg
        have hu0 := hfield (eq_false_iff.mpr hmem) u hu
        exact Or.inr ⟨fun hleft => hmem hleft.1.2, by rw [hu, hu0]⟩
    · exact ⟨by rw [hv]; exact some_ne_none v, Or.inr ⟨fun hleft => hg ⟨hleft.1.1, hleft.2⟩, hv⟩⟩
  · intro g id
    have hrows : (w.delMemberOf team guid).memberRows = Function.update w.memberRows guid
        ((w.memberRows guid).filter fun id => id ≠ team.teamId) := by
      rw [delMemberOf, delMember_eq]
      dsimp only [putArenaTeam, deleteMemberRow]
      rw [if_pos rfl]
      rw [memberRows_dropMember]
    rw [hrows]
    by_cases hg : g = guid
    · subst hg
      rw [update_self, mem_filter, decide_eq_true_eq]
      refine and_congr_right fun hid => ⟨fun hne hleft => hne hleft.2, fun hleft heq => ?_⟩
      obtain ⟨ty, hmem⟩ := (h.rows g id).mp hid
      rw [heq, memberOf_self h.keys hteam] at hmem
      exact hleft ⟨⟨rfl, hmem.2⟩, heq⟩
    · rw [update_of_ne hg]
      exact ⟨fun hid => ⟨hid, fun hleft => hg hleft.1.1⟩, fun hid => hid.1⟩
  · intro g arenaRows hrows
    have hrows : (w.dropMember team.type (team.isMember guid) guid).loadingRows g =
      some arenaRows := hrows
    rwa [loadingRows_dropMember] at hrows
  · intro id ty hty
    rw [store_delMemberOf] at hty
    exact hasType_of_put hteam (team.erase guid) rfl rfl hty

/-- `DelMember` keeps the invariant for somebody who is not the captain, and who has no other team of
the type if he is no member. -/
theorem Consistent.delMemberOf (h : w.Consistent) (hteam : team ∈ w.arenaTeamStore)
    (hcaptain : team.captainGuid ≠ guid)
    (hfield : team.isMember guid = false → ∀ v, w.fieldId guid team.type = some v → v = 0) :
    (w.delMemberOf team guid).Consistent := by
  refine h.of_leaves (delMemberOf_leaves h hteam hfield) ?_ ?_ ?_
  · rw [store_delMemberOf]
    exact wellFormed_of_put h.teams ((h.teams team hteam).erase hcaptain)
  · rw [store_delMemberOf, keys_put]
    exact h.keys
  · exact next_dropMember

theorem store_disband : (w.disband team).arenaTeamStore =
    w.arenaTeamStore.filter fun t => !(t.teamId = team.teamId) := by
  rw [disband_eq]
  exact congrArg (List.filter _) store_dropMembers

section

variable (h : w.Consistent)
include h

/-- **`Disband`**: all members leave, and the team is gone. -/
theorem disband_leaves (hteam : team ∈ w.arenaTeamStore) :
    w.Leaves (w.disband team) (fun g => team.isMember g = true) team.type team.teamId := by
  refine ⟨fun g hmem => ⟨team, hteam, rfl, rfl, hmem⟩, ?_, ?_, ?_, ?_, ?_, ?_, ?_⟩
  · intro g ty id
    have hiff : MemberOf (w.disband team).arenaTeamStore g ty id ↔
        MemberOf w.arenaTeamStore g ty id ∧ id ≠ team.teamId := by
      rw [store_disband]
      constructor
      · rintro ⟨t, ht, rfl, rfl, hmem⟩
        obtain ⟨ht, hne⟩ := mem_filter.mp ht
        exact ⟨⟨t, ht, rfl, rfl, hmem⟩, by simpa using hne⟩
      · rintro ⟨⟨t, ht, rfl, rfl, hmem⟩, hne⟩
        exact ⟨t, mem_filter.mpr ⟨ht, by simpa using hne⟩, rfl, rfl, hmem⟩
    rw [hiff]
    refine and_congr_right fun hmem => ⟨fun hne hleft => hne hleft.2, fun hnot heq => hnot ⟨?_, heq⟩⟩
    rw [heq, memberOf_self h.keys hteam] at hmem
    exact hmem.2
  · intro g ty v hv
    rw [disband_eq] at hv
    have hv : (w.dropMembers team.type team.members).cacheId g ty = some v := hv
    rw [cacheId_dropMembers] at hv
    split_ifs at hv with hg
    · obtain ⟨-, -, rfl⟩ := map_eq_some_iff.mp hv
      exact Or.inl ⟨ArenaTeam.isMember_iff.mpr hg.1, hg.2, rfl⟩
    · exact Or.inr ⟨fun hleft => hg ⟨ArenaTeam.isMember_iff.mp hleft.1, hleft.2⟩, hv⟩
  · intro g hg ty hnone
    rw [disband_eq] at hnone
    have hnone : (w.dropMembers team.type team.members).cacheId g ty = none := hnone
    rw [cacheId_dropMembers] at hnone
    split_ifs at hnone
    · exact hg ty (map_eq_none_iff.mp hnone)
    · exact hg ty hnone
  · intro g ty v hv
    rw [disband_eq] at hv
    have hv : (w.dropMembers team.type team.members).fieldId g ty = some v := hv
    rw [fieldId_dropMembers] at hv
    split_ifs at hv with hg
    · obtain ⟨u, hu, rfl⟩ := map_eq_some_iff.mp hv
      exact ⟨by rw [hu]; exact some_ne_none u, Or.inl ⟨ArenaTeam.isMember_iff.mpr hg.1, hg.2, rfl⟩⟩
    · exact ⟨by rw [hv]; exact some_ne_none v,
        Or.inr ⟨fun hleft => hg ⟨ArenaTeam.isMember_iff.mp hleft.1, hleft.2⟩, hv⟩⟩
  · intro g id
    have hrows : (w.disband team).memberRows g =
        (w.memberRows g).filter fun id => id ≠ team.teamId := by
      rw [disband_eq]
      dsimp only [removeArenaTeam, deleteTeamRows]
      rw [memberRows_dropMembers]
    rw [hrows, mem_filter, decide_eq_true_eq]
    refine and_congr_right fun hid => ⟨fun hne hleft => hne hleft.2, fun hleft heq => hleft ⟨?_, heq⟩⟩
    obtain ⟨ty, hmem⟩ := (h.rows g id).mp hid
    rw [heq, memberOf_self h.keys hteam] at hmem
    exact hmem.2
  · intro g arenaRows hrows
    rw [disband_eq] at hrows
    have hrows : (w.dropMembers team.type team.members).loadingRows g = some arenaRows := hrows
    rwa [loadingRows_dropMembers] at hrows
  · rintro id ty ⟨t, ht, hid, hty⟩
    rw [store_disband] at ht
    exact ⟨t, mem_of_mem_filter ht, hid, hty⟩

theorem Consistent.disband (hteam : team ∈ w.arenaTeamStore) : (w.disband team).Consistent := by
  refine h.of_leaves (disband_leaves h hteam) ?_ ?_ ?_
  · rw [store_disband]
    exact fun t ht => h.teams t (mem_of_mem_filter ht)
  · rw [store_disband]
    exact h.keys.sublist (filter_sublist.map ArenaTeam.teamId)
  · rw [disband_eq]
    exact next_dropMembers

/-! ### Nobody joins or leaves -/

/-- The sessions may change, if no unit field and no login is invented. -/
theorem Consistent.of_sessions (hstore : w'.arenaTeamStore = w.arenaTeamStore)
    (hnext : w'.nextArenaTeamId = w.nextArenaTeamId)
    (hcache : ∀ g ty, w'.cacheId g ty = w.cacheId g ty) (hrows : w'.memberRows = w.memberRows)
    (hfield : ∀ g ty v, w'.fieldId g ty = some v → w.fieldId g ty = some v)
    (hloading : ∀ g r, w'.loadingRows g = some r → w.loadingRows g = some r) : w'.Consistent := by
  have hl : w.Leaves w' (fun _ => False) .arenaTeam2v2 0 := by
    refine ⟨fun _ => False.elim, ?_, ?_, ?_, ?_, ?_, hloading, ?_⟩
    · simp [hstore]
    · intro g ty v hv
      exact Or.inr ⟨fun hleft => hleft.1, (hcache g ty).symm.trans hv⟩
    · intro g hg ty
      rw [hcache]
      exact hg ty
    · intro g ty v hv
      have hold := hfield g ty v hv
      exact ⟨by rw [hold]; exact some_ne_none v, Or.inr ⟨fun hleft => hleft.1, hold⟩⟩
    · simp [hrows]
    · rw [hstore]
      exact fun _ _ hty => hty
  refine h.of_leaves hl ?_ ?_ hnext
  · rw [hstore]
    exact h.teams
  · rw [hstore]
    exact h.keys

/-- Writing to a player object, but not to the ids in its unit fields. -/
theorem Consistent.modifyPlayer {f : Player → Player}
    (hf : ∀ player, (f player).arenaTeamId = player.arenaTeamId) :
    (w.modifyPlayer guid f).Consistent := by
  refine h.of_sessions store_modify next_modify (fun _ _ => cacheId_modify) memberRows_modify ?_ ?_
  · intro g ty v hv
    rwa [fieldId_modify hf] at hv
  · intro g r hr
    rwa [loadingRows_modify] at hr

/-- `SetCaptain` for a member of the team. -/
theorem Consistent.setCaptain (hteam : team ∈ w.arenaTeamStore) (hmem : team.isMember guid = true) :
    (w.putArenaTeam { team with captainGuid := guid }).Consistent := by
  have hwell := h.teams team hteam
  have hl : w.Leaves (w.putArenaTeam { team with captainGuid := guid }) (fun _ => False) team.type
      team.teamId := by
    refine ⟨fun _ => False.elim, ?_, fun _ _ _ hv => Or.inr ⟨fun hleft => hleft.1, hv⟩,
      fun _ hg => hg, ?_, ?_, fun _ _ hr => hr, ?_⟩
    · intro g ty id
      dsimp only [putArenaTeam]
      rw [memberOf_put hteam { team with captainGuid := guid } rfl rfl]
      by_cases hid : id = team.teamId
      · subst hid
        rw [memberOf_self h.keys hteam]
        tauto
      · tauto
    · intro g ty v hv
      have hv : w.fieldId g ty = some v := hv
      exact ⟨by rw [hv]; exact some_ne_none v, Or.inr ⟨fun hleft => hleft.1, hv⟩⟩
    · simp [putArenaTeam]
    · exact fun id ty hty => hasType_of_put hteam { team with captainGuid := guid } rfl rfl hty
  refine h.of_leaves hl ?_ ?_ rfl
  · exact wellFormed_of_put h.teams ⟨hwell.size, hwell.nodup, hmem⟩
  · dsimp only [putArenaTeam]
    rw [keys_put]
    exact h.keys

/-! ### Logging in -/

/-- Rows that are read while the records agree belong to teams of different types. -/
theorem Consistent.loadArenaRows : (w.loadArenaRows guid).Consistent := by
  rw [World.loadArenaRows]
  split
  · have hsessions : ∀ g, g ≠ guid → Function.update w.sessions guid
        (.loading (w.memberRows guid)) g = w.sessions g := fun g hg => update_of_ne hg _ _
    refine ⟨h.teams, h.cache, ?_, h.keys, h.issued, h.counter, h.known, ?_, h.rows, ?_⟩
    · intro g ty v hv
      by_cases hg : g = guid
      · subst hg
        simp [fieldId, findConnectedPlayer] at hv
      · rw [fieldId_congr (hsessions g hg)] at hv
        exact h.online g ty v hv
    · intro g ty hv
      by_cases hg : g = guid
      · subst hg
        simp [fieldId, findConnectedPlayer] at hv
      · rw [fieldId_congr (hsessions g hg)] at hv
        exact h.onlineKnown g ty hv
    · intro g arenaRows hrows
      by_cases hg : g = guid
      · subst hg
        have hrows : some (w.memberRows g) = some arenaRows := by
          simpa [loadingRows] using hrows
        obtain rfl := Option.some.inj hrows
        intro id hid
        obtain ⟨ty, hmem⟩ := (h.rows g id).mp hid
        refine ⟨(h.issued id ty hmem.hasType).2, fun id' hid' ty' hty hty' => ?_⟩
        obtain ⟨ty'', hmem'⟩ := (h.rows g id').mp hid'
        obtain rfl := HasType.eq h.keys hmem.hasType hty
        obtain rfl := HasType.eq h.keys hmem'.hasType hty'
        have hcache := h.cacheId_of_memberOf hmem
        rw [h.cacheId_of_memberOf hmem'] at hcache
        exact (Option.some.inj hcache).symm
      · rw [loadingRows_congr (hsessions g hg)] at hrows
        exact h.loading g arenaRows hrows
  · exact h

end

/-- An id of the loaded unit fields is a row of a team with that slot. -/
theorem loadArenaTeamInfo_mem (arenaRows : List ℕ) (slot : Fin 3) :
    w.loadArenaTeamInfo arenaRows slot = 0 ∨ ∃ team,
      w.getArenaTeamById (w.loadArenaTeamInfo arenaRows slot) = some team ∧
      team.type.getSlot = slot ∧ w.loadArenaTeamInfo arenaRows slot ∈ arenaRows := by
  induction arenaRows using List.reverseRecOn with
  | nil => exact Or.inl rfl
  | append_singleton arenaRows id ih =>
    have hold : w.loadArenaTeamInfo arenaRows slot = 0 ∨ ∃ team,
        w.getArenaTeamById (w.loadArenaTeamInfo arenaRows slot) = some team ∧
        team.type.getSlot = slot ∧ w.loadArenaTeamInfo arenaRows slot ∈ arenaRows ++ [id] := by
      refine ih.imp_right ?_
      rintro ⟨team, hteam, hslot, hmem⟩
      exact ⟨team, hteam, hslot, mem_append_left _ hmem⟩
    rw [loadArenaTeamInfo, foldl_append, foldl_cons, foldl_nil]
    cases hteam : w.getArenaTeamById id with
    | none => exact hold
    | some team =>
      dsimp only
      by_cases hslot : slot = team.type.getSlot
      · subst hslot
        rw [update_self]
        exact Or.inr ⟨team, hteam, rfl, by simp⟩
      · rw [update_of_ne hslot]
        exact hold

variable {arenaRows : List ℕ}

/-- The row of a team is in the loaded unit fields, if no other row is of a team with its slot. -/
theorem loadArenaTeamInfo_of_mem (hteam : w.getArenaTeamById id = some team) (hmem : id ∈ arenaRows)
    (hone : ∀ id' ∈ arenaRows, ∀ team', w.getArenaTeamById id' = some team' →
      team'.type = team.type → id' = id) :
    w.loadArenaTeamInfo arenaRows team.type.getSlot = id := by
  induction arenaRows using List.reverseRecOn with
  | nil => cases hmem
  | append_singleton arenaRows last ih =>
    rw [loadArenaTeamInfo, foldl_append, foldl_cons, foldl_nil]
    by_cases hlast : last = id
    · subst hlast
      rw [hteam]
      exact update_self _ _ _
    · have hmem : id ∈ arenaRows := by
        rcases mem_append.mp hmem with hmem | hmem
        · exact hmem
        · exact absurd (mem_singleton.mp hmem).symm hlast
      have hrest := ih hmem fun id' hid' => hone id' (mem_append_left _ hid')
      cases hteam' : w.getArenaTeamById last with
      | none => exact hrest
      | some team' =>
        have hslot : team.type.getSlot ≠ team'.type.getSlot := fun heq =>
          hlast (hone last (by simp) team' hteam' (ArenaTeamType.getSlot_inj.mp heq.symm))
        dsimp only
        rw [update_of_ne hslot]
        exact hrest

/-- What is left after the integrity check. -/
theorem checkArenaTeams_eq_iff {fields : Fin 3 → ℕ} {slot : Fin 3} (hid : id ≠ 0) :
    w.checkArenaTeams guid fields slot = id ↔
      fields slot = id ∧ ∃ team, w.getArenaTeamById id = some team ∧ team.isMember guid = true := by
  rw [checkArenaTeams]
  by_cases hzero : fields slot = 0
  · rw [if_pos hzero, hzero]
    exact ⟨fun h => absurd h.symm hid, fun h => absurd h.1.symm hid⟩
  · rw [if_neg hzero]
    constructor
    · intro h
      cases hteam : w.getArenaTeamById (fields slot) with
      | none =>
        rw [hteam] at h
        exact absurd h.symm hid
      | some team =>
        rw [hteam] at h
        dsimp only at h
        split_ifs at h with hmem
        · subst h
          exact ⟨rfl, team, hteam, hmem⟩
        · exact absurd h.symm hid
    · rintro ⟨rfl, team, hteam, hmem⟩
      rw [hteam]
      exact if_pos hmem

/-- **A login** that has read the rows of all teams of the player fills his unit fields rightly. -/
theorem Consistent.teamIdIs_loaded (h : w.Consistent)
    (hloading : w.loadingRows guid = some arenaRows)
    (hall : ∀ id, w.cacheId guid ty = some id → id ≠ 0 → id ∈ arenaRows) :
    TeamIdIs w.arenaTeamStore guid ty
      (w.checkArenaTeams guid (w.loadArenaTeamInfo arenaRows) ty.getSlot) := by
  intro id
  constructor
  · rintro hmem
    have hid : id ≠ 0 := (h.issued id ty hmem.hasType).1
    have hrow := hall id (h.cacheId_of_memberOf hmem) hid
    obtain ⟨team, hteam, hteamId, rfl, hmember⟩ := hmem
    have hfound := h.mem_store.mpr ⟨hteam, hteamId⟩
    refine ⟨hid, (checkArenaTeams_eq_iff hid).mpr ⟨?_, team, hfound, hmember⟩⟩
    refine loadArenaTeamInfo_of_mem hfound hrow fun id' hid' team' hteam' htype => ?_
    obtain ⟨hmem', hteamId'⟩ := h.mem_store.mp hteam'
    exact (h.loading guid arenaRows hloading id' hid').2 id hrow team.type
      ⟨team', hmem', hteamId', htype⟩ ⟨team, hteam, hteamId, rfl⟩
  · rintro ⟨hid, hcheck⟩
    obtain ⟨hfield, team, hteam, hmember⟩ := (checkArenaTeams_eq_iff hid).mp hcheck
    rcases loadArenaTeamInfo_mem (w := w) arenaRows ty.getSlot with hzero | ⟨team', hteam', hslot, -⟩
    · exact absurd (hfield.symm.trans hzero) hid
    · rw [hfield, hteam] at hteam'
      obtain rfl := Option.some.inj hteam'
      obtain ⟨hmem, hteamId⟩ := h.mem_store.mp hteam
      exact ⟨team, hmem, hteamId, ArenaTeamType.getSlot_inj.mp hslot, hmember⟩

end World

end IscServer.ArenaTeams
