import Mathlib.Data.List.Nodup
import IscServer.Guilds.Guild

/-!
# Leader and Ranks of a Guild

While a guild exists, its leader should be a member of rank `GR_GUILDMASTER` and the only one, the
ranks should be five to ten with the ids 0, 1, 2, …, and every member should have one of them
(`Ordered`). Two commands break this. The leader names itself the new guild master and is degraded
to an officer as the old one; and the lowest rank is removed while members have it, which
`Guild::Validate` repairs at the next start.

## Main results

* `ordered_iff` — in every run the guild stays in order exactly when no command is of these two
  kinds.
* `setNewGuildMaster_not_ordered` — the leader hands the guild over to itself.
-/

namespace IscServer.Guilds

open List

variable {g : Guild} {guid : Guid} {rankId : ℕ}

/-! ### What is asked of a guild -/

/-- **A guild in order.** -/
structure Ordered (g : Guild) : Prop where
  leader : ∃ member ∈ g.members, member.guid = g.leaderGuid ∧ member.rankId = grGuildmaster
  single : ∀ member ∈ g.members, member.rankId = grGuildmaster → member.guid = g.leaderGuid
  count : guildRanksMinCount ≤ g.ranks.length ∧ g.ranks.length ≤ guildRanksMaxCount
  ids : g.ranks.map RankInfo.rankId = List.range g.ranks.length
  below : ∀ member ∈ g.members, member.rankId < g.ranks.length

/-- What is asked of a step. -/
def Right (g : Guild) (command : Command) : Prop :=
  (step g command).alive = true → Ordered (step g command)

/-- The commands that keep the order: the leader does not hand the guild over to itself, and nobody
has the lowest rank when it is removed. -/
def Safe (g : Guild) : Command → Prop
  | .setNewGuildMaster player target => g.alive = true → g.isLeader player = true →
      target ≠ g.leaderGuid
  | .removeLowestRank player => g.alive = true → g.isLeader player = true →
      guildRanksMinCount < g.ranks.length → ∀ member ∈ g.members, member.rankId ≠ g.lowestRankId
  | _ => True

/-- **The invariant**: nobody is a member twice, and the guild is in order. -/
structure Sound (g : Guild) : Prop where
  nodup : g.alive = true → g.guids.Nodup
  ordered : g.alive = true → Ordered g

/-! ### Members -/

variable {member : Member}

theorem mem_of_getMember (h : g.getMember guid = some member) :
    member ∈ g.members ∧ member.guid = guid :=
  ⟨mem_of_find?_eq_some h, by simpa using List.find?_some h⟩

theorem getMember_isNone : (g.getMember guid).isNone = true ↔ guid ∉ g.guids := by
  rw [Option.isNone_iff_eq_none, Guild.getMember, List.find?_eq_none, Guild.guids, mem_map]
  constructor
  · rintro h ⟨member, hmember, heq⟩
    exact h member hmember (decide_eq_true heq)
  · intro h member hmember heq
    exact h ⟨member, hmember, of_decide_eq_true heq⟩

theorem guids_changeRank (g : Guild) (guid : Guid) (rankId : ℕ) :
    (changeRank guid rankId g).guids = g.guids := by
  rw [Guild.guids, changeRank, map_map, Guild.guids]
  congr 1
  funext member
  rw [Function.comp_apply]
  split_ifs <;> rfl

/-- The members after a change of rank. -/
theorem mem_changeRank (h : member ∈ (changeRank guid rankId g).members) :
    member.guid = guid ∧ member.rankId = rankId ∨ member.guid ≠ guid ∧ member ∈ g.members := by
  obtain ⟨old, hold, rfl⟩ := mem_map.mp h
  split_ifs with heq
  · exact Or.inl ⟨heq, rfl⟩
  · exact Or.inr ⟨heq, hold⟩

theorem mem_changeRank_self (h : member ∈ g.members) (heq : member.guid = guid) :
    { member with rankId := rankId } ∈ (changeRank guid rankId g).members := by
  refine mem_map.mpr ⟨member, h, ?_⟩
  rw [if_pos heq]

theorem mem_changeRank_of_ne (h : member ∈ g.members) (hne : member.guid ≠ guid) :
    member ∈ (changeRank guid rankId g).members := by
  refine mem_map.mpr ⟨member, h, ?_⟩
  rw [if_neg hne]

/-- The next leader is another member. -/
theorem nextLeader_spec {members : List Member} (h : nextLeader guid members = some member) :
    member ∈ members ∧ member.guid ≠ guid := by
  -- the candidate is always a member that was met and is not the one who leaves
  have hfold : ∀ (rest met : List Member) (best : Option Member),
      (∀ member ∈ best, member ∈ met ∧ member.guid ≠ guid) →
      ∀ member ∈ rest.foldl (considerLeader guid) best, member ∈ met ++ rest ∧ member.guid ≠ guid := by
    intro rest
    induction rest with
    | nil =>
      intro met best hbest member hmember
      rw [append_nil]
      exact hbest member hmember
    | cons next rest ih =>
      intro met best hbest member hmember
      rw [append_cons]
      refine ih (met ++ [next]) _ ?_ member hmember
      intro candidate hcandidate
      have hold : candidate ∈ best → candidate ∈ met ++ [next] ∧ candidate.guid ≠ guid := by
        intro hin
        exact ⟨mem_append_left _ (hbest candidate hin).1, (hbest candidate hin).2⟩
      rw [considerLeader.eq_def] at hcandidate
      split_ifs at hcandidate with hguid
      · exact hold hcandidate
      · have hnext : candidate = next → candidate ∈ met ++ [next] ∧ candidate.guid ≠ guid := by
          rintro rfl
          exact ⟨mem_append_right _ (mem_singleton_self _), hguid⟩
        cases best with
        | none => exact hnext (Option.some.inj hcandidate).symm
        | some first =>
          dsimp only at hcandidate
          split_ifs at hcandidate
          · exact hnext (Option.some.inj hcandidate).symm
          · exact hold hcandidate
  exact hfold members [] none (fun _ hno => absurd hno (Option.not_mem_none _)) member h

/-! ### Each command -/

/-- A member other than the leader gets a rank below the guild master's. -/
theorem Ordered.changeRank (h : Ordered g) (hguid : guid ≠ g.leaderGuid)
    (hpos : rankId ≠ grGuildmaster) (hlt : rankId < g.ranks.length) :
    Ordered (changeRank guid rankId g) := by
  obtain ⟨leader, hmem, hleader, hrank⟩ := h.leader
  refine ⟨⟨leader, mem_changeRank_of_ne hmem ?_, hleader, hrank⟩, ?_, h.count, h.ids, ?_⟩
  · exact fun heq => hguid (heq.symm.trans hleader)
  · intro member hmember hmaster
    rcases mem_changeRank hmember with ⟨-, hnew⟩ | ⟨-, hold⟩
    · exact absurd (hnew.symm.trans hmaster) hpos
    · exact h.single member hold hmaster
  · intro member hmember
    rcases mem_changeRank hmember with ⟨-, hnew⟩ | ⟨-, hold⟩
    · exact hnew.trans_lt hlt
    · exact h.below member hold

/-- Another member becomes the leader and the old one an officer. -/
theorem Ordered.handover (h : Ordered g) (hmember : member ∈ g.members)
    (hne : member.guid ≠ g.leaderGuid) :
    Ordered (Guilds.changeRank g.leaderGuid grOfficer (setLeader member.guid g)) := by
  have hcount := h.count.1
  refine ⟨⟨_, mem_changeRank_of_ne (mem_changeRank_self hmember rfl) hne, rfl, rfl⟩, ?_, h.count,
    h.ids, ?_⟩
  · intro other hother hmaster
    rcases mem_changeRank hother with ⟨-, hofficer⟩ | ⟨hnot, hother⟩
    · exact absurd (hofficer.symm.trans hmaster) (by decide)
    · rcases mem_changeRank hother with ⟨hnew, -⟩ | ⟨-, hold⟩
      · exact hnew
      · exact absurd (h.single other hold hmaster) hnot
  · intro other hother
    change other.rankId < g.ranks.length
    unfold guildRanksMinCount at hcount
    rcases mem_changeRank hother with ⟨-, hofficer⟩ | ⟨-, hother⟩
    · rw [hofficer, grOfficer]
      omega
    · rcases mem_changeRank hother with ⟨-, hmaster⟩ | ⟨-, hold⟩
      · rw [hmaster, grGuildmaster]
        omega
      · exact h.below other hold

/-- A leader that hands the guild over to itself ends up as an officer. -/
theorem not_ordered_handover_self :
    ¬ Ordered (Guilds.changeRank member.guid grOfficer (setLeader member.guid g)) := by
  intro h
  obtain ⟨leader, hmem, hleader, hrank⟩ := h.leader
  rcases mem_changeRank hmem with ⟨-, hofficer⟩ | ⟨hnot, -⟩
  · exact absurd (hofficer.symm.trans hrank) (by decide)
  · exact hnot hleader

section

variable (h : Ordered g)
include h

theorem Ordered.addMember (guid : Guid) (free : Bool) : Ordered (addMember guid free none g) := by
  have hcount := h.count.1
  unfold guildRanksMinCount at hcount
  rw [Guilds.addMember]
  split_ifs
  · obtain ⟨leader, hmem, hleader⟩ := h.leader
    refine ⟨⟨leader, mem_append_left _ hmem, hleader⟩, ?_, h.count, h.ids, ?_⟩
    · intro member hmember hmaster
      rcases mem_append.mp hmember with hold | hnew
      · exact h.single member hold hmaster
      · rw [mem_singleton.mp hnew] at hmaster
        change g.ranks.length - 1 = 0 at hmaster
        omega
    · intro member hmember
      rcases mem_append.mp hmember with hold | hnew
      · exact h.below member hold
      · rw [mem_singleton.mp hnew]
        change g.ranks.length - 1 < g.ranks.length
        omega
  · exact h

/-- A member other than the leader leaves. -/
theorem Ordered.eraseMember (hguid : guid ≠ g.leaderGuid)
    (halive : (eraseMember guid g).alive = true) : Ordered (eraseMember guid g) := by
  rw [Guilds.eraseMember] at halive ⊢
  split_ifs at halive ⊢
  · cases halive
  · obtain ⟨leader, hmem, hleader, hrank⟩ := h.leader
    have hkept : decide (leader.guid ≠ guid) = true :=
      decide_eq_true fun heq => hguid (heq.symm.trans hleader)
    refine ⟨⟨leader, mem_filter.mpr ⟨hmem, hkept⟩, hleader, hrank⟩, ?_, h.count, h.ids, ?_⟩
    · exact fun member hmember => h.single member (mem_filter.mp hmember).1
    · exact fun member hmember => h.below member (mem_filter.mp hmember).1

/-- The leader leaves and another member takes over. -/
theorem Ordered.succession (hmember : member ∈ g.members) (hne : member.guid ≠ g.leaderGuid)
    (halive : (Guilds.eraseMember g.leaderGuid (setLeader member.guid g)).alive = true) :
    Ordered (Guilds.eraseMember g.leaderGuid (setLeader member.guid g)) := by
  rw [Guilds.eraseMember] at halive ⊢
  split_ifs at halive ⊢
  · cases halive
  · have hcount := h.count.1
    unfold guildRanksMinCount at hcount
    refine ⟨⟨{ member with rankId := grGuildmaster }, ?_, rfl, rfl⟩, ?_, h.count, h.ids, ?_⟩
    · exact mem_filter.mpr ⟨mem_changeRank_self hmember rfl, decide_eq_true hne⟩
    · intro other hother hmaster
      obtain ⟨hother, hnot⟩ := mem_filter.mp hother
      rcases mem_changeRank hother with ⟨hnew, -⟩ | ⟨-, hold⟩
      · exact hnew
      · exact absurd (h.single other hold hmaster) (of_decide_eq_true hnot)
    · intro other hother
      rcases mem_changeRank (mem_filter.mp hother).1 with ⟨-, hmaster⟩ | ⟨-, hold⟩
      · rw [hmaster, grGuildmaster]
        change 0 < g.ranks.length
        omega
      · exact h.below other hold

theorem Ordered.deleteMember (guid : Guid) (walk : List Guid)
    (halive : (deleteMember guid walk g).alive = true) : Ordered (deleteMember guid walk g) := by
  rw [Guilds.deleteMember] at halive ⊢
  split_ifs at halive ⊢ with hleader
  · cases hnext : nextLeader guid (walk.filterMap g.getMember) with
    | none =>
      rw [hnext] at halive
      cases halive
    | some newLeader =>
      rw [hnext] at halive
      obtain ⟨hmem, hne⟩ := nextLeader_spec hnext
      obtain ⟨other, -, hother⟩ := mem_filterMap.mp hmem
      rw [← hleader] at halive hne ⊢
      exact h.succession (mem_of_getMember hother).1 hne halive
  · exact h.eraseMember (Ne.symm hleader) halive

/-- Another rank below the others. -/
theorem Ordered.createRank (rights : ℕ) : Ordered (createRank rights g) := by
  rw [Guilds.createRank]
  split_ifs with hfull
  · exact h
  · obtain ⟨hmin, -⟩ := h.count
    refine ⟨h.leader, h.single, ⟨?_, ?_⟩, ?_, fun member hmember => ?_⟩
    · rw [length_append, length_singleton]
      omega
    · rw [length_append, length_singleton]
      omega
    · rw [map_append, h.ids, length_append, length_singleton, range_succ]
      rfl
    · rw [length_append, length_singleton]
      exact Nat.lt_succ_of_lt (h.below member hmember)

end

/-- A change that keeps the id of a rank. -/
theorem ids_modify {change : RankInfo → RankInfo}
    (hchange : ∀ info, (change info).rankId = info.rankId) (ranks : List RankInfo) (i : ℕ) :
    (ranks.modify i change).map RankInfo.rankId = ranks.map RankInfo.rankId := by
  induction ranks generalizing i with
  | nil => rw [modify_nil]
  | cons info ranks ih =>
    cases i with
    | zero => rw [modify_zero_cons, map_cons, hchange, map_cons]
    | succ i => rw [modify_succ_cons, map_cons, ih, map_cons]

theorem Ordered.setRankInfo (h : Ordered g) (player : Guid) (rankId rights : ℕ) :
    Ordered (handleSetRankInfo player rankId rights g) := by
  rw [handleSetRankInfo]
  split_ifs
  · have hlength : ∀ change : RankInfo → RankInfo,
        (g.ranks.modify rankId change).length = g.ranks.length := fun change =>
      length_modify change g.ranks rankId
    refine ⟨h.leader, h.single, ?_, ?_, fun member hmember => ?_⟩
    · rw [hlength]
      exact h.count
    · rw [hlength, ids_modify (fun _ => by rfl), h.ids]
    · rw [hlength]
      exact h.below member hmember
  · exact h

/-- The lowest rank is removed: this is right exactly when no member has it. -/
theorem Ordered.removeLowestRank (h : Ordered g) (player : Guid) :
    Ordered (handleRemoveLowestRank player g) ↔ (g.isLeader player = true →
      guildRanksMinCount < g.ranks.length → ∀ member ∈ g.members, member.rankId ≠ g.lowestRankId) := by
  rw [handleRemoveLowestRank, handleRemoveRank]
  obtain ⟨hmin, hmax⟩ := h.count
  have hlowest : g.lowestRankId < g.ranks.length := by
    rw [Guild.lowestRankId]
    unfold guildRanksMinCount at hmin
    omega
  split_ifs with hrefused
  · refine iff_of_true h fun hleader hmany => ?_
    rcases hrefused with hfew | hlow | hnot
    · omega
    · omega
    · exact absurd hleader hnot
  · simp only [not_or, not_le, not_not] at hrefused
    obtain ⟨hmany, -, hleader⟩ := hrefused
    have hlength : (g.ranks.take g.lowestRankId).length = g.lowestRankId := by
      rw [length_take]
      omega
    constructor
    · intro hordered _ _ member hmember
      have hbelow := hordered.below member hmember
      rw [hlength] at hbelow
      exact hbelow.ne
    · intro hnone
      refine ⟨h.leader, h.single, ?_, ?_, fun member hmember => ?_⟩
      · rw [hlength, Guild.lowestRankId]
        omega
      · rw [hlength, map_take, h.ids, take_range]
        congr 1
        omega
      · rw [hlength]
        have hbelow := h.below member hmember
        have hne := hnone hleader hmany member hmember
        rw [Guild.lowestRankId] at hne ⊢
        omega

/-- A member that is not of the highest rank is not the leader. -/
theorem Ordered.ne_leader (h : Ordered g) (hnodup : g.guids.Nodup) (hmember : member ∈ g.members)
    (hrank : member.rankId ≠ grGuildmaster) : member.guid ≠ g.leaderGuid := by
  intro heq
  obtain ⟨leader, hmem, hleader, hmaster⟩ := h.leader
  have hsame := inj_on_of_nodup_map hnodup hmember hmem (heq.trans hleader.symm)
  rw [hsame] at hrank
  exact hrank hmaster

/-- `HandleUpdateMemberRank` refuses, or it moves a member that is not of the highest rank to a rank
below it. -/
theorem handleUpdateMemberRank_cases (g : Guild) (player target : Guid) (demote : Bool) :
    handleUpdateMemberRank player target demote g = g ∨
      ∃ member ∈ g.members, ∃ rankId, 0 < member.rankId ∧ 0 < rankId ∧
        (rankId ≤ member.rankId ∨ rankId ≤ g.lowestRankId) ∧
        handleUpdateMemberRank player target demote g = changeRank member.guid rankId g := by
  rw [handleUpdateMemberRank.eq_def]
  by_cases hright : g.hasRankRight player (if demote then grRightDemote else grRightPromote) = true
  swap
  · exact Or.inl (if_neg hright)
  rw [if_pos hright]
  cases htarget : g.getMember target with
  | none => exact Or.inl rfl
  | some member =>
    cases hplayer : g.getMember player with
    | none => exact Or.inl rfl
    | some memberMe =>
      obtain ⟨hmember, -⟩ := mem_of_getMember htarget
      dsimp only
      split_ifs with hself hdemote hhigh hhigh
      · exact Or.inl rfl
      · exact Or.inl rfl
      · exact Or.inr ⟨member, hmember, member.rankId + 1, by omega, by omega, by omega, rfl⟩
      · exact Or.inl rfl
      · exact Or.inr ⟨member, hmember, member.rankId - 1, by omega, by omega, by omega, rfl⟩

/-- Somebody is promoted or degraded by a member of a higher rank. -/
theorem Ordered.updateMemberRank (h : Ordered g) (hnodup : g.guids.Nodup) (player target : Guid)
    (demote : Bool) : Ordered (handleUpdateMemberRank player target demote g) := by
  rcases handleUpdateMemberRank_cases g player target demote with
    heq | ⟨member, hmember, rankId, hrank, hpos, hle, heq⟩
  · rw [heq]
    exact h
  · rw [heq]
    have hbelow := h.below member hmember
    rw [Guild.lowestRankId] at hle
    exact h.changeRank (h.ne_leader hnodup hmember hrank.ne') hpos.ne' (by omega)

/-! ### Runs -/

section

variable (hnodup : g.guids.Nodup)
include hnodup

theorem nodup_addMember (guid : Guid) (free : Bool) (rank : Option ℕ) :
    (addMember guid free rank g).guids.Nodup := by
  rw [addMember]
  split_ifs with hnew
  · have hnot := getMember_isNone.mp hnew.2
    rw [Guild.guids, map_append, nodup_append]
    refine ⟨hnodup, nodup_singleton _, fun other hother last hlast => ?_⟩
    rintro rfl
    have heq : other = guid := mem_singleton.mp hlast
    exact hnot (heq ▸ hother)
  · exact hnodup

theorem nodup_eraseMember (guid : Guid) : (eraseMember guid g).guids.Nodup := by
  rw [eraseMember]
  split_ifs
  · exact nodup_nil
  · exact (filter_sublist.map Member.guid).nodup hnodup

theorem nodup_deleteMember (guid : Guid) (walk : List Guid) :
    (deleteMember guid walk g).guids.Nodup := by
  rw [deleteMember]
  split_ifs
  · split
    · exact nodup_nil
    · refine nodup_eraseMember ?_ guid
      rw [setLeader, guids_changeRank]
      exact hnodup
  · exact nodup_eraseMember hnodup guid

/-- No command makes somebody a member twice. -/
theorem nodup_perform (command : Command) : (perform g command).guids.Nodup := by
  cases command with
  | setNewGuildMaster player target =>
    rw [perform, handleSetNewGuildMaster]
    split_ifs
    · split
      · exact hnodup
      · rw [guids_changeRank, setLeader, guids_changeRank]
        exact hnodup
    · exact hnodup
  | updateMemberRank player target demote =>
    rcases handleUpdateMemberRank_cases g player target demote with heq | ⟨member, -, rankId, -, -, -, heq⟩
    · rw [perform, heq]
      exact hnodup
    · rw [perform, heq, guids_changeRank]
      exact hnodup
  | addNewRank player =>
    rw [perform, handleAddNewRank, createRank]
    split_ifs <;> exact hnodup
  | removeLowestRank player =>
    rw [perform, handleRemoveLowestRank, handleRemoveRank]
    split_ifs <;> exact hnodup
  | setRankInfo player rankId rights =>
    rw [perform, handleSetRankInfo]
    split_ifs <;> exact hnodup
  | acceptMember player allied free =>
    rw [perform, handleAcceptMember]
    split_ifs
    · exact nodup_addMember hnodup player free none
    · exact hnodup
  | leaveMember player walk =>
    rw [perform, handleLeaveMember]
    split_ifs
    · exact hnodup
    · exact nodup_nil
    · exact nodup_deleteMember hnodup player walk
  | removeMember player target walk =>
    rw [perform, handleRemoveMember]
    split_ifs
    · split
      · split_ifs
        · exact hnodup
        · exact nodup_deleteMember hnodup _ walk
      · exact hnodup
    · exact hnodup
  | deleteMember guid walk => exact nodup_deleteMember hnodup guid walk

end

/-- One command: the guild is in order after it exactly when the command is safe. -/
theorem Sound.right_iff_safe (h : Sound g) (command : Command) :
    Right g command ↔ Safe g command := by
  cases halive : g.alive with
  | false =>
    have hdead : ¬ g.alive = true := by rw [halive]; exact Bool.false_ne_true
    have hstep : step g command = g := by rw [step, halive]; rfl
    have hright : Right g command := by
      intro hyes
      rw [hstep] at hyes
      exact absurd hyes hdead
    refine iff_of_true hright ?_
    cases command with
    | setNewGuildMaster player target => exact fun hyes => absurd hyes hdead
    | removeLowestRank player => exact fun hyes => absurd hyes hdead
    | _ => trivial
  | true =>
    have hordered := h.ordered halive
    have hnodup := h.nodup halive
    rw [Right, step, if_pos halive]
    cases command with
    | setNewGuildMaster player target =>
      rw [perform, handleSetNewGuildMaster, Safe, halive]
      split_ifs with hleader
      · cases htarget : g.getMember target with
        | none =>
          refine iff_of_true (fun _ => hordered) fun _ _ heq => ?_
          obtain ⟨leader, hmem, hguid, -⟩ := hordered.leader
          have hnone := getMember_isNone.mp (Option.isNone_iff_eq_none.mpr htarget)
          exact hnone (heq ▸ hguid ▸ mem_map_of_mem hmem)
        | some member =>
          obtain ⟨hmember, rfl⟩ := mem_of_getMember htarget
          constructor
          · intro hright _ _ heq
            have hbad := hright halive
            rw [← heq] at hbad
            exact not_ordered_handover_self hbad
          · intro hsafe _
            exact hordered.handover hmember (hsafe rfl hleader)
      · exact iff_of_true (fun _ => hordered) fun _ hyes => absurd hyes hleader
    | removeLowestRank player =>
      have hiff := hordered.removeLowestRank player
      have halive' : (handleRemoveLowestRank player g).alive = true := by
        rw [handleRemoveLowestRank, handleRemoveRank]
        split_ifs <;> exact halive
      exact ⟨fun hyes _ => hiff.mp (hyes halive'), fun hyes _ => hiff.mpr (hyes halive)⟩
    | updateMemberRank player target demote =>
      exact iff_of_true (fun _ => hordered.updateMemberRank hnodup player target demote) trivial
    | addNewRank player =>
      refine iff_of_true (fun _ => ?_) trivial
      rw [perform, handleAddNewRank]
      split_ifs
      · exact hordered
      · exact hordered.createRank _
      · exact hordered
    | setRankInfo player rankId rights =>
      exact iff_of_true (fun _ => hordered.setRankInfo player rankId rights) trivial
    | acceptMember player allied free =>
      refine iff_of_true (fun _ => ?_) trivial
      rw [perform, handleAcceptMember]
      split_ifs
      · exact hordered.addMember player free
      · exact hordered
    | leaveMember player walk =>
      refine iff_of_true ?_ trivial
      rw [perform, handleLeaveMember]
      split_ifs
      · exact fun _ => hordered
      · exact fun hno => Bool.noConfusion hno
      · exact hordered.deleteMember player walk
    | removeMember player target walk =>
      refine iff_of_true ?_ trivial
      rw [perform, handleRemoveMember]
      split_ifs
      · split
        · split_ifs
          · exact fun _ => hordered
          · exact hordered.deleteMember _ walk
        · exact fun _ => hordered
      · exact fun _ => hordered
    | deleteMember guid walk => exact iff_of_true (hordered.deleteMember guid walk) trivial

theorem sound_create (leader : Guid) : Sound (create leader) := by
  have hcreate : create leader = ⟨true, leader, [⟨leader, grGuildmaster⟩],
      [⟨0, grRightAll⟩, ⟨1, grRightAll⟩, ⟨2, grRightDefault⟩, ⟨3, grRightDefault⟩,
        ⟨4, grRightDefault⟩]⟩ := rfl
  rw [hcreate]
  refine ⟨fun _ => nodup_singleton leader, fun _ => ⟨?_, ?_, ?_, rfl, ?_⟩⟩
  · exact ⟨⟨leader, grGuildmaster⟩, mem_singleton_self _, rfl, rfl⟩
  · intro member hmember _
    rw [mem_singleton.mp hmember]
  · exact ⟨Nat.le_refl 5, Nat.le_add_right 5 5⟩
  · intro member hmember
    rw [mem_singleton.mp hmember]
    exact Nat.succ_pos 4

/-- **A guild stays in order exactly in the safe runs.** For every guild that is created and every
sequence of commands by anybody: after every command while the guild exists, its leader is a member
of rank `GR_GUILDMASTER` and the only one, there are five to ten ranks with the ids 0, 1, 2, …, and
every member has one of them, if and only if the leader never hands the guild over to itself and no
member has the lowest rank when it is removed. -/
theorem ordered_iff (leader : Guid) (commands : List Command) :
    Run.Along step Right (create leader) commands ↔ Run.Along step Safe (create leader) commands := by
  refine Run.along_congr Sound (fun _ command hs => hs.right_iff_safe command) ?_ commands
    (sound_create leader)
  intro g command hs hsafe
  refine ⟨fun halive => ?_, (hs.right_iff_safe command).mpr hsafe⟩
  rw [step] at halive ⊢
  split_ifs at halive ⊢ with hg
  · exact nodup_perform (hs.nodup hg) command
  · exact absurd halive hg

/-- The leader of a guild of two names itself the new guild master, and the guild has none. -/
theorem setNewGuildMaster_not_ordered :
    ¬ Run.Along step Right (create 1) [.acceptMember 2 true true, .setNewGuildMaster 1 1] := by
  intro h
  obtain ⟨leader, hmem, hleader, hrank⟩ := (h.2.1 rfl).leader
  revert leader
  decide

end IscServer.Guilds
