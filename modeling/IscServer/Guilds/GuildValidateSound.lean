import IscServer.Guilds.GuildValidate

/-!
# What a Validation Repairs

The parts of `Guild::Validate` are looked at one after the other. Together they come to one
description of the guild that is left: the ranks are the good ones with their tabs or the default
ones, one member is the leader, and every other member has a rank that follows from the rank it was
loaded with.

A member whose rank id equals the number of ranks is not repaired, since ids start from 0 while the
check is for ids greater than the number. And the default ranks are stored without their tabs, so
that the next validation finds them missing.

## Main results

* `LoadedGuild.validate_eq` — the guild that is left.
* `LoadedGuild.repaired_mended_iff` — when it is repaired.
* `LoadedGuild.validate_repairs_iff` — when a validation repairs a guild for good.
* `LoadedGuild.initiate_out_of_range` — five good ranks and a member of rank 5.
-/

namespace IscServer.Guilds

open List

/-! ### The search for a leader -/

/-- The search keeps a member at least as high as every one it met. -/
theorem foldl_considerLeader_least (guid : Guid) (members : List Member) (best : Option Member)
    {leader : Member} (h : members.foldl (considerLeader guid) best = some leader) :
    (∀ m ∈ best, leader.rankId ≤ m.rankId) ∧
      ∀ m ∈ members, m.guid ≠ guid → leader.rankId ≤ m.rankId := by
  induction members generalizing best with
  | nil =>
    refine ⟨fun m hm => ?_, fun m hm => absurd hm not_mem_nil⟩
    obtain rfl := Option.some.inj (h.symm.trans hm)
    exact le_refl _
  | cons next members ih =>
    obtain ⟨hbest, hrest⟩ := ih _ h
    rw [considerLeader.eq_def] at hbest
    by_cases hguid : next.guid = guid
    · rw [if_pos hguid] at hbest
      refine ⟨hbest, forall_mem_cons.mpr ⟨fun hne => absurd hguid hne, hrest⟩⟩
    rw [if_neg hguid] at hbest
    cases best with
    | none =>
      refine ⟨fun m hm => absurd hm (Option.not_mem_none m), ?_⟩
      exact forall_mem_cons.mpr ⟨fun _ => hbest next rfl, hrest⟩
    | some first =>
      dsimp only at hbest
      split_ifs at hbest with hlt
      · have hnext := hbest next rfl
        refine ⟨fun m hm => ?_, forall_mem_cons.mpr ⟨fun _ => hnext, hrest⟩⟩
        obtain rfl := Option.some.inj hm
        exact hnext.trans (le_of_lt hlt)
      · have hfirst := hbest first rfl
        refine ⟨fun m hm => Option.some.inj hm ▸ hfirst,
          forall_mem_cons.mpr ⟨fun _ => hfirst.trans (not_lt.mp hlt), hrest⟩⟩

/-- The search finds a member if there is one besides the one who leaves. -/
theorem nextLeader_isSome {guid : Guid} {members : List Member} (h : ∃ m ∈ members, m.guid ≠ guid) : ∃ leader, nextLeader guid members = some leader := by
  have hkeep : ∀ (rest : List Member) (best : Member),
      ∃ leader, rest.foldl (considerLeader guid) (some best) = some leader := by
    intro rest
    induction rest with
    | nil => exact fun best => ⟨best, rfl⟩
    | cons next rest ih =>
      intro best
      rw [foldl_cons, considerLeader.eq_def]
      split_ifs
      · exact ih best
      · dsimp only
        split_ifs
        · exact ih next
        · exact ih best
  unfold nextLeader
  induction members with
  | nil =>
    obtain ⟨m, hm, -⟩ := h
    exact absurd hm not_mem_nil
  | cons next members ih =>
    rw [foldl_cons, considerLeader.eq_def]
    by_cases hguid : next.guid = guid
    · rw [if_pos hguid]
      obtain ⟨m, hm, hne⟩ := h
      rcases mem_cons.mp hm with rfl | hm
      · exact absurd hguid hne
      · exact ih ⟨m, hm, hne⟩
    · rw [if_neg hguid]
      exact hkeep members next

/-! ### The tabs of a rank -/

namespace LoadedRank

variable (r : LoadedRank)

variable (tabs : ℕ)

theorem createMissingTab_idem (i : ℕ) (t : TabRights) :
    (r.createMissingTabsIfNeeded tabs).createMissingTab tabs i (r.createMissingTab tabs i t) =
      r.createMissingTab tabs i t := by
  have hid : i < tabs → (r.createMissingTab tabs i t).tabId = i := by
    intro hi
    unfold createMissingTab
    rw [if_neg (not_le.mpr hi)]
    split_ifs with htab
    · exact htab
    · rfl
    · rfl
  rcases Nat.lt_or_ge i tabs with hi | hi
  · unfold createMissingTab at hid ⊢
    rw [if_neg (not_le.mpr hi), if_pos (hid hi)]
  · unfold createMissingTab
    rw [if_pos hi, if_pos hi]

/-- Missing tabs are created once. -/
theorem createMissingTabsIfNeeded_idem :
    (r.createMissingTabsIfNeeded tabs).createMissingTabsIfNeeded tabs =
      r.createMissingTabsIfNeeded tabs := by
  have htabs : ((r.createMissingTabsIfNeeded tabs).tabs).mapIdx
      ((r.createMissingTabsIfNeeded tabs).createMissingTab tabs) =
      (r.createMissingTabsIfNeeded tabs).tabs := by
    refine ext_getElem? fun i => ?_
    rw [createMissingTabsIfNeeded]
    rw [List.getElem?_mapIdx, List.getElem?_mapIdx]
    cases r.tabs[i]? with
    | none => rfl
    | some t => exact congrArg some (createMissingTab_idem r tabs i t)
  exact congrArg (LoadedRank.mk r.info) htabs

/-- A new rank lacks every tab there is. -/
theorem createMissingTabsIfNeeded_new_iff (rankId rights tabs : ℕ) :
    (new rankId rights).createMissingTabsIfNeeded tabs = new rankId rights ↔ tabs = 0 := by
  constructor
  · intro heq
    by_contra hne
    have hfirst : ((new rankId rights).createMissingTabsIfNeeded tabs).tabs[0]? =
        some TabRights.undefined := by
      rw [heq]
      rfl
    have hcreated : ((new rankId rights).createMissingTabsIfNeeded tabs).tabs[0]? =
        some ((new rankId rights).createMissingTab tabs 0 TabRights.undefined) := by
      rfl
    have htab := congrArg TabRights.tabId (Option.some.inj (hcreated.symm.trans hfirst))
    unfold createMissingTab at htab
    rw [if_neg (by omega), if_neg (by decide)] at htab
    split_ifs at htab <;> exact absurd htab (by decide)
  · rintro rfl
    rfl

end LoadedRank

/-! ### The ranks -/

namespace LoadedGuild

variable {g : LoadedGuild}

/-- The ids of the ranks are distinct bytes, so that there are at most 256 ranks. -/
theorem Loadable.length_le (h : g.Loadable) : g.ranks.length ≤ 256 := by
  have hsub : (g.ranks.map fun r => r.info.rankId) ⊆ List.range 256 := by
    intro id hid
    obtain ⟨r, hr, rfl⟩ := mem_map.mp hid
    exact mem_range.mpr (h.ids_byte r hr)
  have hle := (List.Nodup.subperm h.ids_nodup hsub).length_le
  rwa [length_map, length_range] at hle

theorem SoundRanks.ranksSize_eq (h : g.SoundRanks) : g.ranksSize = g.ranks.length := by
  have hle := h.count_le
  unfold ranksSize
  omega

/-- The check of the ranks. -/
theorem brokenRanks_eq_false_iff (hle : g.ranks.length ≤ 256) :
    g.brokenRanks = false ↔ g.SoundRanks := by
  unfold brokenRanks guildRanksMinCount guildRanksMaxCount
  rw [Bool.or_eq_false_iff, Bool.or_eq_false_iff, decide_eq_false_iff_not, decide_eq_false_iff_not]
  constructor
  · rintro ⟨⟨hmin, hmax⟩, hids⟩
    have hlen : g.ranksSize = g.ranks.length := by
      unfold ranksSize at *
      omega
    refine ⟨by omega, by omega, fun i r hr => ?_⟩
    rw [hlen, take_length, any_eq_false] at hids
    have hmem : (r, i) ∈ g.ranks.zipIdx := mem_zipIdx_iff_getElem?.mpr hr
    simpa using hids (r, i) hmem
  · intro hs
    have hge := hs.count_ge
    have hle := hs.count_le
    rw [hs.ranksSize_eq, take_length]
    refine ⟨⟨by omega, by omega⟩, any_eq_false.mpr fun x hx => ?_⟩
    have hget : g.ranks[x.2]? = some x.1 := mem_zipIdx_iff_getElem?.mp hx
    simpa using hs.ids x.2 x.1 hget

/-- The default ranks. -/
def defaultRanks : List LoadedRank :=
  [LoadedRank.new 0 grRightAll, LoadedRank.new 1 grRightAll, LoadedRank.new 2 grRightDefault,
    LoadedRank.new 3 grRightDefault, LoadedRank.new 4 grRightDefault]

theorem createDefaultGuildRanks_eq (g : LoadedGuild) :
    createDefaultGuildRanks { g with ranks := [] } = { g with ranks := defaultRanks } := rfl

theorem soundRanks_default (g : LoadedGuild) : ({ g with ranks := defaultRanks } :
    LoadedGuild).SoundRanks := by
  have hcount : 5 ≤ defaultRanks.length ∧ defaultRanks.length ≤ 10 := by decide
  refine ⟨hcount.1, hcount.2, fun i r hr => ?_⟩
  have hall : ∀ x ∈ defaultRanks.zipIdx, x.1.info.rankId = x.2 := by decide
  exact hall (r, i) (mem_zipIdx_iff_getElem?.mpr hr)

/-- The ranks get the tabs they lack. -/
def withTabs (g : LoadedGuild) : LoadedGuild :=
  { g with ranks := g.ranks.map fun r => r.createMissingTabsIfNeeded g.purchasedTabs }

theorem validateRanks_of_sound (h : g.SoundRanks) (hbroken : g.brokenRanks = false) :
    g.validateRanks = g.withTabs := by
  unfold validateRanks withTabs
  rw [hbroken, if_neg Bool.false_ne_true, h.ranksSize_eq]
  refine congrArg (fun ranks => { g with ranks := ranks }) (ext_getElem? fun i => ?_)
  rw [List.getElem?_mapIdx, List.getElem?_map]
  cases hr : g.ranks[i]? with
  | none => rfl
  | some r =>
    have hi : i < g.ranks.length := (List.getElem?_eq_some_iff.mp hr).1
    rw [Option.map_some, Option.map_some, if_pos hi]

theorem SoundRanks.withTabs (h : g.SoundRanks) : g.withTabs.SoundRanks := by
  have hlen : g.withTabs.ranks.length = g.ranks.length := length_map _
  refine ⟨hlen ▸ h.count_ge, hlen ▸ h.count_le, fun i r hr => ?_⟩
  have hget : (g.ranks.map fun r => r.createMissingTabsIfNeeded g.purchasedTabs)[i]? = some r := hr
  rw [List.getElem?_map] at hget
  obtain ⟨old, hold, rfl⟩ := Option.map_eq_some_iff.mp hget
  exact h.ids i old hold

/-- All ranks have their tabs. -/
def Complete (g : LoadedGuild) : Prop :=
  ∀ r ∈ g.ranks, r.createMissingTabsIfNeeded g.purchasedTabs = r

/-- Ranks that have their tabs stay as they are, and others do not. -/
theorem withTabs_ranks_iff : g.withTabs.ranks = g.ranks ↔ g.Complete := by
  constructor
  · intro heq r hr
    obtain ⟨i, hi⟩ := mem_iff_getElem?.mp hr
    have hget : g.withTabs.ranks[i]? = some (r.createMissingTabsIfNeeded g.purchasedTabs) := by
      unfold withTabs
      rw [List.getElem?_map, hi, Option.map_some]
    rw [heq, hi] at hget
    exact (Option.some.inj hget).symm
  · intro hall
    exact (map_congr_left hall).trans (map_id' _)

/-- **The ranks after the first part of a validation** are sound, and they have their tabs unless
they are the default ones of a guild with tabs. -/
theorem validateRanks_spec (h : g.Loadable) :
    ∃ ranks, g.validateRanks = { g with ranks := ranks } ∧ ranks.length = g.rankCount ∧
      ({ g with ranks := ranks } : LoadedGuild).SoundRanks ∧
      (({ g with ranks := ranks } : LoadedGuild).Complete ↔
        (g.brokenRanks = true → g.purchasedTabs = 0)) := by
  unfold rankCount
  cases hbroken : g.brokenRanks with
  | true =>
    refine ⟨defaultRanks, ?_, rfl, soundRanks_default g, ?_⟩
    · unfold validateRanks
      rw [hbroken, if_pos rfl]
      exact createDefaultGuildRanks_eq g
    · unfold Complete defaultRanks
      simp only [forall_mem_cons, LoadedRank.createMissingTabsIfNeeded_new_iff,
        not_mem_nil, false_imp_iff, implies_true, and_true, and_self, forall_const]
  | false =>
    have hsound := (brokenRanks_eq_false_iff h.length_le).mp hbroken
    refine ⟨g.withTabs.ranks, validateRanks_of_sound hsound hbroken, ?_, hsound.withTabs, ?_⟩
    · exact length_map _
    · refine iff_of_true (fun r hr => ?_) (fun hb => absurd hb Bool.false_ne_true)
      obtain ⟨old, -, rfl⟩ := mem_map.mp hr
      exact old.createMissingTabsIfNeeded_idem g.purchasedTabs

/-! ### The members -/

/-- The rank of a member after the second part stays in its place, or is the last one. -/
theorem SoundRanks.validRank_cases (h : g.SoundRanks) (rankId : ℕ) :
    g.validRank rankId < g.ranks.length ∨
      rankId = g.ranks.length ∧ g.validRank rankId = g.ranks.length := by
  have hge := h.count_ge
  unfold validRank lowestRankId
  rw [h.ranksSize_eq]
  split_ifs <;> omega

theorem SoundRanks.validRank_of_lt (h : g.SoundRanks) {rankId : ℕ} (hlt : rankId < g.ranks.length) : g.validRank rankId = rankId := by
  unfold validRank
  rw [h.ranksSize_eq, if_neg (by omega)]

variable {m : Member}

theorem mem_guids (hm : m ∈ g.members) : m.guid ∈ g.guids :=
  mem_map_of_mem hm

/-- Members are told apart by their guids. -/
theorem eq_of_guid (hnodup : g.guids.Nodup) {m' : Member} (hm : m ∈ g.members)
    (hm' : m' ∈ g.members) (heq : m.guid = m'.guid) : m = m' :=
  inj_on_of_nodup_map hnodup hm hm' heq

/-! ### The leader -/

/-- One member becomes the leader. -/
def withLeader (g : LoadedGuild) (leader : Guid) : LoadedGuild :=
  { g with
    leaderGuid := leader
    members := (changeRank leader grGuildmaster g.guild).members }

variable {walk : List Guid}

/-- **The leader after the third part of a validation**: the leader of the guild if this is a
member, and a member of the highest rank otherwise. -/
theorem validateLeader_spec (hne : g.members ≠ []) (hnodup : g.guids.Nodup)
    (hwalk : walk.Perm g.guids) :
    ∃ leader ∈ g.members, g.validateLeader walk = some (g.withLeader leader.guid) ∧
      (g.leaderGuid ∈ g.guids → leader.guid = g.leaderGuid) ∧
      (g.leaderGuid ∉ g.guids → ∀ m ∈ g.members, leader.rankId ≤ m.rankId) := by
  unfold validateLeader
  cases hleader : g.guild.getMember g.leaderGuid with
  | some leader =>
    obtain ⟨hmem, hguid⟩ := mem_of_getMember hleader
    have hmem' : leader ∈ g.members := hmem
    refine ⟨leader, hmem', ?_, fun _ => hguid, fun hnot => ?_⟩
    · dsimp only
      split_ifs with hmaster
      · -- the leader has its rank already
        have hmembers : (changeRank leader.guid grGuildmaster g.guild).members = g.members := by
          have hid : ∀ m ∈ g.members,
              (if m.guid = leader.guid then { m with rankId := grGuildmaster } else m) = m := by
            intro m hm
            split_ifs with heq
            · obtain rfl := eq_of_guid hnodup hm hmem' heq
              rw [← hmaster]
            · rfl
          exact (map_congr_left hid).trans (map_id' _)
        unfold withLeader
        rw [hmembers, hguid]
      · rfl
    · exact absurd (hguid ▸ mem_guids hmem') hnot
  | none =>
    have hnot : g.leaderGuid ∉ g.guids := by
      have hnone := (@getMember_isNone g.guild g.leaderGuid)
      rw [hleader] at hnone
      exact hnone.mp rfl
    have hfound : ∀ m ∈ g.members, m ∈ walk.filterMap g.guild.getMember := by
      intro m hm
      refine mem_filterMap.mpr ⟨m.guid, hwalk.mem_iff.mpr (mem_guids hm), ?_⟩
      have hsome : (g.guild.getMember m.guid).isSome := by
        rw [← Option.not_isNone, Bool.not_eq_true', ← Bool.not_eq_true]
        exact fun hnone => getMember_isNone.mp hnone (mem_guids hm)
      obtain ⟨m', hm'⟩ := Option.isSome_iff_exists.mp hsome
      obtain ⟨hmem, hguid⟩ := mem_of_getMember hm'
      rw [hm', eq_of_guid hnodup hmem hm hguid]
    have hother : ∀ m ∈ g.members, m.guid ≠ g.leaderGuid := fun m hm heq =>
      hnot (heq ▸ mem_guids hm)
    obtain ⟨first, hfirst⟩ := exists_mem_of_ne_nil g.members hne
    obtain ⟨leader, hnext⟩ := nextLeader_isSome ⟨first, hfound first hfirst, hother first hfirst⟩
    obtain ⟨hmem, -⟩ := nextLeader_spec hnext
    obtain ⟨other, -, hget⟩ := mem_filterMap.mp hmem
    have hmem' : leader ∈ g.members := (mem_of_getMember hget).1
    have hleast := (foldl_considerLeader_least _ _ _ hnext).2
    refine ⟨leader, hmem', ?_, fun hin => absurd hin hnot, fun _ m hm =>
      hleast m (hfound m hm) (hother m hm)⟩
    -- nobody has the guid that is deleted
    have herase : (setLeader leader.guid g.guild).members.filter
        (fun m => m.guid ≠ g.leaderGuid) = (setLeader leader.guid g.guild).members := by
      refine filter_eq_self.mpr fun m hm => decide_eq_true ?_
      rcases mem_changeRank hm with ⟨hguid, -⟩ | ⟨-, hm⟩
      · rw [hguid]
        exact hother leader hmem'
      · exact hother m hm
    have hnonempty : (setLeader leader.guid g.guild).members ≠ [] := by
      intro hnil
      exact hne (map_eq_nil_iff.mp hnil)
    have hdelete : deleteMember g.leaderGuid walk g.guild = setLeader leader.guid g.guild := by
      unfold deleteMember
      rw [if_pos (show g.guild.leaderGuid = g.leaderGuid from rfl), hnext]
      unfold eraseMember
      dsimp only
      rw [herase, if_neg (by simpa using hnonempty)]
    rw [hdelete]
    rfl

/-! ### The guild that is left -/

/-- The guild after the last three parts of a validation, with the member that becomes the
leader. -/
def mended (g : LoadedGuild) (allowMultiple : Bool) (leader : Guid) : LoadedGuild :=
  (g.validateMembers.withLeader leader).validateMasters allowMultiple

/-- The rank of a member that is left. -/
def mendedRank (g : LoadedGuild) (allowMultiple : Bool) (leader : Guid) (m : Member) : ℕ :=
  if m.guid = leader then grGuildmaster
  else if allowMultiple = false ∧ g.validRank m.rankId = grGuildmaster then grOfficer
  else g.validRank m.rankId

variable (allowMultiple : Bool)

variable (leader : Guid)

theorem mended_ranks : (g.mended allowMultiple leader).ranks = g.ranks := by
  unfold mended validateMasters
  split_ifs <;> rfl

theorem mended_purchasedTabs : (g.mended allowMultiple leader).purchasedTabs = g.purchasedTabs := by
  unfold mended validateMasters
  split_ifs <;> rfl

theorem mended_leaderGuid : (g.mended allowMultiple leader).leaderGuid = leader := by
  unfold mended validateMasters
  split_ifs <;> rfl

/-- The members that are left. -/
theorem mended_members :
    (g.mended allowMultiple leader).members =
      g.members.map fun m => ⟨m.guid, g.mendedRank allowMultiple leader m⟩ := by
  have hled : (g.validateMembers.withLeader leader).members =
      g.members.map fun m =>
        (⟨m.guid, if m.guid = leader then grGuildmaster else g.validRank m.rankId⟩ : Member) := by
    have hparts : (g.validateMembers.withLeader leader).members =
        (g.members.map fun m => { m with rankId := g.validRank m.rankId }).map fun m =>
          if m.guid = leader then { m with rankId := grGuildmaster } else m := rfl
    rw [hparts, map_map]
    refine map_congr_left fun m _ => ?_
    rw [Function.comp_apply]
    split_ifs <;> rfl
  unfold mended validateMasters mendedRank
  cases allowMultiple with
  | true =>
    rw [if_pos rfl, hled]
    simp
  | false =>
    have hmasters : (g.validateMembers.withLeader leader).leaderGuid = leader := rfl
    rw [hled, map_map]
    refine map_congr_left fun m _ => ?_
    rw [Function.comp_apply, hmasters]
    by_cases hguid : m.guid = leader
    · rw [if_pos hguid, if_pos hguid, if_neg fun h => h.2 hguid]
    · rw [if_neg hguid, if_neg hguid]
      by_cases hmaster : g.validRank m.rankId = grGuildmaster
      · rw [if_pos ⟨hmaster, hguid⟩, if_pos ⟨rfl, hmaster⟩]
      · rw [if_neg fun h => hmaster h.1, if_neg fun h => hmaster h.2]

theorem mended_guids : (g.mended allowMultiple leader).guids = g.guids := by
  unfold guids
  rw [mended_members, map_map]
  exact map_congr_left fun m _ => rfl

/-- **The guild that is left** after a validation of a guild as the tables give it. -/
theorem validate_eq (h : g.Loadable) (allowMultiple : Bool) (hwalk : walk.Perm g.guids) :
    ∃ ranks, ∃ leader ∈ g.members,
      g.validate allowMultiple walk =
        some (({ g with ranks := ranks } : LoadedGuild).mended allowMultiple leader.guid) ∧
      ranks.length = g.rankCount ∧ ({ g with ranks := ranks } : LoadedGuild).SoundRanks ∧
      (({ g with ranks := ranks } : LoadedGuild).Complete ↔
        (g.brokenRanks = true → g.purchasedTabs = 0)) ∧
      (g.leaderGuid ∈ g.guids → leader.guid = g.leaderGuid) ∧
      (g.leaderGuid ∉ g.guids → ∀ m ∈ g.members,
        ({ g with ranks := ranks } : LoadedGuild).validRank leader.rankId ≤
          ({ g with ranks := ranks } : LoadedGuild).validRank m.rankId) := by
  obtain ⟨ranks, heq, hlen, hsound, hcomplete⟩ := validateRanks_spec h
  have hguids : ({ g with ranks := ranks } : LoadedGuild).validateMembers.guids = g.guids := by
    unfold validateMembers guids
    rw [map_map]
    exact map_congr_left fun m _ => rfl
  have hne : ({ g with ranks := ranks } : LoadedGuild).validateMembers.members ≠ [] :=
    fun hnil => h.members (map_eq_nil_iff.mp hnil)
  have hperm : walk.Perm ({ g with ranks := ranks } : LoadedGuild).validateMembers.guids :=
    hguids ▸ hwalk
  obtain ⟨leader, hmem, hled, hin, hleast⟩ := validateLeader_spec hne (hguids ▸ h.guids_nodup) hperm
  rw [hguids] at hin hleast
  obtain ⟨old, hold, rfl⟩ := mem_map.mp hmem
  refine ⟨ranks, old, hold, ?_, hlen, hsound, hcomplete, hin, fun hnot m hm => ?_⟩
  · unfold validate
    rw [heq, hled]
    rfl
  · exact hleast hnot _ (mem_map_of_mem hm)

/-- **When the guild that is left is repaired**: no other member than the leader had the first rank
id that is out of range. -/
theorem repaired_mended_iff (hsound : g.SoundRanks) (allowMultiple : Bool) {leader : Member}
    (hleader : leader ∈ g.members) :
    (g.mended allowMultiple leader.guid).Repaired allowMultiple ↔
      ∀ m ∈ g.members, m.guid ≠ leader.guid → m.rankId ≠ g.ranks.length := by
  have hge := hsound.count_ge
  have hrank : ∀ m ∈ g.members, (m.guid ≠ leader.guid → m.rankId ≠ g.ranks.length) ↔
      g.mendedRank allowMultiple leader.guid m < g.ranks.length := by
    intro m _
    unfold mendedRank grGuildmaster grOfficer
    by_cases hguid : m.guid = leader.guid
    · rw [if_pos hguid]
      exact iff_of_true (fun hne => absurd hguid hne) (by omega)
    rw [if_neg hguid]
    rcases hsound.validRank_cases m.rankId with hlt | ⟨heq, hvalid⟩
    · have hne : m.rankId ≠ g.ranks.length := by
        intro heq
        unfold validRank at hlt
        rw [hsound.ranksSize_eq, heq, if_neg (lt_irrefl _)] at hlt
        exact lt_irrefl _ hlt
      refine iff_of_true (fun _ => hne) ?_
      split_ifs
      · omega
      · exact hlt
    · refine iff_of_false (fun hall => hall hguid heq) ?_
      rw [hvalid, if_neg (by omega)]
      exact lt_irrefl _
  constructor
  · intro hrep m hm
    refine (hrank m hm).mpr ?_
    have hmem : (⟨m.guid, g.mendedRank allowMultiple leader.guid m⟩ : Member) ∈
        (g.mended allowMultiple leader.guid).members := by
      rw [mended_members]
      exact mem_map_of_mem hm
    have hlt := hrep.members _ hmem
    rwa [mended_ranks] at hlt
  · intro hall
    refine ⟨?_, ?_, ?_, ?_⟩
    · have hranks := mended_ranks (g := g) allowMultiple leader.guid
      exact ⟨hranks ▸ hsound.count_ge, hranks ▸ hsound.count_le, fun i r hr =>
        hsound.ids i r (hranks ▸ hr)⟩
    · intro m hm
      rw [mended_members] at hm
      obtain ⟨old, hold, rfl⟩ := mem_map.mp hm
      rw [mended_ranks]
      exact (hrank old hold).mp (hall old hold)
    · refine ⟨⟨leader.guid, g.mendedRank allowMultiple leader.guid leader⟩, ?_, ?_, ?_⟩
      · rw [mended_members]
        exact mem_map_of_mem hleader
      · exact (mended_leaderGuid allowMultiple leader.guid).symm
      · exact if_pos rfl
    · intro hsingle m hm hmaster
      rw [mended_members] at hm
      obtain ⟨old, -, rfl⟩ := mem_map.mp hm
      rw [mended_leaderGuid]
      by_contra hguid
      change g.mendedRank allowMultiple leader.guid old = grGuildmaster at hmaster
      unfold mendedRank at hmaster
      rw [if_neg hguid] at hmaster
      split_ifs at hmaster with hofficer
      · exact absurd hmaster (by decide)
      · exact hofficer ⟨hsingle, hmaster⟩

/-- **A repaired guild** stays as it is in a validation exactly if its ranks have all their
tabs. -/
theorem validate_self_iff {allowMultiple : Bool} (h : g.Repaired allowMultiple)
    (hnodup : g.guids.Nodup) (walk : List Guid) :
    g.validate allowMultiple walk = some g ↔ g.Complete := by
  have hle : g.ranks.length ≤ 256 := h.ranks.count_le.trans (by decide)
  have hbroken := (brokenRanks_eq_false_iff hle).mpr h.ranks
  have htabs : g.withTabs.SoundRanks := h.ranks.withTabs
  have hlen : g.withTabs.ranks.length = g.ranks.length := length_map _
  have hmembers : g.withTabs.validateMembers = g.withTabs := by
    have hid : ∀ m ∈ g.members, ({ m with rankId := g.withTabs.validRank m.rankId } : Member) = m := by
      intro m hm
      rw [htabs.validRank_of_lt (by rw [hlen]; exact h.members m hm)]
    exact congrArg (fun members => { g.withTabs with members := members })
      ((map_congr_left hid).trans (map_id' _))
  obtain ⟨leader, hleader, hguid, hmaster⟩ := h.leader
  have hget : g.withTabs.guild.getMember g.withTabs.leaderGuid = some leader := by
    have hsome : (g.guild.getMember g.leaderGuid).isSome := by
      rw [← Option.not_isNone, Bool.not_eq_true', ← Bool.not_eq_true]
      exact fun hnone => getMember_isNone.mp hnone (hguid ▸ mem_guids hleader)
    obtain ⟨m', hm'⟩ := Option.isSome_iff_exists.mp hsome
    obtain ⟨hmem, hguid'⟩ := mem_of_getMember hm'
    obtain rfl := eq_of_guid hnodup hmem hleader (hguid'.trans hguid.symm)
    exact hm'
  have hled : g.withTabs.validateLeader walk = some g.withTabs := by
    unfold validateLeader
    rw [hget]
    exact if_pos hmaster
  have hmasters : g.withTabs.validateMasters allowMultiple = g.withTabs := by
    cases allowMultiple with
    | true => exact if_pos rfl
    | false =>
      have hid : ∀ m ∈ g.members,
          (if m.rankId = grGuildmaster ∧ m.guid ≠ g.leaderGuid then
            { m with rankId := grOfficer } else m) = m := fun m hm =>
        if_neg fun hother => hother.2 (h.masters rfl m hm hother.1)
      exact congrArg (fun members => { g.withTabs with members := members })
        ((map_congr_left hid).trans (map_id' _))
  unfold validate
  rw [validateRanks_of_sound h.ranks hbroken, hmembers, hled, Option.map_some, hmasters]
  constructor
  · intro heq
    exact withTabs_ranks_iff.mp (congrArg ranks (Option.some.inj heq))
  · intro hcomplete
    exact congrArg (fun ranks => some { g with ranks := ranks }) (withTabs_ranks_iff.mpr hcomplete)

/-- The member that becomes the leader is the one exception. -/
theorem mendable_members_iff (h : g.Loadable) {ranks : List LoadedRank} {leader : Member}
    (hleader : leader ∈ g.members) (hlen : ranks.length = g.rankCount)
    (hsound : ({ g with ranks := ranks } : LoadedGuild).SoundRanks)
    (hin : g.leaderGuid ∈ g.guids → leader.guid = g.leaderGuid)
    (hleast : g.leaderGuid ∉ g.guids → ∀ m ∈ g.members,
      ({ g with ranks := ranks } : LoadedGuild).validRank leader.rankId ≤
        ({ g with ranks := ranks } : LoadedGuild).validRank m.rankId) :
    (∀ m ∈ g.members, m.guid ≠ leader.guid → m.rankId ≠ ranks.length) ↔
      ∀ m ∈ g.members, m.rankId = g.rankCount →
        m.guid = g.leaderGuid ∨ g.leaderGuid ∉ g.guids ∧ g.members = [m] := by
  rw [hlen]
  constructor
  · intro hall m hm hrank
    have hguid : m.guid = leader.guid := by
      by_contra hne
      exact hall m hm hne hrank
    obtain rfl := eq_of_guid h.guids_nodup hm hleader hguid
    by_cases hlead : g.leaderGuid ∈ g.guids
    · exact .inl (hin hlead)
    · refine .inr ⟨hlead, ?_⟩
      -- nobody is higher than the new leader, so that everybody else would be out of range too
      have hsame : ∀ m' ∈ g.members, m' = m := by
        intro m' hm'
        by_contra hne
        have hguid' : m'.guid ≠ m.guid := fun heq => hne (eq_of_guid h.guids_nodup hm' hm heq)
        have hle := hleast hlead m' hm'
        have hlast : ({ g with ranks := ranks } : LoadedGuild).validRank m.rankId = ranks.length := by
          rcases hsound.validRank_cases m.rankId with hlt | ⟨-, heq⟩
          · unfold validRank at hlt
            rw [hsound.ranksSize_eq, if_neg (by rw [hrank, ← hlen]; exact lt_irrefl _), hrank,
              ← hlen] at hlt
            exact absurd hlt (lt_irrefl _)
          · exact heq
        rw [hlast] at hle
        rcases hsound.validRank_cases m'.rankId with hlt | ⟨heq, -⟩
        · exact absurd hle (not_le.mpr hlt)
        · exact hall m' hm' hguid' (heq.trans hlen)
      have hnodup : g.members.Nodup := List.Nodup.of_map _ h.guids_nodup
      cases hmembers : g.members with
      | nil => exact absurd hmembers h.members
      | cons first rest =>
        rw [hmembers] at hsame hnodup
        obtain rfl := hsame first mem_cons_self
        cases rest with
        | nil => rfl
        | cons second rest =>
          have hsecond := hsame second (mem_cons_of_mem _ mem_cons_self)
          rw [hsecond, nodup_cons] at hnodup
          exact absurd mem_cons_self hnodup.1
  · intro hall m hm hguid hrank
    rcases hall m hm hrank with hlead | ⟨-, hsingle⟩
    · exact hguid ((hin (hlead ▸ mem_guids hm)).trans hlead.symm).symm
    · rw [hsingle] at hleader
      exact hguid (congrArg Member.guid (mem_singleton.mp hleader)).symm

/-- **When a validation repairs a guild for good**: a guild as the tables give it is repaired by
`Validate`, and another validation changes nothing, exactly if no member but the coming leader has
the first rank id that is out of range and no default ranks are made for a guild with tabs. -/
theorem validate_repairs_iff (allowMultiple : Bool) (walk : List Guid) (g : LoadedGuild)
    (h : g.Loadable) (hwalk : walk.Perm g.guids) :
    (∀ g', g.validate allowMultiple walk = some g' →
      g'.Repaired allowMultiple ∧ ∀ walk', g'.validate allowMultiple walk' = some g') ↔
      g.Mendable := by
  obtain ⟨ranks, leader, hleader, heq, hlen, hsound, hcomplete, hin, hleast⟩ :=
    validate_eq h allowMultiple hwalk
  have hiff := repaired_mended_iff hsound allowMultiple hleader
  have hmembers := mendable_members_iff h hleader hlen hsound hin hleast
  have hnodup : (({ g with ranks := ranks } : LoadedGuild).mended allowMultiple
      leader.guid).guids.Nodup := by
    rw [mended_guids]
    exact h.guids_nodup
  have hcompleteMended : (({ g with ranks := ranks } : LoadedGuild).mended allowMultiple
      leader.guid).Complete ↔ (g.brokenRanks = true → g.purchasedTabs = 0) := by
    rw [← hcomplete]
    unfold Complete
    rw [mended_ranks, mended_purchasedTabs]
  constructor
  · intro hall
    obtain ⟨hrep, hagain⟩ := hall _ heq
    exact ⟨hmembers.mp (hiff.mp hrep),
      hcompleteMended.mp ((validate_self_iff hrep hnodup walk).mp (hagain walk))⟩
  · intro hmend g' hg'
    obtain rfl := Option.some.inj (heq.symm.trans hg')
    have hrep := hiff.mpr (hmembers.mpr hmend.members)
    exact ⟨hrep, fun walk' =>
      (validate_self_iff hrep hnodup walk').mpr (hcompleteMended.mpr hmend.tabs)⟩

/-- A guild of five good ranks with a leader and another member. -/
def twoMembers (rankId : ℕ) : LoadedGuild := ⟨1, [⟨1, 0⟩, ⟨2, rankId⟩], defaultRanks, 0⟩

theorem loadable_twoMembers : (twoMembers 3).Loadable :=
  ⟨by decide, by decide, by decide, by decide, by decide, by decide⟩

/-- A guild with nothing to repair. -/
theorem validate_repairs_iff_twoMembers :
    (twoMembers 3).validate false [1, 2] = some (twoMembers 3) ∧
      ∀ g', (twoMembers 3).validate false [1, 2] = some g' →
        g'.Repaired false ∧ ∀ walk', g'.validate false walk' = some g' :=
  ⟨by decide,
    (validate_repairs_iff false [1, 2] (twoMembers 3) loadable_twoMembers (by decide)).mpr
      ⟨by decide, by decide⟩⟩

/-- **An initiate out of range**: with five ranks a member of rank 5 keeps this rank, which there is
none of. -/
theorem initiate_out_of_range :
    ∃ g', (twoMembers 5).validate false [1, 2] = some g' ∧ ¬ g'.Repaired false := by
  refine ⟨twoMembers 5, by decide, fun hrep => ?_⟩
  have hlt := hrep.members ⟨2, 5⟩ (by decide)
  exact absurd hlt (by decide)

end LoadedGuild

end IscServer.Guilds
