import IscServer.Channels.Channel
import IscServer.Library.Run

/-!
# The Owner of a Chat Channel

The owner of a custom channel is known by a guid, by a flag of its record and by a flag of the channel that
says whether it is an invisible game master.

## Main results

* `owned_of_run` — a channel with members has one of them as its owner while nobody joins an empty channel
  that has had a visible owner, no owner kicks himself off a channel with other members, and whoever becomes
  the owner by a command, or by a leave, is as visible as the owner before.
* `rejoined_without_owner`, `kicked_himself` and `invisible_handed_over` — what happens otherwise.
-/

namespace IscServer.Channels

open List

variable {channel : Channel} {players : Players}

/-! ### What holds -/

/-- **The owner is present**: a channel with members has exactly one of them as its owner, who is a
moderator; the channel knows whether it is invisible; and no member is banned. -/
structure Channel.Owned (channel : Channel) : Prop where
  owner : channel.playersStore ≠ [] → ∃ info ∈ channel.playersStore, channel.ownerGuid = some info.guid ∧
    info.owner = true ∧ info.moderator = true ∧ channel.isOwnerInvisible = info.invisible ∧
    ∀ other ∈ channel.playersStore, other.owner = true → other.guid = info.guid
  banned : ∀ info ∈ channel.playersStore, channel.isBanned info.guid = false

instance (channel : Channel) : Decidable channel.Owned :=
  decidable_of_iff ((channel.playersStore ≠ [] → ∃ info ∈ channel.playersStore,
    channel.ownerGuid = some info.guid ∧ info.owner = true ∧ info.moderator = true ∧
    channel.isOwnerInvisible = info.invisible ∧
    ∀ other ∈ channel.playersStore, other.owner = true → other.guid = info.guid) ∧
      ∀ info ∈ channel.playersStore, channel.isBanned info.guid = false)
    ⟨fun h => ⟨h.1, h.2⟩, fun h => ⟨h.1, h.2⟩⟩

/-- **The command keeps an owner**: an empty channel is joined only if it had no owner or an invisible one;
an invisible owner leaves only invisible members behind; an owner is kicked by another member, who is as
visible, or is the last one; and `SetOwner` names a member who is as visible as the owner. -/
def Channel.Keeps (channel : Channel) (players : Players) (guid : ℕ) : Command → Prop
  | .joinChannel pass => channel.canJoin guid pass = true → channel.playersStore = [] →
      channel.ownerGuid = none ∨ channel.isOwnerInvisible = true
  | .leaveChannel => ∀ info ∈ channel.find guid, info.owner = true → channel.isOwnerInvisible = true →
      ∀ other ∈ channel.playersStore, other.guid ≠ guid → other.invisible = true
  | .kickOrBan badname _ => ∀ victim ∈ channel.kickTarget players guid badname,
      channel.ownerGuid = some victim → (∃ other ∈ channel.playersStore, other.guid ≠ victim) →
        victim ≠ guid ∧ ∀ info ∈ channel.find guid, info.invisible = channel.isOwnerInvisible
  | .setOwner newname => ∀ victim ∈ channel.ownerTarget players guid newname,
      ∀ info ∈ channel.find victim, info.invisible = channel.isOwnerInvisible
  | _ => True

instance (channel : Channel) (players : Players) (guid : ℕ) (command : Command) :
    Decidable (channel.Keeps players guid command) :=
  match command with
  | .joinChannel _ => inferInstanceAs (Decidable (_ → _ → _ ∨ _))
  | .leaveChannel => inferInstanceAs (Decidable (∀ info ∈ channel.find guid, info.owner = true →
      channel.isOwnerInvisible = true → ∀ other ∈ channel.playersStore, other.guid ≠ guid →
        other.invisible = true))
  | .kickOrBan badname _ => inferInstanceAs (Decidable (∀ victim ∈ channel.kickTarget players guid badname,
      channel.ownerGuid = some victim → (∃ other ∈ channel.playersStore, other.guid ≠ victim) →
        victim ≠ guid ∧ ∀ info ∈ channel.find guid, info.invisible = channel.isOwnerInvisible))
  | .setOwner newname => inferInstanceAs (Decidable (∀ victim ∈ channel.ownerTarget players guid newname,
      ∀ info ∈ channel.find victim, info.invisible = channel.isOwnerInvisible))
  | .unBan _ | .password _ | .setMode _ _ _ | .setInvisible _ | .announce => inferInstanceAs (Decidable True)

/-! ### The invariant -/

/-- What holds also while the owner is changed: only the owner has the flag. -/
structure Marked (channel : Channel) : Prop where
  keys : (channel.playersStore.map PlayerInfo.guid).Nodup
  banned : ∀ info ∈ channel.playersStore, info.guid ∉ channel.bannedStore
  ownership : channel.ownershipEnabled = true
  marked : ∀ info ∈ channel.playersStore, info.owner = true → channel.ownerGuid = some info.guid

/-- **The invariant**: the owner is a member, with all that belongs to it. -/
structure Sound (channel : Channel) : Prop extends Marked channel where
  member : channel.playersStore ≠ [] → ∃ info ∈ channel.playersStore, channel.ownerGuid = some info.guid
  owner : ∀ info ∈ channel.playersStore, channel.ownerGuid = some info.guid →
    info.owner = true ∧ info.moderator = true ∧ channel.isOwnerInvisible = info.invisible

theorem sound_new (name : String) (banned : List ℕ) : Sound (Channel.new name banned) where
  keys := nodup_nil
  banned := fun _ hin => (by cases hin)
  ownership := rfl
  marked := fun _ hin => (by cases hin)
  member := fun hne => absurd rfl hne
  owner := fun _ hin => (by cases hin)

theorem Sound.owned (h : Sound channel) : channel.Owned where
  owner := fun hne => by
    obtain ⟨info, hin, hguid⟩ := h.member hne
    obtain ⟨howner, hmoderator, hinvisible⟩ := h.owner info hin hguid
    refine ⟨info, hin, hguid, howner, hmoderator, hinvisible, fun other hother hmarked => ?_⟩
    exact Option.some.inj ((h.marked other hother hmarked).symm.trans hguid)
  banned := fun info hin => decide_eq_false (h.banned info hin)

/-! ### Members -/

variable {guid : ℕ}

theorem Marked.find_iff (h : Marked channel) {info : PlayerInfo} :
    channel.find guid = some info ↔ info ∈ channel.playersStore ∧ info.guid = guid :=
  Keyed.find_eq_some_iff h.keys

theorem isOn_iff : channel.isOn guid = true ↔ ∃ info ∈ channel.playersStore, info.guid = guid := by
  rw [Channel.isOn, Channel.find, Option.isSome_iff_ne_none, Ne, Keyed.find_eq_none_iff]
  simp

variable {f : PlayerInfo → PlayerInfo}

/-- A write that keeps the guid. -/
theorem keys_modify (hf : ∀ info, (f info).guid = info.guid) :
    (channel.modify guid f).playersStore.map PlayerInfo.guid = channel.playersStore.map PlayerInfo.guid := by
  rw [Channel.modify, map_map]
  refine map_congr_left fun info _ => ?_
  rw [Function.comp_apply]
  split_ifs
  · exact hf info
  · rfl

theorem mem_modify {info : PlayerInfo} :
    info ∈ (channel.modify guid f).playersStore ↔
      ∃ old ∈ channel.playersStore, (if old.guid = guid then f old else old) = info :=
  mem_map

/-- A write to a record that changes neither the guid nor the owner flag. -/
theorem Marked.modify (h : Marked channel)
    (hf : ∀ info, (f info).guid = info.guid) (howner : ∀ info, (f info).owner = info.owner) :
    Marked (channel.modify guid f) := by
  have hsame : ∀ info ∈ (channel.modify guid f).playersStore,
      ∃ old ∈ channel.playersStore, old.guid = info.guid ∧ old.owner = info.owner := by
    intro info hin
    obtain ⟨old, hold, rfl⟩ := mem_modify.mp hin
    refine ⟨old, hold, ?_⟩
    split_ifs
    · exact ⟨(hf old).symm, (howner old).symm⟩
    · exact ⟨rfl, rfl⟩
  refine ⟨?_, fun info hin => ?_, h.ownership, fun info hin hmarked => ?_⟩
  · rw [keys_modify hf]
    exact h.keys
  · obtain ⟨old, hold, hguid, -⟩ := hsame info hin
    rw [← hguid]
    exact h.banned old hold
  · obtain ⟨old, hold, hguid, hsameOwner⟩ := hsame info hin
    rw [← hguid]
    exact h.marked old hold (hsameOwner.trans hmarked)

/-- Such a write keeps the invariant if it also leaves the owner a moderator and visible as it is. -/
theorem Sound.modify (h : Sound channel)
    (hf : ∀ info, (f info).guid = info.guid) (howner : ∀ info, (f info).owner = info.owner)
    (hkept : channel.ownerGuid = some guid → ∀ info,
      (info.moderator = true → (f info).moderator = true) ∧ (f info).invisible = info.invisible) :
    Sound (channel.modify guid f) := by
  refine ⟨h.toMarked.modify hf howner, fun hne => ?_, fun info hin hguid => ?_⟩
  · have hold : channel.playersStore ≠ [] := by
      intro hnil
      rw [Channel.modify, hnil] at hne
      exact hne rfl
    obtain ⟨info, hin, hguid⟩ := h.member hold
    refine ⟨_, mem_modify.mpr ⟨info, hin, rfl⟩, ?_⟩
    split_ifs
    · rw [hf]
      exact hguid
    · exact hguid
  · obtain ⟨old, hold, rfl⟩ := mem_modify.mp hin
    split_ifs at hguid ⊢ with hsame
    · rw [hf] at hguid
      obtain ⟨hmarked, hmoderator, hinvisible⟩ := h.owner old hold hguid
      obtain ⟨hmod, hinv⟩ := hkept (hsame ▸ hguid) old
      exact ⟨(howner old).trans hmarked, hmod hmoderator, hinvisible.trans hinv.symm⟩
    · exact h.owner old hold hguid

/-- A member leaves. -/
theorem Marked.erase (h : Marked channel) (guid : ℕ) : Marked (channel.erase guid) where
  keys := h.keys.sublist (filter_sublist.map _)
  banned := fun info hin => h.banned info (mem_filter.mp hin).1
  ownership := h.ownership
  marked := fun info hin => h.marked info (mem_filter.mp hin).1

theorem mem_erase {info : PlayerInfo} :
    info ∈ (channel.erase guid).playersStore ↔ info ∈ channel.playersStore ∧ info.guid ≠ guid := by
  rw [Channel.erase]
  simp

/-- A member who is not the owner leaves. -/
theorem Sound.erase (h : Sound channel) (hother : channel.ownerGuid ≠ some guid) :
    Sound (channel.erase guid) := by
  refine ⟨h.toMarked.erase guid, fun hne => ?_, fun info hin => h.owner info (mem_erase.mp hin).1⟩
  obtain ⟨first, hfirst⟩ := exists_mem_of_ne_nil _ hne
  obtain ⟨info, hin, hguid⟩ := h.member (ne_nil_of_mem (mem_erase.mp hfirst).1)
  refine ⟨info, mem_erase.mpr ⟨hin, ?_⟩, hguid⟩
  rintro rfl
  exact hother hguid

/-- A channel without members. -/
theorem Marked.sound_of_empty (h : Marked channel) (hempty : channel.playersStore = []) :
    Sound channel where
  toMarked := h
  member := fun hne => absurd hempty hne
  owner := fun info hin => by rw [hempty] at hin; cases hin

/-! ### A new owner -/

/-- The record of a member after `SetOwner`. -/
def reown (old : Option ℕ) (guid : ℕ) (info : PlayerInfo) : PlayerInfo :=
  if info.guid = guid then { info with owner := true, moderator := true }
  else if old = some info.guid then { info with owner := false } else info

theorem reown_guid (old : Option ℕ) (guid : ℕ) (info : PlayerInfo) :
    (reown old guid info).guid = info.guid := by
  rw [reown]
  split_ifs <;> rfl

/-- What `SetOwner` writes to a record. -/
theorem reown_eq {old : Option ℕ} {info : PlayerInfo} : reown old guid info =
    let unmarked := if old = some info.guid then info.setOwner false else info
    if unmarked.guid = guid then (unmarked.setModerator true).setOwner true else unmarked := by
  rw [reown]
  by_cases hguid : info.guid = guid
  · by_cases hold : old = some info.guid <;> simp [hold, PlayerInfo.setOwner, PlayerInfo.setModerator]
  · by_cases hold : old = some info.guid <;> simp [hold, hguid, PlayerInfo.setOwner]

/-- **`SetOwner`** for the guid of a member. -/
theorem setOwner_eq (hon : channel.isOn guid = true) : channel.setOwner guid =
    { channel with
    ownerGuid := some guid, isDirty := true,
    playersStore := channel.playersStore.map (reown channel.ownerGuid guid) } := by
  rw [Channel.setOwner]
  cases hold : channel.ownerGuid with
  | none =>
    have hsame : ({ channel with ownerGuid := some guid } : Channel).isOn guid = true := hon
    rw [if_pos hsame]
    rfl
  | some owner =>
    dsimp only
    have hsame : ({ channel.modify owner (PlayerInfo.setOwner false) with ownerGuid := some guid } :
        Channel).isOn guid = true := by
      obtain ⟨info, hin, hguid⟩ := isOn_iff.mp hon
      refine isOn_iff.mpr ⟨_, mem_map_of_mem hin, ?_⟩
      split_ifs
      · exact hguid
      · exact hguid
    rw [if_pos hsame, Channel.modify, Channel.modify, map_map]
    congr 1
    refine map_congr_left fun info _ => ?_
    rw [reown_eq, Function.comp_apply]
    simp only [Option.some.injEq, eq_comm (a := owner)]
    rfl

/-- **A new owner**, who is as visible as the channel says. -/
theorem Marked.setOwner (h : Marked channel) (hon : channel.isOn guid = true)
    (hinvisible : ∀ info ∈ channel.playersStore, info.guid = guid → channel.isOwnerInvisible = info.invisible) :
    Sound (channel.setOwner guid) := by
  rw [setOwner_eq hon]
  have hmem : ∀ info ∈ channel.playersStore.map (reown channel.ownerGuid guid),
      ∃ old ∈ channel.playersStore, reown channel.ownerGuid guid old = info := fun info hin => mem_map.mp hin
  refine ⟨⟨?_, fun info hin => ?_, h.ownership, fun info hin hmarked => ?_⟩, fun _ => ?_, fun info hin hguid => ?_⟩
  · rw [map_map]
    have hkeys := h.keys
    rwa [← map_congr_left fun info _ => reown_guid channel.ownerGuid guid info] at hkeys
  · obtain ⟨old, hold, rfl⟩ := hmem info hin
    rw [reown_guid]
    exact h.banned old hold
  · obtain ⟨old, hold, rfl⟩ := hmem info hin
    rw [reown_guid]
    rw [reown] at hmarked
    split_ifs at hmarked with hguid hother
    · exact congrArg some hguid.symm
    · exact absurd (h.marked old hold hmarked) hother
  · obtain ⟨info, hin, hguid⟩ := isOn_iff.mp hon
    refine ⟨_, mem_map_of_mem hin, ?_⟩
    rw [reown_guid, hguid]
  · obtain ⟨old, hold, rfl⟩ := hmem info hin
    rw [reown_guid] at hguid
    have hsame : old.guid = guid := (Option.some.inj hguid).symm
    rw [reown, if_pos hsame]
    exact ⟨rfl, rfl, hinvisible old hold hsame⟩

/-! ### Commands -/

theorem isOn_modify {guid other : ℕ} (hf : ∀ info, (f info).guid = info.guid) :
    (channel.modify guid f).isOn other = channel.isOn other := by
  rw [Bool.eq_iff_iff, isOn_iff, isOn_iff, Channel.modify]
  constructor
  · rintro ⟨info, hin, hguid⟩
    obtain ⟨old, hold, rfl⟩ := mem_map.mp hin
    refine ⟨old, hold, ?_⟩
    split_ifs at hguid
    · exact (hf old).symm.trans hguid
    · exact hguid
  · rintro ⟨info, hin, hguid⟩
    refine ⟨_, mem_map_of_mem hin, ?_⟩
    split_ifs
    · exact (hf info).trans hguid
    · exact hguid

/-- A member is made a moderator and the owner. -/
theorem Marked.promote (h : Marked channel) (hon : channel.isOn guid = true)
    (hinvisible : ∀ info ∈ channel.playersStore, info.guid = guid → channel.isOwnerInvisible = info.invisible) :
    Sound ((channel.modify guid (PlayerInfo.setModerator true)).setOwner guid) := by
  have hmoderator : Marked (channel.modify guid (PlayerInfo.setModerator true)) :=
    h.modify (fun _ => rfl) fun _ => rfl
  refine hmoderator.setOwner ?_ fun info hin hguid => ?_
  · exact (isOn_modify (f := PlayerInfo.setModerator true) fun _ => rfl).trans hon
  · obtain ⟨old, hold, rfl⟩ := mem_modify.mp hin
    split_ifs at hguid ⊢
    · exact hinvisible old hold hguid
    · exact hinvisible old hold hguid

theorem mem_insert {info other : PlayerInfo} :
    other ∈ (channel.insert info).playersStore ↔ other = info ∨ other ∈ channel.playersStore := by
  exact mem_orderedInsert _

/-- A new member without flags, who is not banned. -/
theorem Marked.insert (h : Marked channel) {info : PlayerInfo}
    (hon : channel.isOn info.guid = false)
    (hbanned : channel.isBanned info.guid = false) (howner : info.owner = false) :
    Marked (channel.insert info) where
  keys := by
    have hperm := (perm_orderedInsert (fun a b : PlayerInfo => a.guid ≤ b.guid) info
      channel.playersStore).map PlayerInfo.guid
    refine hperm.nodup_iff.mpr (nodup_cons.mpr ⟨fun hin => ?_, h.keys⟩)
    obtain ⟨other, hother, hguid⟩ := mem_map.mp hin
    have hsome := isOn_iff.mpr ⟨other, hother, hguid⟩
    rw [hon] at hsome
    cases hsome
  banned := fun other hin => by
    rcases mem_insert.mp hin with rfl | hin
    · exact of_decide_eq_false hbanned
    · exact h.banned other hin
  ownership := h.ownership
  marked := fun other hin hmarked => by
    rcases mem_insert.mp hin with rfl | hin
    · rw [howner] at hmarked
      cases hmarked
    · exact h.marked other hin hmarked

/-- **Joining**. -/
theorem Sound.joinChannel (h : Sound channel) {pass : String}
    (hkeeps : channel.Keeps players guid (.joinChannel pass)) :
    Sound (channel.joinChannel players guid pass) := by
  rw [Channel.joinChannel]
  by_cases hcan : channel.canJoin guid pass = true
  swap
  · rw [if_neg hcan]
    exact h
  have hchecks := hcan
  simp only [Channel.canJoin, Bool.and_eq_true, Bool.not_eq_true'] at hchecks
  obtain ⟨⟨hon, hbanned⟩, -⟩ := hchecks
  have hnew : ∀ info ∈ channel.playersStore, info.guid ≠ guid := by
    intro info hin hguid
    rw [isOn_iff.mpr ⟨info, hin, hguid⟩] at hon
    cases hon
  dsimp only
  generalize hinvisible : (!players.isGMVisible guid) = invisible
  generalize (if channel.playersStore.isEmpty then 0 else channel.nextActivityUpdateTime) = activity
  have hmarked : Marked { channel with nextActivityUpdateTime := activity } :=
    ⟨h.keys, h.banned, h.ownership, h.marked⟩
  have hinserted := @Marked.insert _ hmarked ⟨guid, false, false, false, invisible⟩ hon hbanned rfl
  split_ifs with howner
  · -- the new member becomes the owner
    have hready : Marked { ({ channel with nextActivityUpdateTime := activity } : Channel).insert
        ⟨guid, false, false, false, invisible⟩ with isOwnerInvisible := invisible } :=
      ⟨hinserted.keys, hinserted.banned, hinserted.ownership, hinserted.marked⟩
    refine (hready.setOwner (isOn_iff.mpr ⟨_, mem_insert.mpr (Or.inl rfl), rfl⟩) fun info hin hguid => ?_).modify
      (fun _ => rfl) (fun _ => rfl) fun _ _ => ⟨fun _ => rfl, rfl⟩
    rcases mem_insert.mp hin with rfl | hin
    · rfl
    · exact absurd hguid (hnew info hin)
  · have hne : channel.playersStore ≠ [] := by
      intro hempty
      refine howner ?_
      have hvacant := hkeeps hcan hempty
      have hownership := h.ownership
      simp only [Channel.insert, hempty, hownership, isEmpty_nil, Bool.true_or, Bool.true_and]
      rcases hvacant with hnone | hown
      · rw [hnone]
        rfl
      · rw [hown, Bool.or_true]
    obtain ⟨owner, hin, hguid⟩ := h.member hne
    refine ⟨hinserted, fun _ => ⟨owner, mem_insert.mpr (Or.inr hin), hguid⟩, fun info hinfo hinfoGuid => ?_⟩
    rcases mem_insert.mp hinfo with rfl | hinfo
    · exact absurd (Option.some.inj (hguid.symm.trans hinfoGuid)) (hnew owner hin)
    · exact h.owner info hinfo hinfoGuid

/-- The next owner is a member, a visible one if there is any. -/
theorem nextOwner_spec : (∀ info, channel.nextOwner = some info → info ∈ channel.playersStore ∧
      (info.invisible = true → ∀ other ∈ channel.playersStore, other.invisible = true)) ∧
    (channel.nextOwner = none → channel.playersStore = []) := by
  rw [Channel.nextOwner]
  cases hfind : channel.playersStore.find? fun info => !info.invisible with
  | none =>
    have hall : ∀ info ∈ channel.playersStore, info.invisible = true := by
      intro info hin
      simpa using List.find?_eq_none.mp hfind info hin
    exact ⟨fun info hhead => ⟨mem_of_head? hhead, fun _ => hall⟩, List.head?_eq_none_iff.mp⟩
  | some first =>
    refine ⟨fun info hinfo => ?_, nofun⟩
    cases hinfo
    refine ⟨mem_of_find?_eq_some hfind, fun hinvisible => ?_⟩
    have hvisible := List.find?_some hfind
    rw [hinvisible] at hvisible
    cases hvisible

/-- `SetOwner` does not look at the flag of the channel. -/
theorem setOwner_isOwnerInvisible (invisible : Bool) (hon : channel.isOn guid = true) :
    ({ channel with isOwnerInvisible := invisible } : Channel).setOwner guid =
      { channel.setOwner guid with isOwnerInvisible := invisible } := by
  have hsame : ({ channel with isOwnerInvisible := invisible } : Channel).isOn guid = true := hon
  rw [setOwner_eq hon, setOwner_eq hsame]

/-- **Leaving**. -/
theorem Sound.leaveChannel (h : Sound channel) (hkeeps : channel.Keeps players guid .leaveChannel) :
    Sound (channel.leaveChannel guid) := by
  rw [Channel.leaveChannel]
  cases hfind : channel.find guid with
  | none => exact h
  | some info =>
    obtain ⟨hin, rfl⟩ := h.find_iff.mp hfind
    dsimp only
    by_cases howner : info.owner = true
    · have hownership : (channel.erase info.guid).ownershipEnabled = true := h.ownership
      rw [howner, hownership, Bool.and_self, if_pos rfl]
      have herased := h.toMarked.erase info.guid
      obtain ⟨hspec, hempty⟩ := @nextOwner_spec (channel.erase info.guid)
      cases hnext : (channel.erase info.guid).nextOwner with
      | none => exact herased.sound_of_empty (hempty hnext)
      | some itr =>
        obtain ⟨hitr, -⟩ := hspec itr hnext
        have hon : (channel.erase info.guid).isOn itr.guid = true := isOn_iff.mpr ⟨itr, hitr, rfl⟩
        have hsame : ∀ other ∈ (channel.erase info.guid).playersStore, other.guid = itr.guid → other = itr :=
          fun other hother hguid => Keyed.eq_of_key herased.keys hother hitr hguid
        dsimp only
        split_ifs with hitrInvisible
        · rw [← setOwner_isOwnerInvisible true
            ((isOn_modify (f := PlayerInfo.setModerator true) fun _ => rfl).trans hon)]
          have hready : Marked { channel.erase info.guid with isOwnerInvisible := true } :=
            ⟨herased.keys, herased.banned, herased.ownership, herased.marked⟩
          refine hready.promote hon fun other hother hguid => ?_
          rw [hsame other hother hguid, hitrInvisible]
        · refine herased.promote hon fun other hother hguid => ?_
          rw [hsame other hother hguid, Bool.eq_false_iff.mpr hitrInvisible, Bool.eq_false_iff]
          -- the visible owner that is found was not found behind an invisible one
          intro hinvisibleOwner
          obtain ⟨hitrIn, hne⟩ := mem_erase.mp hitr
          exact hitrInvisible (hkeeps info hfind howner hinvisibleOwner itr hitrIn hne)
    · have hother : channel.ownerGuid ≠ some info.guid := fun hguid =>
        howner (h.owner info hin hguid).1
      rw [Bool.eq_false_iff.mpr howner, Bool.false_and, if_neg Bool.false_ne_true]
      exact h.erase hother

/-- Banning leaves everything but the ban list, of which a member is removed. -/
theorem Marked.ban (h : Marked channel) (victim : ℕ) (ban : Bool) :
    Marked ((if ban && !channel.isBanned victim then
      { channel with bannedStore := channel.bannedStore ++ [victim], isDirty := true } else channel).erase
        victim) := by
  split_ifs
  · refine ⟨(h.erase victim).keys, fun info hin hbanned => ?_, h.ownership, (h.erase victim).marked⟩
    obtain ⟨hin, hne⟩ := mem_erase.mp hin
    rcases mem_append.mp hbanned with hbanned | hbanned
    · exact h.banned info hin hbanned
    · exact hne (mem_singleton.mp hbanned)
  · exact h.erase victim

/-- Whom a command removes or changes is a member, and so is who gives it. -/
theorem mem_of_mayModerate (h : channel.mayModerate players guid = true) :
    ∃ info, channel.find guid = some info := by
  rw [Channel.mayModerate, Option.any_eq_true] at h
  obtain ⟨info, hfind, -⟩ := h
  exact ⟨info, hfind⟩

theorem kickTarget_spec {guid victim : ℕ} {badname : String}
    (h : channel.kickTarget players guid badname = some victim) : ∃ info, channel.find guid = some info := by
  rw [Channel.kickTarget] at h
  split_ifs at h with hmay
  exact mem_of_mayModerate hmay

section

variable (h : Sound channel)
include h

/-- **Kicking and banning**. -/
theorem Sound.kickOrBan {badname : String} {ban : Bool}
    (hkeeps : channel.Keeps players guid (.kickOrBan badname ban)) :
    ∃ channel', channel.kickOrBan players guid badname ban = some channel' ∧ Sound channel' := by
  rw [Channel.kickOrBan]
  cases htarget : channel.kickTarget players guid badname with
  | none => exact ⟨channel, rfl, h⟩
  | some victim =>
    have hmarked := h.toMarked.ban victim ban
    have hstore : ∀ info, info ∈ ((if ban && !channel.isBanned victim then
        { channel with bannedStore := channel.bannedStore ++ [victim], isDirty := true } else channel).erase
          victim).playersStore ↔ info ∈ channel.playersStore ∧ info.guid ≠ victim := by
      intro info
      rw [mem_erase]
      split_ifs <;> rfl
    have howner : ((if ban && !channel.isBanned victim then
        { channel with bannedStore := channel.bannedStore ++ [victim], isDirty := true } else channel).erase
          victim).ownerGuid = channel.ownerGuid := by
      split_ifs <;> rfl
    have hflag : ((if ban && !channel.isBanned victim then
        { channel with bannedStore := channel.bannedStore ++ [victim], isDirty := true } else channel).erase
          victim).isOwnerInvisible = channel.isOwnerInvisible := by
      split_ifs <;> rfl
    dsimp only
    generalize (if ban && !channel.isBanned victim then
      { channel with bannedStore := channel.bannedStore ++ [victim], isDirty := true } else channel).erase
        victim = erased at hmarked hstore howner hflag
    by_cases hchange : channel.ownerGuid = some victim
    · rw [decide_eq_true hchange, hmarked.ownership, Bool.and_self, Bool.true_and]
      by_cases hempty : erased.playersStore = []
      · rw [hempty, isEmpty_nil]
        exact ⟨erased, rfl, hmarked.sound_of_empty hempty⟩
      · obtain ⟨other, hother⟩ := exists_mem_of_ne_nil _ hempty
        obtain ⟨hne, hvisible⟩ := hkeeps victim htarget hchange ⟨other, (hstore other).mp hother⟩
        obtain ⟨info, hfind⟩ := kickTarget_spec htarget
        obtain ⟨hin, hguid⟩ := h.find_iff.mp hfind
        have hon : erased.isOn guid = true :=
          isOn_iff.mpr ⟨info, (hstore info).mpr ⟨hin, hguid ▸ hne.symm⟩, hguid⟩
        rw [isEmpty_eq_false_iff.mpr hempty, Bool.not_false, if_pos rfl, if_pos hon]
        refine ⟨_, rfl, hmarked.promote hon fun same hsame hsameGuid => ?_⟩
        have heq : same = info := Keyed.eq_of_key h.keys ((hstore same).mp hsame).1 hin
          (hsameGuid.trans hguid.symm)
        rw [hflag, heq, hvisible info hfind]
    · rw [decide_eq_false hchange, Bool.false_and, Bool.false_and, if_neg Bool.false_ne_true]
      refine ⟨erased, rfl, hmarked, fun hne => ?_, fun info hin hguid => ?_⟩
      · obtain ⟨first, hfirst⟩ := exists_mem_of_ne_nil _ hne
        obtain ⟨info, hin, hguid⟩ := h.member (ne_nil_of_mem ((hstore first).mp hfirst).1)
        refine ⟨info, (hstore info).mpr ⟨hin, ?_⟩, howner.trans hguid⟩
        rintro rfl
        exact hchange hguid
      · rw [howner] at hguid
        rw [hflag]
        exact h.owner info ((hstore info).mp hin).1 hguid

/-- **Modes**: the owner's own flag is out of reach. -/
theorem Sound.setMode {p2n : String} {mod set : Bool} :
    Sound (channel.setMode players guid p2n mod set) := by
  rw [Channel.setMode]
  cases htarget : channel.modeTarget players guid p2n mod with
  | none => exact h
  | some victim =>
    split_ifs with hmod
    · refine h.modify (fun _ => rfl) (fun _ => rfl) fun howner => ?_
      rw [Channel.modeTarget] at htarget
      split_ifs at htarget with hmay hself
      obtain ⟨hconnected, hchecks⟩ := Option.filter_eq_some_iff.mp htarget
      simp only [Bool.and_eq_true, Bool.not_eq_true', Bool.and_eq_false_iff, decide_eq_false_iff_not,
        Bool.not_eq_false', decide_eq_true_eq] at hchecks
      have hguid : channel.ownerGuid = some guid := hchecks.2.resolve_left fun hne => hne howner
      have hsame : victim = guid := Option.some.inj (howner.symm.trans hguid)
      refine absurd ?_ hself
      rw [hmod, hguid, decide_eq_true rfl, ← players.connected_name hconnected, hsame]
      simp
    · exact h.modify (fun _ => rfl) (fun _ => rfl) fun _ _ => ⟨fun hmoderator => hmoderator, rfl⟩

/-- **Visibility**. -/
theorem Sound.setInvisible {on : Bool} : Sound (channel.setInvisible guid on) := by
  rw [Channel.setInvisible]
  split_ifs with hon
  · have hmarked : Marked (channel.modify guid (PlayerInfo.setInvisible on)) :=
      h.toMarked.modify (fun _ => rfl) fun _ => rfl
    dsimp only
    split_ifs with howner
    · have howned : channel.ownerGuid = some guid := howner
      refine ⟨⟨hmarked.keys, hmarked.banned, hmarked.ownership, hmarked.marked⟩, fun _ => ?_,
        fun info hin hguid => ?_⟩
      · obtain ⟨info, hin, hguid⟩ := isOn_iff.mp hon
        refine ⟨_, mem_modify.mpr ⟨info, hin, rfl⟩, ?_⟩
        rw [if_pos hguid]
        exact howned.trans (congrArg some hguid.symm)
      · obtain ⟨old, hold, rfl⟩ := mem_modify.mp hin
        have hsame : old.guid = guid := by
          split_ifs at hguid with hold'
          · exact hold'
          · exact (Option.some.inj (howned.symm.trans hguid)).symm
        obtain ⟨hmarked', hmoderator, -⟩ := h.owner old hold (hsame ▸ howned)
        rw [if_pos hsame]
        exact ⟨hmarked', hmoderator, rfl⟩
    · exact h.modify (fun _ => rfl) (fun _ => rfl) fun hguid => absurd hguid howner
  · exact h

/-- **Handing over**. -/
theorem Sound.setOwnerByName {newname : String}
    (hkeeps : channel.Keeps players guid (.setOwner newname)) :
    Sound (channel.setOwnerByName players guid newname) := by
  rw [Channel.setOwnerByName]
  cases htarget : channel.ownerTarget players guid newname with
  | none => exact h
  | some victim =>
    have hfound := htarget
    rw [Channel.ownerTarget] at hfound
    split_ifs at hfound with hmay
    obtain ⟨-, hchecks⟩ := Option.filter_eq_some_iff.mp hfound
    have hon : channel.isOn victim = true := (Bool.and_eq_true _ _ ▸ hchecks).1
    refine h.toMarked.promote hon fun info hin hguid => ?_
    exact (hkeeps victim htarget info (h.find_iff.mpr ⟨hin, hguid⟩)).symm

/-- The ban list, the password and the announcements have nothing to do with the owner. -/
theorem Sound.settings {banned : List ℕ}
    (hbanned : ∀ guid ∈ banned, guid ∈ channel.bannedStore) (announced : Bool) (pass : String) :
    Sound
      { channel with
        bannedStore := banned
        isDirty := true
        announceEnabled := announced
        channelPassword := pass } :=
  ⟨⟨h.keys, fun info hin hban => h.banned info hin (hbanned _ hban), h.ownership, h.marked⟩,
    h.member, h.owner⟩

/-- **One command** keeps the invariant, and uses no record that was erased. -/
theorem Sound.step {command : Command} (hkeeps : channel.Keeps players guid command) :
    ∃ channel', channel.step players guid command = some channel' ∧ Sound channel' := by
  cases command with
  | joinChannel pass => exact ⟨_, rfl, h.joinChannel hkeeps⟩
  | leaveChannel => exact ⟨_, rfl, h.leaveChannel hkeeps⟩
  | kickOrBan badname ban => exact h.kickOrBan hkeeps
  | unBan badname =>
    refine ⟨_, rfl, ?_⟩
    rw [Channel.unBan]
    split_ifs
    · cases players.connected badname with
      | none => exact h
      | some victim =>
        dsimp only
        split_ifs
        · exact h.settings (fun _ hin => (mem_filter.mp hin).1) channel.announceEnabled
            channel.channelPassword
        · exact h
    · exact h
  | password pass =>
    refine ⟨_, rfl, ?_⟩
    rw [Channel.password]
    split_ifs
    · exact h.settings (fun _ hin => hin) channel.announceEnabled pass
    · exact h
  | setMode p2n mod set => exact ⟨_, rfl, h.setMode⟩
  | setInvisible on => exact ⟨_, rfl, h.setInvisible⟩
  | setOwner newname => exact ⟨_, rfl, h.setOwnerByName hkeeps⟩
  | announce =>
    refine ⟨_, rfl, ?_⟩
    rw [Channel.announce]
    split_ifs
    · exact h.settings (fun _ hin => hin) (!channel.announceEnabled) channel.channelPassword
    · exact h

end

/-! ### Runs -/

/-- A command of a player, with the players at that time. -/
structure Request where
  players : Players
  guid : ℕ
  command : Command

/-- One command on a channel in which no erased record has been used. -/
def step (channel : Option Channel) (request : Request) : Option Channel :=
  channel.bind (·.step request.players request.guid request.command)

/-- **A channel with members has one present owner** in every run of commands that keep one, and no command
uses a record that was erased. -/
theorem owned_of_run (name : String) (banned : List ℕ) (requests : List Request)
    (hkeeps : Run.Along step (fun state request => ∀ channel ∈ state,
      channel.Keeps request.players request.guid request.command) (some (Channel.new name banned)) requests) :
    Run.Along step (fun state request => ∃ channel, step state request = some channel ∧ channel.Owned)
      (some (Channel.new name banned)) requests := by
  refine hkeeps.imp_of_invariant (fun state => ∃ channel, state = some channel ∧ Sound channel) ?_ ?_
    ⟨_, rfl, sound_new name banned⟩
  · rintro _ request ⟨channel, rfl, h⟩ hkeeps
    exact h.step (hkeeps channel rfl)
  · rintro _ request ⟨channel, rfl, h⟩ hkeeps
    obtain ⟨channel', hstep, hsound⟩ := h.step (hkeeps channel rfl)
    exact ⟨channel', hstep, hsound.owned⟩

section Example

/-- Two players and a game master who cannot be seen. -/
def examplePlayers : Players where
  name guid := if guid = 1 then "Anna" else if guid = 2 then "Bert" else "Gamemaster"
  team _ := 0
  isGMVisible guid := guid = 1 || guid = 2
  changeNotModerator guid := guid = 3
  twoSideInteraction _ := false
  connected n := if n = "Anna" then some 1 else if n = "Bert" then some 2
    else if n = "Gamemaster" then some 3 else none
  connected_name := by
    intro n guid h
    split_ifs at h <;> cases h <;> simp_all
  connected_guid := by
    intro n guid h
    split_ifs at h <;> cases h <;> decide

/-- The players' requests. -/
def requests (commands : List (ℕ × Command)) : List Request :=
  commands.map fun command => ⟨examplePlayers, command.1, command.2⟩

/-- A game master who cannot be seen gives way to the first player, who is banned by the second. -/
theorem owned_of_run_banned :
    Run.Along step (fun state request => ∃ channel, step state request = some channel ∧ channel.Owned)
      (some (Channel.new "world" [])) (requests [(3, .joinChannel ""), (1, .joinChannel ""),
        (2, .joinChannel ""), (1, .setOwner "Bert"), (2, .kickOrBan "Anna" true), (1, .joinChannel ""),
        (2, .leaveChannel)]) :=
  owned_of_run "world" [] _ (by decide)

/-- **An empty channel keeps its owner**: everybody has left, and who joins now is not the owner. -/
theorem rejoined_without_owner :
    ((requests [(1, .joinChannel ""), (1, .leaveChannel), (2, .joinChannel "")]).foldl step
      (some (Channel.new "world" []))).any (fun channel => !channel.playersStore.isEmpty &&
        !decide channel.Owned) = true := by
  decide

end Example

end IscServer.Channels
