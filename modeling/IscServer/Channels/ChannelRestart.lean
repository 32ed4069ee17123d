import IscServer.Channels.ChannelMgr
import IscServer.Library.Run

/-!
# Channels across a Restart

What `LoadFromDB` makes of the rows that `SaveToDB` has written.

## Main results

* `mem_readBanList_write` — a ban list is read back from its text.
* `Framed.step` — a command that changes the settings of a channel marks it as changed.
* `Persisted.saveToDB` — after a save the table has the settings of every channel whose name is one of its
  own there.
* `channels_survive_iff` — the channels after a restart are those of the last save if and only if every name is in
  lower case, no two names are one in the table, and no row is old.
* `renamed_by_restart` — a channel with a capital letter in its name is not found any more, and neither are
  its bans and its password.
-/

namespace IscServer.Channels

open List Keyed

open IscServer.ChatCommands

variable {channel channel' channel'' : Channel} {players : Players}

/-! ### Lower case -/

/-- The units that have another one in lower case. -/
def IsCapital (wchar : ℕ) : Prop :=
  (0x41 ≤ wchar ∧ wchar ≤ 0x5A) ∨ (0xC0 ≤ wchar ∧ wchar ≤ 0xD6) ∨ (0xD8 ≤ wchar ∧ wchar ≤ 0xDE) ∨
    ((0x100 ≤ wchar ∧ wchar ≤ 0x12E) ∧ wchar % 2 = 0) ∨ wchar = 0x1E9E ∨ wchar = 0x401 ∨
    (0x410 ≤ wchar ∧ wchar ≤ 0x42F)

theorem wcharToLower_of_not_isCapital {wchar : ℕ} (h : ¬IsCapital wchar) :
    wcharToLower wchar = wchar := by
  simp only [IsCapital, not_or] at h
  obtain ⟨h1, h2, h3, h4, h5, h6, h7⟩ := h
  rw [wcharToLower, if_neg h1, if_neg h2, if_neg h3, if_neg h4, if_neg h5, if_neg h6, if_neg h7]

theorem not_isCapital_wcharToLower (wchar : ℕ) : ¬IsCapital (wcharToLower wchar) := by
  rw [wcharToLower]
  split_ifs <;> rw [IsCapital] <;> omega

/-- What is in lower case stays as it is. -/
theorem wcharToLower_wcharToLower (wchar : ℕ) : wcharToLower
    (wcharToLower wchar) = wcharToLower wchar :=
  wcharToLower_of_not_isCapital (not_isCapital_wcharToLower wchar)

theorem wstrToLower_wstrToLower (str : WString) : wstrToLower
    (wstrToLower str) = wstrToLower str := by
  rw [wstrToLower, wstrToLower, map_map]
  exact map_congr_left fun wchar _ => wcharToLower_wcharToLower wchar

/-! ### The text of a ban list -/

/-- A raw guid that is not empty. -/
def IsGuid (guid : ℕ) : Prop := 0 < guid ∧ guid < 2 ^ 64

theorem stringToUInt64_toDigits {guid : ℕ} (h : IsGuid guid) :
    stringToUInt64 (Nat.toDigits 10 guid) = some guid := by
  have hword : Decimal.IsWord (Nat.toDigits 10 guid) := fun c hc =>
    Nat.isDigit_of_mem_toDigits (by decide) (by decide) hc
  have hvalue : Decimal.value (Nat.toDigits 10 guid) = guid := Nat.ofDigitChars_ten_toDigits
  rw [stringToUInt64, hvalue, if_pos ⟨Nat.toDigits_ne_nil, hword, h.2⟩]

/-- A number has no delimiter in it. -/
theorem commandDelimiter_notMem_toDigits (guid : ℕ) : commandDelimiter ∉ Nat.toDigits 10 guid := by
  intro hmem
  have hdigit := Nat.isDigit_of_mem_toDigits (b := 10) (by decide) (by decide) hmem
  exact absurd hdigit (by decide)

theorem tokenizeAll_writeBanList (bannedStore : List ℕ) :
    tokenizeAll (writeBanList bannedStore) commandDelimiter = bannedStore.map (Nat.toDigits 10) := by
  induction bannedStore with
  | nil => exact tokenizeAll_nil
  | cons guid bannedStore ih =>
    have hsplit : writeBanList (guid :: bannedStore) =
        Nat.toDigits 10 guid ++ commandDelimiter :: writeBanList bannedStore := by
      simp [writeBanList]
    rw [hsplit, tokenizeAll_append (commandDelimiter_notMem_toDigits guid),
      if_neg Nat.toDigits_ne_nil, ih, map_cons]

/-- **A ban list is read back** from its text. -/
theorem mem_readBanList_write {bannedStore : List ℕ} (h : ∀ guid ∈ bannedStore, IsGuid guid)
    (guid : ℕ) :
    guid ∈ readBanList (writeBanList bannedStore) ↔ guid ∈ bannedStore := by
  have hloop : ∀ rest : List ℕ, (∀ guid ∈ bannedStore, IsGuid guid) →
      (guid ∈ (bannedStore.map (Nat.toDigits 10)).foldl
        (fun bannedStore token =>
          let banned := (stringToUInt64 token).getD 0
          if banned = 0 ∨ banned ∈ bannedStore then bannedStore else bannedStore ++ [banned]) rest ↔
        guid ∈ rest ∨ guid ∈ bannedStore) := by
    clear h
    induction bannedStore with
    | nil => simp
    | cons first bannedStore ih =>
      intro rest h
      obtain ⟨hfirst, h⟩ := forall_mem_cons.mp h
      have hpos : first ≠ 0 := Nat.pos_iff_ne_zero.mp hfirst.1
      rw [map_cons, foldl_cons, ih _ h, stringToUInt64_toDigits hfirst]
      simp only [Option.getD_some, hpos, false_or]
      split_ifs with hin
      · simp only [mem_cons]
        constructor
        · rintro (hrest | hbanned)
          · exact .inl hrest
          · exact .inr (.inr hbanned)
        · rintro (hrest | rfl | hbanned)
          · exact .inl hrest
          · exact .inl hin
          · exact .inr hbanned
      · simp only [mem_append, mem_cons, not_mem_nil, or_false, or_assoc]
  rw [readBanList, tokenizeAll_writeBanList, hloop [] h]
  simp

/-! ### What a command leaves -/

/-- **The frame of a command**: the name stays, and so do the settings unless the channel is marked as
changed. -/
structure Framed (channel channel' : Channel) : Prop where
  channelName : channel'.channelName = channel.channelName
  ownership : channel'.ownershipEnabled = channel.ownershipEnabled
  banned : ∀ guid ∈ channel'.bannedStore, guid ∈ channel.bannedStore ∨ IsGuid guid
  settings : channel'.isDirty = true ∨ (channel'.isDirty = channel.isDirty ∧
    channel'.announceEnabled = channel.announceEnabled ∧
    channel'.channelPassword = channel.channelPassword ∧ channel'.bannedStore = channel.bannedStore)

theorem Framed.refl (channel : Channel) : Framed channel channel :=
  ⟨rfl, rfl, fun _ h => .inl h, .inr ⟨rfl, rfl, rfl, rfl⟩⟩

theorem Framed.trans (h : Framed channel channel') (h' : Framed channel' channel'') :
    Framed channel channel'' where
  channelName := h'.channelName.trans h.channelName
  ownership := h'.ownership.trans h.ownership
  banned guid hguid := (h'.banned guid hguid).elim (h.banned guid) .inr
  settings := by
    obtain hdirty | ⟨hdirty, hannounce, hpass, hbanned⟩ := h'.settings
    · exact .inl hdirty
    · obtain hdirty' | ⟨hdirty', hannounce', hpass', hbanned'⟩ := h.settings
      · exact .inl (hdirty.trans hdirty')
      · exact .inr ⟨hdirty.trans hdirty', hannounce.trans hannounce', hpass.trans hpass',
          hbanned.trans hbanned'⟩

section

variable (channel : Channel)

/-- The members, the owner and the time of the next write are no settings. -/
theorem framed_members (playersStore : List PlayerInfo) (ownerGuid : Option ℕ)
    (isOwnerInvisible : Bool) (nextActivityUpdateTime : ℤ) :
    Framed channel
      { channel with
        playersStore := playersStore
        ownerGuid := ownerGuid
        isOwnerInvisible := isOwnerInvisible
        nextActivityUpdateTime := nextActivityUpdateTime } :=
  ⟨rfl, rfl, fun _ h => .inl h, .inr ⟨rfl, rfl, rfl, rfl⟩⟩

theorem framed_modify (guid : ℕ) (f : PlayerInfo → PlayerInfo) :
    Framed channel (channel.modify guid f) :=
  framed_members channel _ _ _ _

theorem framed_erase (guid : ℕ) : Framed channel (channel.erase guid) :=
  framed_members channel _ _ _ _

/-- Settings that are changed are marked. -/
theorem framed_dirty (announced : Bool) (pass : String) {banned : List ℕ}
    (hbanned : ∀ guid ∈ banned, guid ∈ channel.bannedStore ∨ IsGuid guid) :
    Framed channel
      { channel with
        bannedStore := banned
        isDirty := true
        announceEnabled := announced
        channelPassword := pass } :=
  ⟨rfl, rfl, hbanned, .inl rfl⟩

theorem framed_setOwner (guid : ℕ) : Framed channel (channel.setOwner guid) := by
  have hcleared : ∀ cleared, Framed channel cleared →
      Framed channel (if { cleared with ownerGuid := some guid }.isOn guid then
        { ({ cleared with ownerGuid := some guid } : Channel).modify guid
            (PlayerInfo.setOwner true ∘ PlayerInfo.setModerator true) with isDirty := true }
      else { cleared with ownerGuid := some guid }) := by
    intro cleared hcleared
    split_ifs
    · exact ⟨hcleared.channelName, hcleared.ownership, hcleared.banned, .inl rfl⟩
    · exact hcleared.trans (framed_members cleared _ _ _ _)
  rw [Channel.setOwner]
  split
  · exact hcleared _ (framed_modify channel _ _)
  · exact hcleared _ (Framed.refl channel)

theorem framed_joinChannel (players : Players) (guid : ℕ) (pass : String) :
    Framed channel (channel.joinChannel players guid pass) := by
  rw [Channel.joinChannel]
  dsimp only
  split_ifs
  any_goals exact framed_members channel _ _ _ _
  all_goals
    refine Framed.trans ?_ (framed_modify _ _ _)
    refine Framed.trans ?_ (framed_setOwner _ _)
    exact framed_members channel _ _ _ _

theorem framed_leaveChannel (guid : ℕ) : Framed channel (channel.leaveChannel guid) := by
  rw [Channel.leaveChannel]
  split
  · exact Framed.refl channel
  · dsimp only
    split_ifs
    · split
      · exact framed_erase channel guid
      · rename_i itr _
        have hnext : Framed channel (((channel.erase guid).modify itr.guid
            (PlayerInfo.setModerator true)).setOwner itr.guid) :=
          ((framed_erase channel guid).trans (framed_modify _ _ _)).trans (framed_setOwner _ _)
        split_ifs
        · exact hnext.trans (framed_members _ _ _ _ _)
        · exact hnext
    · exact framed_erase channel guid

end

theorem framed_kickOrBan {guid : ℕ} {badname : String} {ban : Bool}
    (h : channel.kickOrBan players guid badname ban = some channel') : Framed channel channel' := by
  rw [Channel.kickOrBan] at h
  split at h
  · cases h
    exact Framed.refl channel
  · rename_i victim hvictim
    have hguid : IsGuid victim := by
      rw [Channel.kickTarget] at hvictim
      split_ifs at hvictim
      exact players.connected_guid (Option.filter_eq_some_iff.mp hvictim).1
    have hbanned : Framed channel (if ban && !channel.isBanned victim then
        { channel with bannedStore := channel.bannedStore ++ [victim], isDirty := true } else channel) := by
      split_ifs
      · refine framed_dirty channel _ _ fun other hother => ?_
        obtain hin | hin := mem_append.mp hother
        · exact .inl hin
        · obtain rfl := mem_singleton.mp hin
          exact .inr hguid
      · exact Framed.refl channel
    have herased := hbanned.trans (framed_erase _ victim)
    dsimp only at h
    generalize hgone : (Channel.erase (if ban && !channel.isBanned victim then
        { channel with bannedStore := channel.bannedStore ++ [victim], isDirty := true } else channel)
        victim) = gone at h herased
    split_ifs at h
    · cases h
      exact (herased.trans (framed_modify _ _ _)).trans (framed_setOwner _ _)
    · cases h
      exact herased

/-- **A command that changes the settings of a channel** marks it as changed. -/
theorem Framed.step {guid : ℕ} {command : Command}
    (h : channel.step players guid command = some channel') :
    Framed channel channel' := by
  cases command with
  | joinChannel pass =>
    cases h
    exact framed_joinChannel channel players guid pass
  | leaveChannel =>
    cases h
    exact framed_leaveChannel channel guid
  | kickOrBan badname ban => exact framed_kickOrBan h
  | unBan badname =>
    cases h
    rw [Channel.unBan]
    split_ifs
    · cases players.connected badname with
      | none => exact Framed.refl channel
      | some victim =>
        dsimp only
        split_ifs
        · exact framed_dirty channel _ _ fun _ hin => .inl (mem_filter.mp hin).1
        · exact Framed.refl channel
    · exact Framed.refl channel
  | password pass =>
    cases h
    rw [Channel.password]
    split_ifs
    · exact framed_dirty channel _ _ fun _ hin => .inl hin
    · exact Framed.refl channel
  | setMode p2n mod set =>
    cases h
    rw [Channel.setMode]
    split
    · exact Framed.refl channel
    · split_ifs <;> exact framed_modify channel _ _
  | setInvisible on =>
    cases h
    rw [Channel.setInvisible]
    dsimp only
    split_ifs
    · exact framed_members channel _ _ _ _
    · exact framed_members channel _ _ _ _
    · exact Framed.refl channel
  | setOwner newname =>
    cases h
    rw [Channel.setOwnerByName]
    split
    · exact Framed.refl channel
    · exact (framed_modify channel _ _).trans (framed_setOwner _ _)
  | announce =>
    cases h
    rw [Channel.announce]
    split_ifs
    · exact framed_dirty channel _ _ fun _ hin => .inl hin
    · exact Framed.refl channel

/-! ### Rows of the table -/

variable {weight : String → String} {rows : List Row} {row : Row} {k : String × ℕ}

/-- The row of a channel, at some time. -/
def Row.Holds (row : Row) (team : Team) (channel : Channel) : Prop :=
  row = channel.toRow team row.lastUsed

/-- **Writing a row**: the rows of other names stay. -/
theorem find_updChannel_of_ne (h : row.key weight ≠ k) :
    Keyed.find (Row.key weight) (updChannel weight rows row) k = Keyed.find (Row.key weight) rows k := by
  rw [updChannel]
  split
  · rename_i old hold
    have hold' : old.key weight = row.key weight := key_of_find hold
    have hkey : Row.key weight { row with name := old.name, team := old.team } = row.key weight := hold'
    exact find_put_of_ne (hkey ▸ h)
  · rw [find_append, find_cons, if_neg h]
    exact Option.or_none

/-- The row that is written is there, under its name or under that of the row that was there. -/
theorem find_updChannel (rows : List Row) (row : Row) :
    ∃ name, Keyed.find (Row.key weight) (updChannel weight rows row) (row.key weight) =
        some { row with name := name } ∧
      (name = row.name ∨ ∃ old, Keyed.find (Row.key weight) rows (row.key weight) = some old ∧ old.name = name) := by
  rw [updChannel]
  split
  · rename_i old hold
    have hold' : old.key weight = row.key weight := key_of_find hold
    have hkey : Row.key weight { row with name := old.name, team := old.team } = row.key weight := hold'
    have hteam : old.team = row.team := congrArg Prod.snd (key_of_find hold)
    refine ⟨old.name, ?_, .inr ⟨old, hold, rfl⟩⟩
    rw [← hkey, find_put_self, hteam]
    rw [hkey, hold]
    exact Option.some_ne_none old
  · rename_i hnone
    refine ⟨row.name, ?_, .inl rfl⟩
    rw [find_append, hnone, Option.none_or, find_cons, if_pos rfl]

/-- What the rows are called. -/
theorem name_of_mem_updChannel {row' : Row} (h : row' ∈ updChannel weight rows row) :
    (row'.name = row.name ∧ row'.team = row.team) ∨
      ∃ old ∈ rows, row'.name = old.name ∧ row'.team = old.team := by
  rw [updChannel] at h
  split at h
  · rename_i old hold
    obtain ⟨rfl, -⟩ | ⟨hin, -⟩ := mem_put_iff.mp h
    · exact .inr ⟨old, mem_of_find hold, rfl, rfl⟩
    · exact .inr ⟨row', hin, rfl, rfl⟩
  · obtain hin | hin := mem_append.mp h
    · exact .inr ⟨row', hin, rfl, rfl⟩
    · obtain rfl := mem_singleton.mp hin
      exact .inl ⟨rfl, rfl⟩

theorem nodup_updChannel (h : (rows.map (Row.key weight)).Nodup) :
    ((updChannel weight rows row).map (Row.key weight)).Nodup := by
  rw [updChannel]
  split
  · rwa [keys_put]
  · rename_i hnone
    rw [map_append, map_singleton]
    refine nodup_append.mpr ⟨h, nodup_singleton _, ?_⟩
    intro a ha b hb
    obtain ⟨other, hother, rfl⟩ := mem_map.mp ha
    rw [mem_singleton.mp hb]
    exact find_eq_none_iff.mp hnone other hother

/-- **Using a channel** changes no row but in the time. -/
theorem find_updChannelUsage (rows : List Row) (name : String) (team now : ℕ) (k : String × ℕ) :
    ∀ row, Keyed.find (Row.key weight) rows k = some row → ∃ lastUsed,
      Keyed.find (Row.key weight) (updChannelUsage weight rows name team now) k =
        some { row with lastUsed := lastUsed } := by
  intro row hrow
  rw [updChannelUsage]
  split
  · rename_i old hold
    have hkey : old.key weight = (weight name, team) := key_of_find hold
    rw [find_put]
    split_ifs with hk
    · have hsame : Keyed.find (Row.key weight) rows k = some old := by
        rw [← hold, ← hk.1]
        exact congrArg _ hkey
      obtain rfl := Option.some.inj (hrow.symm.trans hsame)
      exact ⟨now, rfl⟩
    · exact ⟨row.lastUsed, hrow⟩
  · exact ⟨row.lastUsed, hrow⟩

section

variable {name : String} {team now : ℕ}

theorem find_updChannelUsage_of_ne (h : (weight name, team) ≠ k) :
    Keyed.find (Row.key weight) (updChannelUsage weight rows name team now) k =
      Keyed.find (Row.key weight) rows k := by
  rw [updChannelUsage]
  split
  · rename_i old hold
    have hold' : old.key weight = (weight name, team) := key_of_find hold
    have hkey : Row.key weight { old with lastUsed := now } = (weight name, team) := hold'
    exact find_put_of_ne (hkey ▸ h)
  · rfl

theorem name_of_mem_updChannelUsage {row' : Row}
    (h : row' ∈ updChannelUsage weight rows name team now) :
    ∃ old ∈ rows, row'.name = old.name ∧ row'.team = old.team := by
  rw [updChannelUsage] at h
  split at h
  · rename_i old hold
    obtain ⟨rfl, -⟩ | ⟨hin, -⟩ := mem_put_iff.mp h
    · exact ⟨old, mem_of_find hold, rfl, rfl⟩
    · exact ⟨row', hin, rfl, rfl⟩
  · exact ⟨row', h, rfl, rfl⟩

theorem nodup_updChannelUsage (h : (rows.map (Row.key weight)).Nodup) :
    ((updChannelUsage weight rows name team now).map (Row.key weight)).Nodup := by
  rw [updChannelUsage]
  split
  · rwa [keys_put]
  · exact h

end

/-! ### Writing the channels -/

variable {team : Team} {now : ℕ} {entries : List (Team × Channel)}

/-- The rows after `UpdateChannelInDB` of some channels. -/
def writeAll (weight : String → String) (now : ℕ) (rows : List Row) (entries : List (Team × Channel)) :
    List Row :=
  entries.foldl (fun rows entry => entry.2.writeInDB weight now rows entry.1) rows

theorem nodup_writeAll (h : (rows.map (Row.key weight)).Nodup) :
    ((writeAll weight now rows entries).map (Row.key weight)).Nodup := by
  induction entries generalizing rows with
  | nil => exact h
  | cons entry entries ih =>
    refine ih ?_
    dsimp only
    rw [Channel.writeInDB]
    split_ifs
    · exact nodup_updChannel h
    · exact nodup_updChannelUsage h
    · exact h

theorem name_of_mem_writeAll (h : row ∈ writeAll weight now rows entries) :
    (∃ entry ∈ entries, row.name = entry.2.channelName ∧ row.team = entry.1.id) ∨
      ∃ old ∈ rows, row.name = old.name ∧ row.team = old.team := by
  induction entries generalizing rows with
  | nil => exact .inr ⟨row, h, rfl, rfl⟩
  | cons entry entries ih =>
    obtain ⟨later, hlater, hname⟩ | ⟨old, hold, hname, hteam⟩ := ih h
    · exact .inl ⟨later, mem_cons_of_mem _ hlater, hname⟩
    · dsimp only at hold
      rw [Channel.writeInDB] at hold
      split_ifs at hold
      · obtain ⟨hname', hteam'⟩ | ⟨older, holder, hname', hteam'⟩ := name_of_mem_updChannel hold
        · exact .inl ⟨entry, mem_cons_self, hname.trans hname', hteam.trans hteam'⟩
        · exact .inr ⟨older, holder, hname.trans hname', hteam.trans hteam'⟩
      · obtain ⟨older, holder, hname', hteam'⟩ := name_of_mem_updChannelUsage hold
        exact .inr ⟨older, holder, hname.trans hname', hteam.trans hteam'⟩
      · exact .inr ⟨old, hold, hname, hteam⟩

/-- The table has the row of a channel. -/
def Stores (weight : String → String) (rows : List Row) (team : Team) (channel : Channel) : Prop :=
  ∃ row, Keyed.find (Row.key weight) rows (weight channel.channelName, team.id) = some row ∧
    row.Holds team channel

/-- Other channels leave the row of a channel alone. -/
theorem find_writeInDB_of_ne (h : (weight channel.channelName, team.id) ≠ k) :
    Keyed.find (Row.key weight) (channel.writeInDB weight now rows team) k =
      Keyed.find (Row.key weight) rows k := by
  rw [Channel.writeInDB]
  split_ifs
  · exact find_updChannel_of_ne h
  · exact find_updChannelUsage_of_ne h
  · rfl

/-- **One write** of a channel: it is marked as changed or it has its row. -/
theorem stores_writeInDB
    (hname : ∀ row, Keyed.find (Row.key weight) rows (weight channel.channelName, team.id) = some row →
      row.name = channel.channelName)
    (h : channel.isDirty = true ∨ Stores weight rows team channel) :
    Stores weight (channel.writeInDB weight now rows team) team channel := by
  rw [Channel.writeInDB]
  split_ifs with hdirty
  · obtain ⟨name, hfind, hcalled⟩ := (@find_updChannel weight) rows (channel.toRow team now)
    have hsame : name = channel.channelName := by
      obtain rfl | ⟨old, hold, rfl⟩ := hcalled
      · rfl
      · exact hname old hold
    subst hsame
    exact ⟨_, hfind, rfl⟩
  · obtain ⟨row, hrow, hholds⟩ := h.resolve_left hdirty
    obtain ⟨lastUsed, hfind⟩ := find_updChannelUsage rows channel.channelName team.id now _ row hrow
    refine ⟨_, hfind, ?_⟩
    rw [hholds]
    rfl
  · exact h.resolve_left hdirty

/-- **All writes**: a channel that shares its row with no other one has it afterwards. -/
theorem stores_writeAll
    (halone : ∀ entry ∈ entries, (weight entry.2.channelName, entry.1.id) =
      (weight channel.channelName, team.id) → entry = (team, channel))
    (hname : ∀ row, Keyed.find (Row.key weight) rows (weight channel.channelName, team.id) = some row →
      row.name = channel.channelName)
    (h : (channel.isDirty = true ∧ (team, channel) ∈ entries) ∨ Stores weight rows team channel) :
    Stores weight (writeAll weight now rows entries) team channel := by
  induction entries generalizing rows with
  | nil =>
    obtain ⟨-, hin⟩ | hstores := h
    · cases hin
    · exact hstores
  | cons entry entries ih =>
    have halone' := fun entry hin => halone entry (mem_cons_of_mem _ hin)
    by_cases hk : (weight entry.2.channelName, entry.1.id) = (weight channel.channelName, team.id)
    · obtain rfl := halone entry mem_cons_self hk
      have hstores : Stores weight (channel.writeInDB weight now rows team) team channel :=
        stores_writeInDB hname (h.imp_left And.left)
      refine ih halone' (fun row hrow => ?_) (.inr hstores)
      obtain ⟨row', hrow', hholds⟩ := hstores
      obtain rfl := Option.some.inj (hrow.symm.trans hrow')
      exact congrArg Row.name hholds
    · have hsame : Keyed.find (Row.key weight) (entry.2.writeInDB weight now rows entry.1)
          (weight channel.channelName, team.id) =
            Keyed.find (Row.key weight) rows (weight channel.channelName, team.id) :=
        find_writeInDB_of_ne hk
      refine ih halone' (fun row hrow => hname row (hsame ▸ hrow)) ?_
      obtain ⟨hdirty, hin⟩ | ⟨row, hrow, hholds⟩ := h
      · refine .inl ⟨hdirty, (mem_cons.mp hin).resolve_left fun heq => hk ?_⟩
        rw [← heq]
      · exact .inr ⟨row, hsame.trans hrow, hholds⟩

/-! ### What operations leave -/

variable {customChannels customChannels' customChannels'' saved : CustomChannels}

/-- The channels of a manager stand under their names in lower case. -/
structure Named (customChannels : CustomChannels) : Prop where
  keys : (customChannels.map Prod.fst).Nodup
  name : ∀ entry ∈ customChannels, entry.1 = wstrToLower (utf8ToWStr entry.2.channelName)
  banned : ∀ entry ∈ customChannels, ∀ guid ∈ entry.2.bannedStore, IsGuid guid

/-- Channels of one name are the same. -/
theorem Named.eq_of_name (h : Named customChannels) {entry entry' : WString × Channel}
    (hin : entry ∈ customChannels) (hin' : entry' ∈ customChannels)
    (hname : entry.2.channelName = entry'.2.channelName) : entry = entry' :=
  eq_of_key h.keys hin hin' ((h.name entry hin).trans (hname ▸ (h.name entry' hin').symm))

/-- **What operations leave**: every channel is in its place, framed, and a new one is marked as changed. -/
structure Evolves (customChannels customChannels' : CustomChannels) : Prop where
  named : Named customChannels'
  stays : ∀ entry ∈ customChannels, ∃ entry' ∈ customChannels', Framed entry.2 entry'.2
  comes : ∀ entry' ∈ customChannels', entry'.2.isDirty = true ∨
    ∃ entry ∈ customChannels, Framed entry.2 entry'.2

theorem Evolves.refl (h : Named customChannels) : Evolves customChannels customChannels :=
  ⟨h, fun entry hin => ⟨entry, hin, Framed.refl _⟩, fun entry hin => .inr ⟨entry, hin, Framed.refl _⟩⟩

theorem Evolves.trans (h : Evolves customChannels customChannels')
    (h' : Evolves customChannels' customChannels'') : Evolves customChannels customChannels'' where
  named := h'.named
  stays entry hin := by
    obtain ⟨entry', hin', hframed⟩ := h.stays entry hin
    obtain ⟨entry'', hin'', hframed'⟩ := h'.stays entry' hin'
    exact ⟨entry'', hin'', hframed.trans hframed'⟩
  comes entry'' hin'' := by
    obtain hdirty | ⟨entry', hin', hframed'⟩ := h'.comes entry'' hin''
    · exact .inl hdirty
    · obtain hdirty | ⟨entry, hin, hframed⟩ := h.comes entry' hin'
      · refine .inl ?_
        obtain hset | ⟨hsame, -⟩ := hframed'.settings
        · exact hset
        · exact hsame.trans hdirty
      · exact .inr ⟨entry, hin, hframed.trans hframed'⟩

section

variable (h : Named customChannels)
include h

/-- A channel that is made under a new name. -/
theorem evolves_create (name : String) :
    Evolves customChannels (createCustomChannel customChannels name) := by
  rw [createCustomChannel]
  split
  · exact Evolves.refl h
  · rename_i hnone
    refine ⟨⟨?_, ?_, ?_⟩, ?_, ?_⟩
    · rw [map_append]
      refine nodup_append.mpr ⟨h.keys, nodup_singleton _, fun a ha b hb => ?_⟩
      obtain ⟨entry, hin, rfl⟩ := mem_map.mp ha
      rw [mem_singleton.mp hb]
      exact find_eq_none_iff.mp hnone entry hin
    · intro entry hin
      obtain hin | hin := mem_append.mp hin
      · exact h.name entry hin
      · rw [mem_singleton.mp hin]
        rfl
    · intro entry hin
      obtain hin | hin := mem_append.mp hin
      · exact h.banned entry hin
      · rw [mem_singleton.mp hin]
        exact fun guid hguid => absurd hguid not_mem_nil
    · exact fun entry hin => ⟨entry, mem_append_left _ hin, Framed.refl _⟩
    · intro entry hin
      obtain hin | hin := mem_append.mp hin
      · exact .inr ⟨entry, hin, Framed.refl _⟩
      · rw [mem_singleton.mp hin]
        exact .inl rfl

variable {f : WString × Channel → WString × Channel}

/-- Channels that keep their places and names. -/
theorem Named.map (hkey : ∀ entry ∈ customChannels, (f entry).1 = entry.1)
    (hname : ∀ entry ∈ customChannels, (f entry).2.channelName = entry.2.channelName)
    (hbanned : ∀ entry ∈ customChannels, ∀ guid ∈ (f entry).2.bannedStore,
      guid ∈ entry.2.bannedStore ∨ IsGuid guid) : Named (customChannels.map f) := by
  refine ⟨?_, fun entry' hin' => ?_, fun entry' hin' guid hguid => ?_⟩
  · have hkeys : (customChannels.map f).map Prod.fst = customChannels.map Prod.fst := by
      rw [map_map]
      exact map_congr_left hkey
    rw [hkeys]
    exact h.keys
  · obtain ⟨entry, hin, rfl⟩ := mem_map.mp hin'
    rw [hkey entry hin, hname entry hin]
    exact h.name entry hin
  · obtain ⟨entry, hin, rfl⟩ := mem_map.mp hin'
    exact (hbanned entry hin guid hguid).elim (h.banned entry hin guid) id

/-- Channels that are changed in their places. -/
theorem evolves_map
    (hf : ∀ entry ∈ customChannels, (f entry).1 = entry.1 ∧ Framed entry.2 (f entry).2) :
    Evolves customChannels (customChannels.map f) := by
  refine ⟨h.map (fun entry hin => (hf entry hin).1) (fun entry hin => (hf entry hin).2.channelName)
    fun entry hin => (hf entry hin).2.banned, fun entry hin => ?_, fun entry' hin' => ?_⟩
  · exact ⟨f entry, mem_map_of_mem hin, (hf entry hin).2⟩
  · obtain ⟨entry, hin, rfl⟩ := mem_map.mp hin'
    exact .inr ⟨entry, hin, (hf entry hin).2⟩

theorem evolves_createAndJoin (players : Players) (guid : ℕ) (name pass : String) :
    Evolves customChannels (createAndJoin customChannels players guid name pass) := by
  rw [createAndJoin, getCustomChannel]
  have hcreate := evolves_create h name
  cases hfind : Keyed.find Prod.fst customChannels (wstrToLower (utf8ToWStr name)) with
  | some entry => exact Evolves.refl h
  | none =>
    refine hcreate.trans (evolves_map hcreate.named fun entry hin => ?_)
    split_ifs with hkey
    · refine ⟨rfl, Framed.trans ?_ (framed_joinChannel _ players guid pass)⟩
      -- only the new channel has this name, and it is marked as changed
      have hnew : entry.2.isDirty = true := by
        rw [createCustomChannel, hfind] at hin
        obtain hin | hin := mem_append.mp hin
        · exact absurd hkey (find_eq_none_iff.mp hfind entry hin)
        · rw [mem_singleton.mp hin]
      exact ⟨rfl, rfl, fun _ hguid => .inl hguid, .inl hnew⟩
    · exact ⟨rfl, Framed.refl _⟩

/-- **One operation** of a manager. -/
theorem Evolves.operate {operation : Operation}
    (hstep : customChannels.operate operation = some customChannels') :
    Evolves customChannels customChannels' := by
  cases operation with
  | createCustomChannel name =>
    cases hstep
    exact evolves_create h name
  | createAndJoin players guid name pass =>
    cases hstep
    exact evolves_createAndJoin h players guid name pass
  | command players guid name command =>
    rw [CustomChannels.operate] at hstep
    cases hfind : Keyed.find Prod.fst customChannels name with
    | none =>
      rw [hfind] at hstep
      cases hstep
      exact Evolves.refl h
    | some entry =>
      rw [hfind] at hstep
      obtain ⟨channel, hchannel, rfl⟩ := Option.map_eq_some_iff.mp hstep
      refine evolves_map h fun other hother => ?_
      split_ifs with hkey
      · obtain rfl : other = entry := eq_of_key h.keys hother (mem_of_find hfind)
          (hkey.trans (key_of_find hfind).symm)
        exact ⟨hkey.symm, Framed.step hchannel⟩
      · exact ⟨rfl, Framed.refl _⟩

end

/-! ### The invariant -/

variable {w w' : World}

/-- No other channel of the manager is in the row of the name. -/
def Alone (weight : String → String) (customChannels : CustomChannels) (name : String) : Prop :=
  ∀ entry ∈ customChannels, weight entry.2.channelName = weight name → entry.2.channelName = name

instance (customChannels : CustomChannels) (name : String) : Decidable (Alone weight customChannels name) :=
  inferInstanceAs (Decidable (∀ entry ∈ customChannels, _ → _))

/-- **The invariant**: no saved channel is gone, a channel that is not marked as changed is as it was saved,
and every row is the row of a saved channel. -/
structure Persisted (weight : String → String) (w : World) : Prop where
  managers : ∀ team, Named (w.managers team)
  saved : ∀ team, Named (w.saved team)
  kept : ∀ team, ∀ entry ∈ w.saved team, ∃ entry' ∈ w.managers team,
    entry'.2.channelName = entry.2.channelName
  clean : ∀ team, ∀ entry ∈ w.managers team, entry.2.isDirty = false →
    ∃ entry' ∈ w.saved team, entry'.2.toRow team 0 = entry.2.toRow team 0
  rowKeys : (w.channels.map (Row.key weight)).Nodup
  rowNames : ∀ row ∈ w.channels, ∃ team, row.team = team.id ∧
    ∃ entry ∈ w.saved team, row.name = entry.2.channelName
  stored : ∀ team, ∀ entry ∈ w.saved team, Alone weight (w.saved team) entry.2.channelName →
    Stores weight w.channels team entry.2

theorem persisted_new (weight : String → String) : Persisted weight World.new where
  managers _ := ⟨nodup_nil, fun _ h => absurd h not_mem_nil, fun _ h => absurd h not_mem_nil⟩
  saved _ := ⟨nodup_nil, fun _ h => absurd h not_mem_nil, fun _ h => absurd h not_mem_nil⟩
  kept _ _ h := absurd h not_mem_nil
  clean _ _ h := absurd h not_mem_nil
  rowKeys := nodup_nil
  rowNames _ h := absurd h not_mem_nil
  stored _ _ h := absurd h not_mem_nil

theorem Persisted.operation (h : Persisted weight w) {team : Team} {operation : Operation}
    (hstep : (w.managers team).operate operation = some customChannels) :
    Persisted weight { w with managers := Function.update w.managers team customChannels } := by
  have hevolves := Evolves.operate (h.managers team) hstep
  refine ⟨fun other => ?_, h.saved, fun other entry hin => ?_, fun other entry hin hclean => ?_, h.rowKeys,
    h.rowNames, h.stored⟩
  · by_cases hteam : other = team
    · subst hteam
      simpa using hevolves.named
    · simpa [hteam] using h.managers other
  · obtain ⟨entry', hin', hname⟩ := h.kept other entry hin
    by_cases hteam : other = team
    · subst hteam
      obtain ⟨entry'', hin'', hframed⟩ := hevolves.stays entry' hin'
      exact ⟨entry'', by simpa using hin'', hframed.channelName.trans hname⟩
    · exact ⟨entry', by simpa [hteam] using hin', hname⟩
  · by_cases hteam : other = team
    · subst hteam
      have hin' : entry ∈ customChannels := by simpa using hin
      obtain hdirty | ⟨before, hbefore, hframed⟩ := hevolves.comes entry hin'
      · rw [hclean] at hdirty
        cases hdirty
      · obtain hdirty | ⟨hdirty, hannounce, hpass, hbanned⟩ := hframed.settings
        · rw [hclean] at hdirty
          cases hdirty
        · obtain ⟨old, hold, hrow⟩ := h.clean other before hbefore (hdirty.symm.trans hclean)
          refine ⟨old, hold, hrow.trans ?_⟩
          rw [Channel.toRow, Channel.toRow, hframed.channelName, hframed.ownership, hannounce, hpass, hbanned]
    · exact h.clean other entry (by simpa [hteam] using hin) hclean

/-! ### Saving -/

theorem Team.id_injective : Function.Injective Team.id := by
  intro a b h
  cases a <;> cases b <;> first | rfl | cases h

theorem mem_all {managers : Managers} {entry : Team × Channel} :
    entry ∈ managers.all ↔ ∃ key, (key, entry.2) ∈ managers entry.1 := by
  obtain ⟨team, channel⟩ := entry
  rw [Managers.all, mem_append, mem_map, mem_map]
  constructor
  · rintro (⟨⟨key, channel'⟩, hin, heq⟩ | ⟨⟨key, channel'⟩, hin, heq⟩) <;> cases heq <;> exact ⟨key, hin⟩
  · rintro ⟨key, hin⟩
    cases team with
    | alliance => exact .inl ⟨_, hin, rfl⟩
    | horde => exact .inr ⟨_, hin, rfl⟩

/-- What is written is no change of the settings. -/
theorem toRow_written (channel : Channel) (team : Team) (now delay lastUsed : ℕ) :
    (channel.written now delay).toRow team lastUsed = channel.toRow team lastUsed := by
  rw [Channel.written]
  split_ifs <;> rfl

theorem channelName_written (channel : Channel) (now delay : ℕ) :
    (channel.written now delay).channelName = channel.channelName := by
  rw [Channel.written]
  split_ifs <;> rfl

theorem bannedStore_written (channel : Channel) (now delay : ℕ) :
    (channel.written now delay).bannedStore = channel.bannedStore := by
  rw [Channel.written]
  split_ifs <;> rfl

/-- The row of a channel has its name. -/
theorem Row.Holds.name {team : Team} (h : row.Holds team channel) :
    row.name = channel.channelName :=
  congrArg Row.name h

theorem Row.Holds.of_toRow {team : Team} (h : row.Holds team channel)
    (hrow : channel.toRow team 0 = channel'.toRow team 0) : row.Holds team channel' := by
  have hsame : channel.toRow team row.lastUsed = channel'.toRow team row.lastUsed :=
    congrArg (fun row' : Row => { row' with lastUsed := row.lastUsed }) hrow
  exact Eq.trans h hsame

/-- **After a save** the table has every channel that is alone in its row. -/
theorem Persisted.saveToDB (h : Persisted weight w) (now : ℕ) (delay : Team → WString → ℕ) :
    Persisted weight (w.saveToDB weight now delay) := by
  refine ⟨fun team => ?_, h.managers, fun team entry hin => ?_, fun team entry hin hclean => ?_,
    nodup_writeAll h.rowKeys, fun row hrow => ?_, fun team entry hin halone => ?_⟩
  · refine (h.managers team).map (fun entry _ => rfl) (fun entry _ => channelName_written _ _ _) ?_
    exact fun entry _ guid hguid => .inl (bannedStore_written entry.2 _ _ ▸ hguid)
  · exact ⟨_, mem_map_of_mem hin, channelName_written _ _ _⟩
  · obtain ⟨before, hbefore, rfl⟩ := mem_map.mp hin
    exact ⟨before, hbefore, (toRow_written before.2 team now _ 0).symm⟩
  · obtain ⟨⟨team, channel⟩, hin, hname, hteam⟩ | ⟨old, hold, hname, hteam⟩ := name_of_mem_writeAll hrow
    · obtain ⟨key, hin⟩ := mem_all.mp hin
      exact ⟨team, hteam, _, hin, hname⟩
    · obtain ⟨team, hteam', entry, hin, hname'⟩ := h.rowNames old hold
      obtain ⟨entry', hin', hkept⟩ := h.kept team entry hin
      exact ⟨team, hteam.trans hteam', entry', hin', (hname.trans hname').trans hkept.symm⟩
  · refine stores_writeAll (fun other hother hk => ?_) (fun row hrow => ?_) ?_
    · obtain ⟨key, hother⟩ := mem_all.mp hother
      obtain ⟨hweight, hteam⟩ := Prod.mk.inj hk
      obtain rfl := Team.id_injective hteam
      have hname := halone _ hother hweight
      rw [← (h.managers _).eq_of_name hother hin hname]
    · have hkey : row.key weight = (weight entry.2.channelName, team.id) := key_of_find hrow
      obtain ⟨hweight, hteam⟩ := Prod.mk.inj hkey
      obtain ⟨rowTeam, hteam', old, hold, hname⟩ := h.rowNames row (mem_of_find hrow)
      obtain rfl := Team.id_injective (hteam'.symm.trans hteam)
      obtain ⟨entry', hin', hkept⟩ := h.kept _ old hold
      have hcalled := halone entry' hin' (by rw [hkept, ← hname, hweight])
      exact (hname.trans hkept.symm).trans hcalled
    · cases hdirty : entry.2.isDirty with
      | true => exact .inl ⟨rfl, mem_all.mpr ⟨entry.1, hin⟩⟩
      | false =>
        obtain ⟨old, hold, hrow⟩ := h.clean team entry hin hdirty
        have hname : old.2.channelName = entry.2.channelName := congrArg Row.name hrow
        have halone' : Alone weight (w.saved team) old.2.channelName := by
          intro other hother hweight
          obtain ⟨other', hother', hkept⟩ := h.kept team other hother
          rw [← hkept] at hweight ⊢
          rw [hname] at hweight ⊢
          exact halone other' hother' hweight
        obtain ⟨row, hfind, hholds⟩ := h.stored team old hold halone'
        exact .inr ⟨row, hname ▸ hfind, hholds.of_toRow hrow⟩

/-- **One event**. -/
theorem Persisted.step (h : Persisted weight w) {event : Event}
    (hstep : w.step weight event = some w') :
    Persisted weight w' := by
  cases event with
  | operation team operation =>
    obtain ⟨customChannels, hoperate, rfl⟩ := Option.map_eq_some_iff.mp hstep
    exact h.operation hoperate
  | saveToDB now delay =>
    cases hstep
    exact h.saveToDB now delay

/-! ### Loading -/

theorem forTeam_id (team : Team) : forTeam team.id = some team := by
  cases team <;> rfl

/-- One row: its name is taken in the manager of its team, unless it was. -/
theorem find_loadRow (managers : Managers) (row : Row) (team : Team) (name : WString) :
    Keyed.find Prod.fst (loadRow managers row team) name =
      (Keyed.find Prod.fst (managers team) name).or
        (if forTeam row.team = some team ∧ utf8ToWStr row.name = name then some (name, row.toChannel)
          else none) := by
  rw [loadRow]
  cases hteam : forTeam row.team with
  | none => rw [if_neg (by rintro ⟨h, -⟩; cases h), Option.or_none]
  | some rowTeam =>
    dsimp only
    by_cases hsame : rowTeam = team
    · subst hsame
      cases hfind : Keyed.find Prod.fst (managers rowTeam) (utf8ToWStr row.name) with
      | some entry =>
        split_ifs with hname
        · rw [← hname.2, hfind, Option.some_or]
        · rw [Option.or_none]
      | none =>
        dsimp only
        rw [Function.update_self, find_append, find_cons]
        by_cases hname : utf8ToWStr row.name = name
        · rw [if_pos hname, if_pos ⟨rfl, hname⟩, hname]
        · rw [if_neg hname, if_neg fun h => hname h.2]
          rfl
    · rw [if_neg fun h => hsame (Option.some.inj h.1), Option.or_none]
      cases Keyed.find Prod.fst (managers rowTeam) (utf8ToWStr row.name) with
      | some entry => rfl
      | none =>
        dsimp only
        rw [Function.update_of_ne (Ne.symm hsame)]

/-- **The rows become channels**: the first one of each team and name. -/
theorem find_foldl_loadRow (managers : Managers) (rows : List Row) (team : Team) (name : WString) :
    Keyed.find Prod.fst (rows.foldl loadRow managers team) name =
      (Keyed.find Prod.fst (managers team) name).or
        ((rows.find? fun row => forTeam row.team = some team ∧ utf8ToWStr row.name = name).map
          fun row => (name, row.toChannel)) := by
  induction rows generalizing managers with
  | nil => exact Option.or_none.symm
  | cons row rows ih =>
    rw [foldl_cons, ih, List.find?_cons, find_loadRow, Option.or_assoc]
    by_cases h : forTeam row.team = some team ∧ utf8ToWStr row.name = name
    · rw [if_pos h, decide_eq_true h]
      rfl
    · rw [if_neg h, decide_eq_false h]
      rfl

/-- The row that gives the channel of a name. -/
def rowOf (days now : ℕ) (rows : List Row) (team : Team) (name : WString) : Option Row :=
  (rows.filter fun row => !row.isOld days now).find? fun row =>
    forTeam row.team = some team ∧ utf8ToWStr row.name = name

theorem getCustomChannel_loadFromDB (days now : ℕ) (rows : List Row) (team : Team) (name : String) :
    getCustomChannel ((loadFromDB weight days now rows).1 team) name =
      (rowOf days now rows team (wstrToLower (utf8ToWStr name))).map Row.toChannel := by
  rw [getCustomChannel, loadFromDB, find_foldl_loadRow, rowOf]
  cases List.find? _ _ <;> rfl

section

variable {days now : ℕ} {rows : List Row} {team : Team} {name : WString}

theorem rowOf_some (h : rowOf days now rows team name = some row) :
    row ∈ rows ∧ row.isOld days now = false ∧ row.team = team.id ∧ utf8ToWStr row.name = name := by
  obtain ⟨hin, hold⟩ := mem_filter.mp (mem_of_find?_eq_some h)
  have hfound : forTeam row.team = some team ∧ utf8ToWStr row.name = name := by
    simpa using List.find?_some h
  refine ⟨hin, by simpa using hold, ?_, hfound.2⟩
  have hteam := hfound.1
  rw [forTeam] at hteam
  split_ifs at hteam with h1 h2
  · cases hteam
    exact h1
  · cases hteam
    exact h2

theorem rowOf_isSome (hin : row ∈ rows) (hold : row.isOld days now = false)
    (hteam : row.team = team.id) (hname : utf8ToWStr row.name = name) :
    ∃ row', rowOf days now rows team name = some row' := by
  refine Option.isSome_iff_exists.mp (List.find?_isSome.mpr ⟨row, ?_, ?_⟩)
  · exact mem_filter.mpr ⟨hin, by rw [hold]; rfl⟩
  · exact decide_eq_true ⟨hteam ▸ forTeam_id team, hname⟩

end

/-! ### Restarts -/

/-- **The same channel** for the players: there or not, with its bans, its password and its announcements. -/
structure Same (before after : Option Channel) : Prop where
  found : before.isSome = after.isSome
  settings : ∀ channel ∈ before, ∀ channel' ∈ after,
    (∀ guid, channel'.isBanned guid = channel.isBanned guid) ∧
      channel'.channelPassword = channel.channelPassword ∧
      channel'.announceEnabled = channel.announceEnabled

/-- **The names of the channels are their keys** in the manager and in the table, and no row is old. -/
structure World.Survives (weight : String → String) (days now : ℕ) (w : World) : Prop where
  lower : ∀ team, ∀ entry ∈ w.saved team,
    wstrToLower (utf8ToWStr entry.2.channelName) = utf8ToWStr entry.2.channelName
  alone : ∀ team, ∀ entry ∈ w.saved team, Alone weight (w.saved team) entry.2.channelName
  recent : ∀ row ∈ w.channels, row.isOld days now = false

/-- The row of a channel gives it back. -/
theorem same_of_holds {team : Team} (h : row.Holds team channel)
    (hbanned : ∀ guid ∈ channel.bannedStore, IsGuid guid) : Same (some channel) (some row.toChannel) := by
  refine ⟨rfl, fun _ h1 _ h2 => ?_⟩
  cases h1
  cases h2
  rw [h]
  refine ⟨fun guid => ?_, rfl, rfl⟩
  exact decide_eq_decide.mpr (mem_readBanList_write hbanned guid)

theorem Persisted.same_of_survives (h : Persisted weight w) {days now : ℕ}
    (hsurvives : w.Survives weight days now) (team : Team) (name : String) :
    Same (getCustomChannel (w.saved team) name)
      (getCustomChannel ((loadFromDB weight days now w.channels).1 team) name) := by
  rw [getCustomChannel_loadFromDB, getCustomChannel]
  -- the row that is found is that of a saved channel with this key
  have hrow : ∀ row, rowOf days now w.channels team (wstrToLower (utf8ToWStr name)) = some row →
      ∃ entry ∈ w.saved team, row.name = entry.2.channelName ∧
        entry.1 = wstrToLower (utf8ToWStr name) := by
    intro row hrow
    obtain ⟨hin, -, hteam, hname⟩ := rowOf_some hrow
    obtain ⟨rowTeam, hteam', entry, hentry, hcalled⟩ := h.rowNames row hin
    obtain rfl := Team.id_injective (hteam'.symm.trans hteam)
    refine ⟨entry, hentry, hcalled, ?_⟩
    rw [(h.saved _).name entry hentry, ← hcalled, hname, wstrToLower_wstrToLower]
  cases hfind : Keyed.find Prod.fst (w.saved team) (wstrToLower (utf8ToWStr name)) with
  | none =>
    cases hrow' : rowOf days now w.channels team (wstrToLower (utf8ToWStr name)) with
    | none => exact ⟨rfl, fun _ h => by cases h⟩
    | some row =>
      obtain ⟨entry, hentry, -, hkey⟩ := hrow row hrow'
      exact absurd hkey (find_eq_none_iff.mp hfind entry hentry)
  | some entry =>
    have hentry := mem_of_find hfind
    have hkey : entry.1 = wstrToLower (utf8ToWStr name) := key_of_find hfind
    obtain ⟨row, hfound, hholds⟩ := h.stored team entry hentry (hsurvives.alone team entry hentry)
    have hin := mem_of_find hfound
    have hname : utf8ToWStr row.name = wstrToLower (utf8ToWStr name) := by
      rw [hholds.name, ← hsurvives.lower team entry hentry, ← (h.saved team).name entry hentry, hkey]
    have hteam : row.team = team.id := congrArg Row.team hholds
    obtain ⟨row', hrow'⟩ := rowOf_isSome hin (hsurvives.recent row hin) hteam hname
    obtain ⟨hin', -, hteam', -⟩ := rowOf_some hrow'
    obtain ⟨entry', hentry', hcalled, hkey'⟩ := hrow row' hrow'
    have hsame : row' = row := by
      refine eq_of_key h.rowKeys hin' hin ?_
      have hentries : entry' = entry :=
        eq_of_key (h.saved team).keys hentry' hentry (hkey'.trans hkey.symm)
      rw [Row.key, Row.key, hcalled, hentries, hteam', hteam, hholds.name]
    rw [hrow', hsame]
    exact same_of_holds hholds ((h.saved team).banned entry hentry)

theorem Persisted.survives_of_same (h : Persisted weight w) {days now : ℕ}
    (hsame : ∀ team name, Same (getCustomChannel (w.saved team) name)
      (getCustomChannel ((loadFromDB weight days now w.channels).1 team) name)) :
    w.Survives weight days now := by
  -- every saved channel has a row of its own name, which is not old
  have hrow : ∀ team, ∀ entry ∈ w.saved team, ∃ row ∈ w.channels, row.isOld days now = false ∧
      row.team = team.id ∧ row.name = entry.2.channelName ∧
      utf8ToWStr row.name = wstrToLower (utf8ToWStr entry.2.channelName) := by
    intro team entry hentry
    have hfound := (hsame team entry.2.channelName).found
    rw [getCustomChannel_loadFromDB, getCustomChannel, ← (h.saved team).name entry hentry,
      find_of_mem (h.saved team).keys hentry, Option.isSome_map, Option.isSome_map] at hfound
    obtain ⟨row, hrow⟩ := Option.isSome_iff_exists.mp hfound.symm
    obtain ⟨hin, hold, hteam, hname⟩ := rowOf_some hrow
    obtain ⟨rowTeam, hteam', entry', hentry', hcalled⟩ := h.rowNames row hin
    obtain rfl := Team.id_injective (hteam'.symm.trans hteam)
    have hkey : entry'.1 = entry.1 := by
      have hlower : wstrToLower entry.1 = entry.1 := by
        rw [(h.saved _).name entry hentry, wstrToLower_wstrToLower]
      rw [(h.saved _).name entry' hentry', ← hcalled, hname, hlower]
    obtain rfl := eq_of_key (h.saved _).keys hentry' hentry hkey
    exact ⟨row, hin, hold, hteam, hcalled, hname.trans ((h.saved _).name entry' hentry')⟩
  refine ⟨fun team entry hentry => ?_, fun team entry hentry other hother hweight => ?_, fun row hin => ?_⟩
  · obtain ⟨row, -, -, -, hcalled, hlower⟩ := hrow team entry hentry
    rw [← hlower, hcalled]
  · obtain ⟨row, hin, -, hteam, hcalled, -⟩ := hrow team entry hentry
    obtain ⟨row', hin', -, hteam', hcalled', -⟩ := hrow team other hother
    have hrows : row' = row := by
      refine eq_of_key h.rowKeys hin' hin ?_
      rw [Row.key, Row.key, hcalled, hcalled', hteam, hteam', hweight]
    rw [← hcalled, ← hcalled', hrows]
  · obtain ⟨team, hteam, entry, hentry, hname⟩ := h.rowNames row hin
    obtain ⟨row', hin', hold, hteam', hcalled, -⟩ := hrow team entry hentry
    have hrows : row = row' := by
      refine eq_of_key h.rowKeys hin hin' ?_
      rw [Row.key, Row.key, hname, hcalled, hteam, hteam']
    rw [hrows]
    exact hold

/-- One event in a world in which no erased record has been used. -/
def stepEvent (weight : String → String) (w : Option World) (event : Event) : Option World :=
  w.bind (·.step weight event)

theorem Persisted.run {events : List Event} (h : Persisted weight w)
    (hrun : events.foldl (stepEvent weight) (some w) = some w') : Persisted weight w' := by
  induction events generalizing w with
  | nil =>
    cases hrun
    exact h
  | cons event events ih =>
    rw [foldl_cons] at hrun
    cases hstep : w.step weight event with
    | none =>
      have hnone : stepEvent weight (some w) event = none := hstep
      have hstuck : events.foldl (stepEvent weight) none = none := by
        clear hrun ih
        induction events with
        | nil => rfl
        | cons event events ih => exact ih
      rw [hnone, hstuck] at hrun
      cases hrun
    | some next =>
      have hsome : stepEvent weight (some w) event = some next := hstep
      rw [hsome] at hrun
      exact ih (h.step hstep) hrun

/-- **The channels after a restart are those of the last save** if and only if every name is its key in the
manager and in the table, and no row is old. -/
theorem channels_survive_iff (weight : String → String) (events : List Event) (w : World)
    (days now : ℕ) (hrun : events.foldl (stepEvent weight) (some World.new) = some w) :
    (∀ team name, Same (getCustomChannel (w.saved team) name)
      (getCustomChannel ((loadFromDB weight days now w.channels).1 team) name)) ↔
        w.Survives weight days now :=
  have h := (persisted_new weight).run hrun
  ⟨h.survives_of_same, h.same_of_survives⟩

section Example

/-- The collation of the table: spaces at the end do not count. -/
def padSpace (name : String) : String :=
  String.ofList (name.toList.reverse.dropWhile (· = ' ')).reverse

/-- Nobody but Anna and Bert is connected. -/
def annaAndBert : Players where
  name guid := if guid = 1 then "Anna" else "Bert"
  team _ := 469
  isGMVisible _ := true
  changeNotModerator _ := false
  twoSideInteraction _ := false
  connected n := if n = "Anna" then some 1 else if n = "Bert" then some 2 else none
  connected_name := by
    intro n guid h
    split_ifs at h <;> cases h <;> simp_all
  connected_guid := by
    intro n guid h
    split_ifs at h <;> cases h <;> decide

/-- Anna makes a channel, gives it a password and bans Bert; then it is saved. -/
def annasChannel (name : String) : List Event :=
  [.operation .alliance (.createAndJoin annaAndBert 1 name ""),
    .operation .alliance (.command annaAndBert 2 (wstrToLower (utf8ToWStr name)) (.joinChannel "")),
    .operation .alliance (.command annaAndBert 1 (wstrToLower (utf8ToWStr name)) (.kickOrBan "Bert" true)),
    .operation .alliance (.command annaAndBert 1 (wstrToLower (utf8ToWStr name)) (.password "secret")),
    .saveToDB 1000 fun _ _ => 300]

/-- The world after that. -/
def annasWorld (name : String) : World :=
  ((annasChannel name).foldl (stepEvent padSpace) (some World.new)).getD World.new

/-- A channel in lower case is as it was, in any case of letters. -/
theorem channels_survive_iff_lower :
    Same (getCustomChannel ((annasWorld "guild").saved .alliance) "GUILD")
      (getCustomChannel ((loadFromDB padSpace 14 2000 (annasWorld "guild").channels).1 .alliance)
        "GUILD") :=
  (channels_survive_iff padSpace (annasChannel "guild") (annasWorld "guild") 14 2000 rfl).mpr
    ⟨fun team => by cases team <;> decide, fun team => by cases team <;> decide, by decide⟩
      .alliance "GUILD"

/-- **A channel with a capital letter is lost**, and so are its password and its bans. -/
theorem renamed_by_restart :
    ((getCustomChannel ((annasWorld "Guild").saved .alliance) "Guild").any fun channel =>
        channel.isBanned 2 && channel.channelPassword = "secret") = true ∧
      ((getCustomChannel ((loadFromDB padSpace 14 2000 (annasWorld "Guild").channels).1 .alliance)
        "Guild").isNone) = true := by
  decide

end Example

end IscServer.Channels
