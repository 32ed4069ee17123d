import IscServer.Spells.CategoryPointers

/-!
# How Long a Category Cooldown Lasts

Cooldowns that are started, expire, and are saved and loaded again. A category cooldown is known by the
entry of the spell that was started last in it; but an entry that expires takes its category along, whoever
represents it, and after a login the last row of a category represents it.

## Main results

* `exact_of_run` — cooldowns last as they should while no start shortens a cooldown or changes the category
  of an entry that is pointed to, no expired entry has a category that still runs, and the last row that is
  loaded of each category has the end of the category.
* `category_cut_short` — a category that ends with another spell of it.
-/

namespace IscServer.Spells

open List Keyed

variable {env : Env} {s : SpellHistory}

/-! ### Sessions -/

/-- What was started. -/
structure Started where
  spellId : ℕ
  categoryId : ℕ
  recoveryEnd : ℤ
  categoryEnd : ℤ
  deriving DecidableEq, Repr

/-- A history with the clock and, latest first, all that was started. -/
structure Session where
  history : SpellHistory
  clock : ℤ
  started : List Started

/-- What happens to cooldowns: a start without hold or modifiers, the tick, and a logout with the next
login, which reads the rows. -/
inductive SessionOp
  | startCooldown (spellInfo : SpellInfo) (itemId : ℕ) (now : ℤ)
  | update (now : ℤ)
  | relog (rows : List CooldownRow)
  deriving DecidableEq, Repr

/-- The start of a spell, if it has a cooldown. -/
def startOf (env : Env) (spellInfo : SpellInfo) (itemId : ℕ) (now : ℤ) : Option Started :=
  (startedEnds env spellInfo itemId ⟨none, 0⟩ false now).map fun ends =>
    ⟨spellInfo.id, ends.2.1, ends.1, ends.2.2⟩

/-- One step. -/
def Session.step (env : Env) (session : Session) : SessionOp → Option Session
  | .startCooldown spellInfo itemId now =>
    some ⟨session.history.startCooldown env spellInfo itemId ⟨none, 0⟩ false now, now,
      (startOf env spellInfo itemId now).toList ++ session.started⟩
  | .update now => (session.history.update now).map fun history => ⟨history, now, session.started⟩
  | .relog rows =>
    some ⟨SpellHistory.new.loadFromDB env rows, session.clock, session.started⟩

/-- The last start in a category. -/
def lastIn (started : List Started) (categoryId : ℕ) : Option Started :=
  Keyed.find Started.categoryId started categoryId

/-- **Cooldowns are exact** at a time. -/
def Session.Exact (env : Env) (session : Session) (now : ℤ) : Prop :=
  ∀ spellInfo itemId, session.history.hasCooldown env spellInfo itemId = true ↔
    (∃ start ∈ session.started, start.spellId = spellInfo.id ∧ now ≤ start.recoveryEnd) ∨
      ((getCooldownDurations env spellInfo itemId).categoryId ≠ 0 ∧
        ∃ start ∈ lastIn session.started (getCooldownDurations env spellInfo itemId).categoryId,
          now ≤ start.categoryEnd)

/-! ### Steps -/

/-- A time in whole seconds. -/
def WholeSeconds (time : ℤ) : Prop := 0 ≤ time ∧ time % 1000 = 0

instance (time : ℤ) : Decidable (WholeSeconds time) := inferInstanceAs (Decidable (_ ∧ _))

/-- What a step is: known spells, times that do not go back and are whole seconds, and the rows that were
saved, in any order. -/
def Session.Possible (env : Env) (session : Session) : SessionOp → Prop
  | .startCooldown spellInfo itemId now =>
    (env.getSpellInfo spellInfo.id).isSome ∧ session.clock ≤ now ∧
      ∀ start ∈ startOf env spellInfo itemId now,
        WholeSeconds start.recoveryEnd ∧ WholeSeconds start.categoryEnd
  | .update now => session.clock ≤ now
  | .relog rows => rows.Perm session.history.saveToDB

/-- The entry that a category points to. -/
def SpellHistory.categoryEntry (s : SpellHistory) (categoryId : ℕ) : Option CooldownEntry :=
  (Keyed.find Prod.fst s.categoryCooldowns categoryId).bind fun pair => s.deref pair.2

/-- The last row of a category. -/
def lastRow (rows : List CooldownRow) (categoryId : ℕ) : Option CooldownRow :=
  Keyed.find CooldownRow.categoryId rows.reverse categoryId

/-- The category end of an entry, if it is still to come. -/
def endToCome (clock : ℤ) (entry : Option CooldownEntry) : Option ℤ :=
  (entry.map CooldownEntry.categoryEnd).filter fun categoryEnd => clock ≤ categoryEnd

/-- **The step cuts nothing short**: a start overwrites no later end and no entry to which another category
points, no entry expires whose category still runs, and the last row of each category has its end. -/
def Session.Lasts (env : Env) (session : Session) : SessionOp → Prop
  | .startCooldown spellInfo itemId now => ∀ start ∈ startOf env spellInfo itemId now,
      session.history.PointedAs spellInfo.id start.categoryId ∧
        ∀ slot ∈ session.history.find spellInfo.id,
          slot.entry.cooldownEnd ≤ start.recoveryEnd ∨ slot.entry.cooldownEnd < now
  | .update now => ∀ slot ∈ session.history.spellCooldowns, slot.entry.cooldownEnd < now →
      ∀ entry ∈ session.history.categoryEntry slot.entry.categoryId, entry.categoryEnd < now
  | .relog rows =>
    (∀ slot ∈ session.history.spellCooldowns, slot.entry.cooldownEnd < 2 ^ 32 * 1000 ∧
      slot.entry.categoryEnd < 2 ^ 32 * 1000) ∧
    ∀ row ∈ rows, row.categoryId ≠ 0 →
      endToCome session.clock ((lastRow rows row.categoryId).map readCooldown) =
        endToCome session.clock (session.history.categoryEntry row.categoryId)

variable {session : Session}

instance (op : SessionOp) : Decidable (session.Possible env op) :=
  match op with
  | .startCooldown _ _ _ => inferInstanceAs (Decidable (_ ∧ _ ∧ _))
  | .update now => inferInstanceAs (Decidable (session.clock ≤ now))
  | .relog rows => inferInstanceAs (Decidable (rows.Perm session.history.saveToDB))

instance (op : SessionOp) : Decidable (session.Lasts env op) :=
  match op with
  | .startCooldown spellInfo itemId now => inferInstanceAs (Decidable
      (∀ start ∈ startOf env spellInfo itemId now, session.history.PointedAs spellInfo.id start.categoryId ∧
        ∀ slot ∈ session.history.find spellInfo.id,
          slot.entry.cooldownEnd ≤ start.recoveryEnd ∨ slot.entry.cooldownEnd < now))
  | .update now => inferInstanceAs (Decidable
      (∀ slot ∈ session.history.spellCooldowns, slot.entry.cooldownEnd < now →
        ∀ entry ∈ session.history.categoryEntry slot.entry.categoryId, entry.categoryEnd < now))
  | .relog _ => inferInstanceAs (Decidable (_ ∧ _))

/-! ### The invariant -/

/-- **The invariant**: from now on the entries end when the spells and categories do. -/
structure Session.Tracks (env : Env) (session : Session) : Prop where
  sound : Sound session.history
  categories : (session.history.categoryCooldowns.map Prod.fst).Nodup
  nonzero : ∀ pair ∈ session.history.categoryCooldowns, pair.1 ≠ 0
  known : ∀ slot ∈ session.history.spellCooldowns, (env.getSpellInfo slot.key).isSome ∧
    slot.entry.onHold = false ∧ WholeSeconds slot.entry.cooldownEnd ∧ WholeSeconds slot.entry.categoryEnd
  recovery : ∀ spellId now, session.clock ≤ now →
    ((∃ slot ∈ session.history.find spellId, now ≤ slot.entry.cooldownEnd) ↔
      ∃ start ∈ session.started, start.spellId = spellId ∧ now ≤ start.recoveryEnd)
  category : ∀ categoryId now, categoryId ≠ 0 → session.clock ≤ now →
    ((∃ entry ∈ session.history.categoryEntry categoryId, now ≤ entry.categoryEnd) ↔
      ∃ start ∈ lastIn session.started categoryId, now ≤ start.categoryEnd)

/-- The entry of a category, by its place. -/
theorem Sound.categoryEntry_iff (h : Sound s) (hnodup : (s.categoryCooldowns.map Prod.fst).Nodup)
    {categoryId : ℕ} {entry : CooldownEntry} : s.categoryEntry categoryId = some entry ↔
      ∃ slot ∈ s.spellCooldowns, (categoryId, slot.address) ∈ s.categoryCooldowns ∧ slot.entry = entry := by
  rw [SpellHistory.categoryEntry]
  constructor
  · intro hentry
    obtain ⟨pair, hpair, hderef⟩ := Option.bind_eq_some_iff.mp hentry
    obtain ⟨slot, hslot, hlive, haddress, -⟩ := h.deref (mem_of_find hpair)
    refine ⟨slot, hslot, ?_, Option.some.inj (hlive.symm.trans hderef)⟩
    rw [haddress, ← key_of_find hpair]
    exact mem_of_find hpair
  · rintro ⟨slot, hslot, hpair, rfl⟩
    have hfind := find_of_mem hnodup hpair
    have hderef : s.deref slot.address = some slot.entry := by
      rw [SpellHistory.deref, find_of_mem h.addresses hslot]
      rfl
    rw [hfind]
    exact hderef

theorem Sound.find_iff (h : Sound s) {spellId : ℕ} {slot : Slot} :
    s.find spellId = some slot ↔ slot ∈ s.spellCooldowns ∧ slot.key = spellId :=
  find_eq_some_iff h.keys

/-! ### The tick -/

/-- What an `Update` leaves: the pointers to entries whose category has not ended, of categories of which
no entry has expired, and the entries that have not. -/
theorem update_spec (h : Sound s) (now : ℤ) : ∃ s', s.update now = some s' ∧ Sound s' ∧
    s'.categoryCooldowns.Sublist s.categoryCooldowns ∧
    (∀ pair, pair ∈ s'.categoryCooldowns ↔ pair ∈ s.categoryCooldowns ∧
      (∃ slot ∈ s.spellCooldowns, slot.address = pair.2 ∧ now ≤ slot.entry.categoryEnd) ∧
      ∀ slot ∈ s.spellCooldowns, slot.entry.cooldownEnd < now → slot.entry.categoryId ≠ pair.1) ∧
    ∀ slot, slot ∈ s'.spellCooldowns ↔ slot ∈ s.spellCooldowns ∧ now ≤ slot.entry.cooldownEnd := by
  have hexpired := h.expireCategories now
  have hfilter := h.filterCategories fun pair =>
    (s.deref pair.2).any fun entry => !(entry.categoryEnd < now)
  refine ⟨_, by rw [SpellHistory.update, hexpired]; rfl, hfilter.erase fun slot hslot =>
    (mem_filter.mp hslot).1, ?_, fun pair => ?_, fun slot => ?_⟩
  · rw [foldl_eraseCooldown]
    exact filter_sublist.trans filter_sublist
  · rw [foldl_eraseCooldown]
    simp only [mem_filter, Bool.not_eq_eq_eq_not, Bool.not_true, decide_eq_false_iff_not, mem_map,
      not_exists, not_and, decide_eq_true_eq, and_assoc]
    refine and_congr_right fun hpair => and_congr ?_ ⟨fun hnone slot hslot hend => hnone slot hslot hend,
      fun hnone slot hslot hend => hnone slot hslot hend⟩
    obtain ⟨slot, hslot, hderef, haddress, -⟩ := h.deref hpair
    rw [hderef, Option.any_some, Bool.not_eq_eq_eq_not, Bool.not_true, decide_eq_false_iff_not, Int.not_lt]
    constructor
    · exact fun hend => ⟨slot, hslot, haddress, hend⟩
    · rintro ⟨other, hother, hsame, hend⟩
      rwa [eq_of_key h.addresses hslot hother (haddress.trans hsame.symm)]
  · rw [foldl_eraseCooldown]
    simp only [mem_filter, Bool.not_eq_eq_eq_not, Bool.not_true, decide_eq_false_iff_not, mem_map,
      not_exists, not_and, decide_eq_true_eq]
    refine and_congr_right fun hslot => ⟨fun hnone => ?_, fun hend other hother hkey => ?_⟩
    · by_contra hend
      exact hnone slot ⟨hslot, Int.not_le.mp hend⟩ rfl
    · rw [eq_of_key h.keys hother.1 hslot hkey] at hother
      omega

/-- **The tick** keeps the invariant, and nothing remains that has ended. -/
theorem Session.Tracks.update (h : session.Tracks env) {now : ℤ} (hclock : session.clock ≤ now)
    (hlasts : session.Lasts env (.update now)) :
    ∃ session', session.step env (.update now) = some session' ∧ session'.Tracks env ∧
      session'.Exact env now := by
  obtain ⟨s', hs', hsound, hsub, hpairs, hslots⟩ := update_spec h.sound now
  have hnodup : (s'.categoryCooldowns.map Prod.fst).Nodup := h.categories.sublist (hsub.map _)
  have hentry : ∀ categoryId entry, categoryId ≠ 0 →
      (s'.categoryEntry categoryId = some entry ↔
        session.history.categoryEntry categoryId = some entry ∧ now ≤ entry.categoryEnd) := by
    intro categoryId entry hzero
    rw [hsound.categoryEntry_iff hnodup, h.sound.categoryEntry_iff h.categories]
    constructor
    · rintro ⟨slot, hslot, hpair, rfl⟩
      obtain ⟨hpair, ⟨other, hother, haddress, hend⟩, -⟩ := (hpairs _).mp hpair
      have hsame := eq_of_key h.sound.addresses hother ((hslots slot).mp hslot).1 haddress
      exact ⟨⟨slot, ((hslots slot).mp hslot).1, hpair, rfl⟩, hsame ▸ hend⟩
    · rintro ⟨⟨slot, hslot, hpair, rfl⟩, hend⟩
      -- no entry of the category has expired: the category still runs
      have hothers : ∀ other ∈ session.history.spellCooldowns, other.entry.cooldownEnd < now →
          other.entry.categoryId ≠ categoryId := by
        intro other hother hexpired hcategory
        have hpoints := (h.sound.categoryEntry_iff h.categories).mpr ⟨slot, hslot, hpair, rfl⟩
        have hended := hlasts other hother hexpired slot.entry (hcategory ▸ hpoints)
        omega
      have hkept := (hpairs (categoryId, slot.address)).mpr ⟨hpair, ⟨slot, hslot, rfl, hend⟩, hothers⟩
      obtain ⟨live, hlive, haddress, -⟩ := hsound.noStale _ hkept
      have hsame := eq_of_key h.sound.addresses ((hslots live).mp hlive).1 hslot haddress
      exact ⟨slot, hsame ▸ hlive, hkept, rfl⟩
  have hrecovery : ∀ spellId later, now ≤ later →
      ((∃ slot ∈ s'.find spellId, later ≤ slot.entry.cooldownEnd) ↔
        ∃ start ∈ session.started, start.spellId = spellId ∧ later ≤ start.recoveryEnd) := by
    intro spellId later hlater
    rw [← h.recovery spellId later (by omega)]
    constructor
    · rintro ⟨slot, hslot, hend⟩
      obtain ⟨hmem, hkey⟩ := hsound.find_iff.mp hslot
      exact ⟨slot, h.sound.find_iff.mpr ⟨((hslots slot).mp hmem).1, hkey⟩, hend⟩
    · rintro ⟨slot, hslot, hend⟩
      obtain ⟨hmem, hkey⟩ := h.sound.find_iff.mp hslot
      exact ⟨slot, hsound.find_iff.mpr ⟨(hslots slot).mpr ⟨hmem, by omega⟩, hkey⟩, hend⟩
  have hcategory : ∀ categoryId later, categoryId ≠ 0 → now ≤ later →
      ((∃ entry ∈ s'.categoryEntry categoryId, later ≤ entry.categoryEnd) ↔
        ∃ start ∈ lastIn session.started categoryId, later ≤ start.categoryEnd) := by
    intro categoryId later hzero hlater
    rw [← h.category categoryId later hzero (by omega)]
    constructor
    · rintro ⟨entry, hin, hend⟩
      exact ⟨entry, ((hentry categoryId entry hzero).mp hin).1, hend⟩
    · rintro ⟨entry, hin, hend⟩
      exact ⟨entry, (hentry categoryId entry hzero).mpr ⟨hin, by omega⟩, hend⟩
  refine ⟨⟨s', now, session.started⟩, by rw [Session.step, hs']; rfl,
    ⟨hsound, hnodup, fun pair hpair => h.nonzero pair ((hpairs pair).mp hpair).1,
      fun slot hslot => h.known slot ((hslots slot).mp hslot).1, hrecovery, hcategory⟩,
    fun spellInfo itemId => ?_⟩
  rw [SpellHistory.hasCooldown, Bool.or_eq_true, Bool.and_eq_true, Bool.not_eq_eq_eq_not, Bool.not_true,
    decide_eq_false_iff_not]
  refine or_congr ?_ (and_congr_right fun hzero => ?_)
  · rw [← hrecovery spellInfo.id now (Int.le_refl now), Option.isSome_iff_exists]
    refine exists_congr fun slot => ⟨fun hslot => ⟨hslot, ?_⟩, fun hslot => hslot.1⟩
    exact ((hslots slot).mp (hsound.find_iff.mp hslot).1).2
  · rw [← hcategory _ now hzero (Int.le_refl now), Option.isSome_iff_exists]
    constructor
    · rintro ⟨pair, hpair⟩
      obtain ⟨slot, -, hderef, -⟩ := hsound.deref (mem_of_find hpair)
      have hin : s'.categoryEntry (getCooldownDurations env spellInfo itemId).categoryId =
          some slot.entry := by
        rw [SpellHistory.categoryEntry, hpair]
        exact hderef
      exact ⟨slot.entry, hin, ((hentry _ _ hzero).mp hin).2⟩
    · rintro ⟨entry, hin, -⟩
      obtain ⟨pair, hpair, -⟩ := Option.bind_eq_some_iff.mp hin
      exact ⟨pair, hpair⟩

/-! ### Starting -/

/-- What is in the map after writing. -/
theorem mem_write (s : SpellHistory) (spellId : ℕ) (entry : CooldownEntry) :
    ∃ address, (∀ slot, slot ∈ (s.write spellId entry).spellCooldowns ↔
        slot = ⟨spellId, address, entry⟩ ∨ (slot ∈ s.spellCooldowns ∧ slot.key ≠ spellId)) ∧
      (∀ slot ∈ s.find spellId, slot.address = address) ∧
      (s.write spellId entry).categoryCooldowns = s.categoryCooldowns := by
  rw [SpellHistory.write]
  cases hfind : s.find spellId with
  | none =>
    have hnew : ∀ slot ∈ s.spellCooldowns, slot.key ≠ spellId := find_eq_none_iff.mp hfind
    refine ⟨s.addresses, fun slot => ?_, fun slot hslot => (by cases hslot), rfl⟩
    rw [mem_append, mem_singleton, or_comm]
    exact or_congr_right ⟨fun hslot => ⟨hslot, hnew slot hslot⟩, fun hslot => hslot.1⟩
  | some old =>
    have hold := mem_of_find hfind
    have hkey : old.key = spellId := key_of_find hfind
    subst hkey
    refine ⟨old.address, fun slot => ?_, fun slot hslot => (Option.some.inj hslot) ▸ rfl, rfl⟩
    refine mem_put_iff.trans (or_congr_left ⟨fun hslot => hslot.1, fun hslot => ⟨hslot, ?_⟩⟩)
    exact mem_map.mpr ⟨old, hold, rfl⟩

/-- The pointers and entries after `AddCooldown`. -/
theorem addCooldown_spec (s : SpellHistory) {spellId itemId categoryId : ℕ} {cooldownEnd categoryEnd : ℤ}
    {onHold : Bool} : ∃ address,
    (∀ slot, slot ∈ (s.addCooldown spellId itemId cooldownEnd categoryId categoryEnd onHold).spellCooldowns ↔
        slot = ⟨spellId, address, ⟨spellId, cooldownEnd, itemId, categoryId, categoryEnd, onHold⟩⟩ ∨
          (slot ∈ s.spellCooldowns ∧ slot.key ≠ spellId)) ∧
      (∀ slot ∈ s.find spellId, slot.address = address) ∧
      (s.addCooldown spellId itemId cooldownEnd categoryId categoryEnd onHold).categoryCooldowns =
        if categoryId = 0 then s.categoryCooldowns
        else Keyed.assign Prod.fst s.categoryCooldowns (categoryId, address) := by
  obtain ⟨address, hslots, hsame, hpairs⟩ :=
    mem_write s spellId ⟨spellId, cooldownEnd, itemId, categoryId, categoryEnd, onHold⟩
  have hfind : (s.write spellId ⟨spellId, cooldownEnd, itemId, categoryId, categoryEnd, onHold⟩).find
      spellId = some ⟨spellId, address, ⟨spellId, cooldownEnd, itemId, categoryId, categoryEnd, onHold⟩⟩ := by
    obtain ⟨slot, hfind, -⟩ := @find_write s spellId
      ⟨spellId, cooldownEnd, itemId, categoryId, categoryEnd, onHold⟩
    have hslot := (hslots slot).mp (mem_of_find hfind)
    rcases hslot with rfl | ⟨-, hne⟩
    · exact hfind
    · exact absurd (key_of_find hfind) hne
  refine ⟨address, ?_, hsame, ?_⟩
  · rw [SpellHistory.addCooldown, SpellHistory.point, hfind]
    split_ifs
    · exact hslots
    · exact hslots
  · rw [SpellHistory.addCooldown, SpellHistory.point, hfind]
    split_ifs with hzero
    · exact hpairs
    · exact congrArg (fun pairs => Keyed.assign Prod.fst pairs (categoryId, address)) hpairs

/-- The entries of categories after `AddCooldown`. -/
theorem categoryEntry_addCooldown (h : Sound s) (hnodup : (s.categoryCooldowns.map Prod.fst).Nodup)
    {spellId itemId categoryId : ℕ} {cooldownEnd categoryEnd : ℤ} {onHold : Bool}
    (hpointed : s.PointedAs spellId categoryId) {other : ℕ} (hother : other ≠ 0) (entry : CooldownEntry) :
    (s.addCooldown spellId itemId cooldownEnd categoryId categoryEnd onHold).categoryEntry other = some entry ↔
      (other = categoryId ∧ entry = ⟨spellId, cooldownEnd, itemId, categoryId, categoryEnd, onHold⟩) ∨
        (other ≠ categoryId ∧ s.categoryEntry other = some entry) := by
  have hsound := (@Sound.addCooldown s h spellId itemId categoryId cooldownEnd categoryEnd onHold) hpointed
  obtain ⟨address, hslots, hsame, hpairs⟩ :=
    @addCooldown_spec s spellId itemId categoryId cooldownEnd categoryEnd onHold
  have hnodup' : ((s.addCooldown spellId itemId cooldownEnd categoryId categoryEnd
      onHold).categoryCooldowns.map Prod.fst).Nodup := by
    rw [hpairs]
    split_ifs
    · exact hnodup
    · exact nodup_assign hnodup
  have hpair : ∀ place, (other, place) ∈ (s.addCooldown spellId itemId cooldownEnd categoryId categoryEnd
      onHold).categoryCooldowns ↔ (other = categoryId ∧ place = address) ∨
        (other ≠ categoryId ∧ (other, place) ∈ s.categoryCooldowns) := by
    intro place
    rw [hpairs]
    split_ifs with hzero
    · simp [hzero, hother]
    · rw [mem_assign_iff, Prod.mk.injEq]
      exact or_congr_right and_comm
  have hnew := (hslots ⟨spellId, address, ⟨spellId, cooldownEnd, itemId, categoryId, categoryEnd,
    onHold⟩⟩).mpr (Or.inl rfl)
  rw [hsound.categoryEntry_iff hnodup', h.categoryEntry_iff hnodup]
  constructor
  · rintro ⟨slot, hslot, hin, rfl⟩
    rcases (hpair _).mp hin with ⟨hcategory, haddress⟩ | ⟨hne, hold⟩
    · have heq := eq_of_key hsound.addresses hslot hnew haddress
      exact Or.inl ⟨hcategory, congrArg Slot.entry heq⟩
    · rcases (hslots slot).mp hslot with rfl | ⟨hslot, -⟩
      · -- the entry is pointed to under another category
        exfalso
        obtain ⟨live, hlive, haddress, -⟩ := h.noStale _ hold
        by_cases hkey : live.key = spellId
        · exact hne (hpointed live (h.find_iff.mpr ⟨hlive, hkey⟩) _ hold haddress.symm)
        · have heq := eq_of_key hsound.addresses ((hslots live).mpr (Or.inr ⟨hlive, hkey⟩)) hnew haddress
          exact hkey (congrArg Slot.key heq)
      · exact Or.inr ⟨hne, slot, hslot, hold, rfl⟩
  · rintro (⟨hcategory, rfl⟩ | ⟨hne, slot, hslot, hin, rfl⟩)
    · exact ⟨_, hnew, (hpair address).mpr (Or.inl ⟨hcategory, rfl⟩), rfl⟩
    · refine ⟨slot, (hslots slot).mpr (Or.inr ⟨hslot, fun hkey => hne ?_⟩),
        (hpair _).mpr (Or.inr ⟨hne, hin⟩), rfl⟩
      exact hpointed slot (h.find_iff.mpr ⟨hslot, hkey⟩) _ hin rfl

/-- The entries of spells after `AddCooldown`. -/
theorem find_addCooldown (h : Sound s) {spellId itemId categoryId : ℕ} {cooldownEnd categoryEnd : ℤ}
    {onHold : Bool} (hpointed : s.PointedAs spellId categoryId) (other : ℕ) (later : ℤ) :
    (∃ slot ∈ (s.addCooldown spellId itemId cooldownEnd categoryId categoryEnd onHold).find other,
        later ≤ slot.entry.cooldownEnd) ↔
      if other = spellId then later ≤ cooldownEnd
      else ∃ slot ∈ s.find other, later ≤ slot.entry.cooldownEnd := by
  have hsound := (@Sound.addCooldown s h spellId itemId categoryId cooldownEnd categoryEnd onHold) hpointed
  obtain ⟨address, hslots, -, -⟩ :=
    @addCooldown_spec s spellId itemId categoryId cooldownEnd categoryEnd onHold
  simp only [Option.mem_def, hsound.find_iff, h.find_iff, hslots]
  split_ifs with hsame
  · constructor
    · rintro ⟨slot, ⟨rfl | ⟨-, hne⟩, hkey⟩, hend⟩
      · exact hend
      · exact absurd (hkey.trans hsame) hne
    · exact fun hend => ⟨_, ⟨Or.inl rfl, hsame.symm⟩, hend⟩
  · constructor
    · rintro ⟨slot, ⟨rfl | ⟨hslot, -⟩, hkey⟩, hend⟩
      · exact absurd hkey.symm hsame
      · exact ⟨slot, ⟨hslot, hkey⟩, hend⟩
    · rintro ⟨slot, ⟨hslot, hkey⟩, hend⟩
      exact ⟨slot, ⟨Or.inr ⟨hslot, hkey ▸ hsame⟩, hkey⟩, hend⟩

/-- **A start** keeps the invariant. -/
theorem Session.Tracks.startCooldown (h : session.Tracks env) {spellInfo : SpellInfo} {itemId : ℕ} {now : ℤ}
    (hpossible : session.Possible env (.startCooldown spellInfo itemId now))
    (hlasts : session.Lasts env (.startCooldown spellInfo itemId now)) :
    ∃ session', session.step env (.startCooldown spellInfo itemId now) = some session' ∧
      session'.Tracks env := by
  obtain ⟨hinfo, hclock, hseconds⟩ := hpossible
  refine ⟨_, rfl, ?_⟩
  rw [SpellHistory.startCooldown]
  rw [Session.Lasts] at hlasts
  rw [startOf] at hlasts hseconds ⊢
  cases hends : startedEnds env spellInfo itemId ⟨none, 0⟩ false now with
  | none =>
    exact ⟨h.sound, h.categories, h.nonzero, h.known,
      fun spellId later hlater => h.recovery spellId later (Int.le_trans hclock hlater),
      fun categoryId later hzero hlater => h.category categoryId later hzero
        (Int.le_trans hclock hlater)⟩
  | some ends =>
    obtain ⟨recTime, categoryId, catrecTime⟩ := ends
    rw [hends] at hlasts hseconds
    obtain ⟨hpointed, hlonger⟩ := hlasts _ rfl
    obtain ⟨hrec, hcat⟩ := hseconds _ rfl
    dsimp only at hpointed hlonger hrec hcat ⊢
    obtain ⟨address, hslots, -, hpairs⟩ :=
      @addCooldown_spec session.history spellInfo.id itemId categoryId recTime catrecTime false
    refine ⟨h.sound.addCooldown hpointed, ?_, fun pair hpair => ?_, fun slot hslot => ?_,
      fun spellId later hlater => ?_, fun other later hzero hlater => ?_⟩
    · rw [hpairs]
      split_ifs
      · exact h.categories
      · exact nodup_assign h.categories
    · rw [hpairs] at hpair
      split_ifs at hpair with hzero
      · exact h.nonzero pair hpair
      · rcases mem_assign_iff.mp hpair with rfl | ⟨hpair, -⟩
        · exact hzero
        · exact h.nonzero pair hpair
    · rcases (hslots slot).mp hslot with rfl | ⟨hslot, -⟩
      · exact ⟨hinfo, rfl, hrec, hcat⟩
      · exact h.known slot hslot
    · refine (find_addCooldown h.sound hpointed spellId later).trans ?_
      have hold := h.recovery spellId later (Int.le_trans hclock hlater)
      have hstarted : (∃ start ∈ (⟨spellInfo.id, categoryId, recTime, catrecTime⟩ : Started) ::
          session.started, start.spellId = spellId ∧ later ≤ start.recoveryEnd) ↔
            (spellInfo.id = spellId ∧ later ≤ recTime) ∨
              ∃ slot ∈ session.history.find spellId, later ≤ slot.entry.cooldownEnd := by
        rw [hold]
        exact exists_mem_cons_iff _ _ _
      refine Iff.trans ?_ hstarted.symm
      split_ifs with hsame
      · constructor
        · exact fun hend => Or.inl ⟨hsame.symm, hend⟩
        · rintro (⟨-, hend⟩ | ⟨slot, hslot, hend⟩)
          · exact hend
          · have hnow : now ≤ later := hlater
            rcases hlonger slot (hsame ▸ hslot) with hle | hlt
            · omega
            · omega
      · exact (or_iff_right fun hin => hsame hin.1.symm).symm
    · have hold := h.category other later hzero (Int.le_trans hclock hlater)
      have hlast : lastIn ((⟨spellInfo.id, categoryId, recTime, catrecTime⟩ : Started) :: session.started)
          other = if categoryId = other then some ⟨spellInfo.id, categoryId, recTime, catrecTime⟩
            else lastIn session.started other := find_cons
      have hgoal : (∃ start ∈ lastIn ((⟨spellInfo.id, categoryId, recTime, catrecTime⟩ : Started) ::
          session.started) other, later ≤ start.categoryEnd) ↔
            (other = categoryId ∧ later ≤ catrecTime) ∨ (other ≠ categoryId ∧
              ∃ entry ∈ session.history.categoryEntry other, later ≤ entry.categoryEnd) := by
        rw [hlast, hold]
        split_ifs with hsame
        · simp [hsame]
        · simp [Ne.symm hsame]
      refine Iff.trans ?_ hgoal.symm
      simp only [Option.mem_def, categoryEntry_addCooldown h.sound h.categories hpointed hzero]
      constructor
      · rintro ⟨entry, ⟨hsame, rfl⟩ | ⟨hne, hin⟩, hend⟩
        · exact Or.inl ⟨hsame, hend⟩
        · exact Or.inr ⟨hne, entry, hin, hend⟩
      · rintro (⟨hsame, hend⟩ | ⟨hne, entry, hin, hend⟩)
        · exact ⟨_, Or.inl ⟨hsame, rfl⟩, hend⟩
        · exact ⟨entry, Or.inr ⟨hne, hin⟩, hend⟩

/-! ### Logging in again -/

/-- What a loaded history is, by the rows. -/
structure Loaded (rows : List CooldownRow) (s : SpellHistory) : Prop where
  sound : Sound s
  categories : (s.categoryCooldowns.map Prod.fst).Nodup
  nonzero : ∀ pair ∈ s.categoryCooldowns, pair.1 ≠ 0
  entries : ∀ spellId entry, (∃ slot ∈ s.spellCooldowns, slot.key = spellId ∧ slot.entry = entry) ↔
    ∃ row ∈ rows, row.spell = spellId ∧ readCooldown row = entry
  category : ∀ categoryId, categoryId ≠ 0 →
    s.categoryEntry categoryId = (lastRow rows categoryId).map readCooldown

/-- **Loading**: the last row of a category represents it. -/
theorem loaded_loadFromDB {rows : List CooldownRow}
    (hknown : ∀ row ∈ rows, (env.getSpellInfo row.spell).isSome)
    (hnodup : (rows.map CooldownRow.spell).Nodup) : Loaded rows (SpellHistory.new.loadFromDB env rows) := by
  induction rows using List.reverseRecOn with
  | nil =>
    refine ⟨sound_new, nodup_nil, fun _ hin => (by cases hin), fun spellId entry => ?_,
      fun categoryId _ => rfl⟩
    exact ⟨fun ⟨_, hin, _⟩ => (by cases hin), fun ⟨_, hin, _⟩ => (by cases hin)⟩
  | append_singleton rows row ih =>
    rw [map_append] at hnodup
    obtain ⟨hrows, -, hdisjoint⟩ := nodup_append.mp hnodup
    have h := ih (fun other hin => hknown other (mem_append_left _ hin)) hrows
    have hload : SpellHistory.new.loadFromDB env (rows ++ [row]) =
        (SpellHistory.new.loadFromDB env rows).addCooldown row.spell row.item (row.time * 1000)
          row.categoryId (row.categoryEnd * 1000) false := by
      have hsome := hknown row (mem_append_right _ mem_cons_self)
      rw [SpellHistory.loadFromDB, foldl_append, foldl_cons, foldl_nil, loadRow,
        if_neg (by rw [Option.isNone_iff_eq_none]; exact Option.isSome_iff_ne_none.mp hsome)]
      rfl
    generalize SpellHistory.new.loadFromDB env rows = s at h hload
    have hnew : s.find row.spell = none := by
      refine find_eq_none_iff.mpr fun slot hslot hkey => ?_
      obtain ⟨other, hother, hsame, -⟩ := (h.entries _ _).mp ⟨slot, hslot, hkey, rfl⟩
      exact hdisjoint other.spell (mem_map_of_mem hother) row.spell mem_cons_self hsame
    have hpointed : s.PointedAs row.spell row.categoryId := fun slot hslot => by
      rw [Option.mem_def, hnew] at hslot
      cases hslot
    obtain ⟨address, hslots, -, hpairs⟩ := @addCooldown_spec s row.spell row.item row.categoryId
      (row.time * 1000) (row.categoryEnd * 1000) false
    rw [hload]
    refine ⟨h.sound.addCooldown hpointed, ?_, fun pair hpair => ?_, fun spellId entry => ?_,
      fun categoryId hzero => ?_⟩
    · rw [hpairs]
      split_ifs
      · exact h.categories
      · exact nodup_assign h.categories
    · rw [hpairs] at hpair
      split_ifs at hpair with hzero
      · exact h.nonzero pair hpair
      · rcases mem_assign_iff.mp hpair with rfl | ⟨hpair, -⟩
        · exact hzero
        · exact h.nonzero pair hpair
    · constructor
      · rintro ⟨slot, hslot, rfl, rfl⟩
        rcases (hslots slot).mp hslot with rfl | ⟨hslot, -⟩
        · exact ⟨row, mem_append_right _ mem_cons_self, rfl, rfl⟩
        · obtain ⟨other, hother, hread⟩ := (h.entries _ _).mp ⟨slot, hslot, rfl, rfl⟩
          exact ⟨other, mem_append_left _ hother, hread⟩
      · rintro ⟨other, hother, rfl, rfl⟩
        rcases mem_append.mp hother with hother | hother
        · obtain ⟨slot, hslot, hkey, hentry⟩ := (h.entries _ _).mpr ⟨other, hother, rfl, rfl⟩
          refine ⟨slot, (hslots slot).mpr (Or.inr ⟨hslot, fun hsame => ?_⟩), hkey, hentry⟩
          exact find_eq_none_iff.mp hnew slot hslot hsame
        · rw [mem_singleton.mp hother]
          exact ⟨_, (hslots _).mpr (Or.inl rfl), rfl, rfl⟩
    · have hlast : lastRow (rows ++ [row]) categoryId =
          if row.categoryId = categoryId then some row else lastRow rows categoryId := by
        rw [lastRow, reverse_append]
        exact find_cons
      refine Option.ext fun entry => ?_
      rw [categoryEntry_addCooldown h.sound h.categories hpointed hzero, h.category categoryId hzero, hlast]
      split_ifs with hsame
      · simp [hsame, readCooldown, eq_comm]
      · simp [Ne.symm hsame]

theorem toTime_eq {time : ℤ} (hseconds : WholeSeconds time) (hlt : time < 2 ^ 32 * 1000) :
    (toTime time : ℤ) * 1000 = time := by
  obtain ⟨hpos, hwhole⟩ := hseconds
  rw [toTime, Int.toNat_of_nonneg (Int.emod_nonneg _ (by decide))]
  omega

/-- The row that `SaveToDB` writes of an entry. -/
def savedRow (slot : Slot) : CooldownRow :=
  ⟨slot.key, slot.entry.itemId, toTime slot.entry.cooldownEnd, slot.entry.categoryId,
    toTime slot.entry.categoryEnd⟩

theorem readCooldown_cooldownEnd {slot : Slot} (hseconds : WholeSeconds slot.entry.cooldownEnd)
    (hlt : slot.entry.cooldownEnd < 2 ^ 32 * 1000) :
    (readCooldown (savedRow slot)).cooldownEnd = slot.entry.cooldownEnd :=
  toTime_eq hseconds hlt

theorem readCooldown_categoryEnd {slot : Slot} (hseconds : WholeSeconds slot.entry.categoryEnd)
    (hlt : slot.entry.categoryEnd < 2 ^ 32 * 1000) :
    (readCooldown (savedRow slot)).categoryEnd = slot.entry.categoryEnd :=
  toTime_eq hseconds hlt

theorem endToCome_eq_some {clock categoryEnd : ℤ} {entry : Option CooldownEntry} :
    endToCome clock entry = some categoryEnd ↔ ∃ e ∈ entry, e.categoryEnd = categoryEnd ∧ clock ≤ categoryEnd := by
  rw [endToCome, Option.filter_eq_some_iff, Option.map_eq_some_iff, decide_eq_true_eq]
  constructor
  · rintro ⟨⟨e, he, hend⟩, hclock⟩
    exact ⟨e, he, hend, hclock⟩
  · rintro ⟨e, he, hend, hclock⟩
    exact ⟨⟨e, he, hend⟩, hclock⟩

/-- **A logout and a login** keep the invariant. -/
theorem Session.Tracks.relog (h : session.Tracks env) {rows : List CooldownRow}
    (hrows : rows.Perm session.history.saveToDB) (hlasts : session.Lasts env (.relog rows)) :
    ∃ session', session.step env (.relog rows) = some session' ∧ session'.Tracks env := by
  obtain ⟨hfit, hends⟩ := hlasts
  have hsave : session.history.saveToDB = session.history.spellCooldowns.map savedRow := by
    have hall : (session.history.spellCooldowns.filter fun slot => !slot.entry.onHold) =
        session.history.spellCooldowns := by
      refine filter_eq_self.mpr fun slot hslot => ?_
      rw [(h.known slot hslot).2.1]
      rfl
    exact congrArg (List.map savedRow) hall
  have hrow : ∀ row, row ∈ rows ↔ ∃ slot ∈ session.history.spellCooldowns, savedRow slot = row := by
    intro row
    rw [hrows.mem_iff, hsave, mem_map]
  have hloaded : Loaded rows (SpellHistory.new.loadFromDB env rows) := by
    refine loaded_loadFromDB (fun row hin => ?_) ((hrows.map CooldownRow.spell).nodup_iff.mpr ?_)
    · obtain ⟨slot, hslot, rfl⟩ := (hrow row).mp hin
      exact (h.known slot hslot).1
    · rw [hsave, map_map]
      exact h.sound.keys
  refine ⟨_, rfl, hloaded.sound, hloaded.categories, hloaded.nonzero, fun slot hslot => ?_,
    fun spellId later hlater => ?_, fun categoryId later hzero hlater => ?_⟩
  · obtain ⟨row, hin, hkey, hread⟩ := (hloaded.entries _ _).mp ⟨slot, hslot, rfl, rfl⟩
    obtain ⟨old, hold, rfl⟩ := (hrow row).mp hin
    obtain ⟨hknown, -, hrec, hcat⟩ := h.known old hold
    obtain ⟨hrecfit, hcatfit⟩ := hfit old hold
    rw [← hkey, ← hread]
    refine ⟨hknown, rfl, ?_, ?_⟩
    · rw [readCooldown_cooldownEnd hrec hrecfit]
      exact hrec
    · rw [readCooldown_categoryEnd hcat hcatfit]
      exact hcat
  · rw [← h.recovery spellId later hlater]
    simp only [Option.mem_def, hloaded.sound.find_iff, h.sound.find_iff]
    constructor
    · rintro ⟨slot, ⟨hslot, hkey⟩, hend⟩
      obtain ⟨row, hin, hsame, hread⟩ := (hloaded.entries _ _).mp ⟨slot, hslot, rfl, rfl⟩
      obtain ⟨old, hold, rfl⟩ := (hrow row).mp hin
      refine ⟨old, ⟨hold, hsame.trans hkey⟩, ?_⟩
      rwa [← hread, readCooldown_cooldownEnd (h.known old hold).2.2.1 (hfit old hold).1] at hend
    · rintro ⟨old, ⟨hold, hkey⟩, hend⟩
      obtain ⟨slot, hslot, hsame, hentry⟩ := (hloaded.entries _ _).mpr
        ⟨_, (hrow _).mpr ⟨old, hold, rfl⟩, rfl, rfl⟩
      refine ⟨slot, ⟨hslot, hsame.trans hkey⟩, ?_⟩
      rwa [hentry, readCooldown_cooldownEnd (h.known old hold).2.2.1 (hfit old hold).1]
  · rw [← h.category categoryId later hzero hlater]
    have hclock : session.clock ≤ later := hlater
    have hsame : endToCome session.clock ((lastRow rows categoryId).map readCooldown) =
        endToCome session.clock (session.history.categoryEntry categoryId) := by
      by_cases hin : ∃ row ∈ rows, row.categoryId = categoryId
      · obtain ⟨row, hin, rfl⟩ := hin
        exact hends row hin hzero
      · have hlast : lastRow rows categoryId = none :=
          find_eq_none_iff.mpr fun row hrow hcategory =>
            hin ⟨row, mem_reverse.mp hrow, hcategory⟩
        have hnone : session.history.categoryEntry categoryId = none := by
          refine Option.eq_none_iff_forall_ne_some.mpr fun entry hentry => ?_
          obtain ⟨slot, -, hpair, rfl⟩ := (h.sound.categoryEntry_iff h.categories).mp hentry
          obtain ⟨live, hlive, -, hcategory⟩ := h.sound.noStale _ hpair
          exact hin ⟨_, (hrow _).mpr ⟨live, hlive, rfl⟩, hcategory⟩
        rw [hlast, hnone]
        rfl
    have hiff : ∀ entry : Option CooldownEntry, (∃ e ∈ entry, later ≤ e.categoryEnd) ↔
        ∃ categoryEnd, endToCome session.clock entry = some categoryEnd ∧ later ≤ categoryEnd := by
      intro entry
      simp only [endToCome_eq_some]
      constructor
      · rintro ⟨e, he, hend⟩
        exact ⟨e.categoryEnd, ⟨e, he, rfl, by omega⟩, hend⟩
      · rintro ⟨_, ⟨e, he, rfl, -⟩, hend⟩
        exact ⟨e, he, hend⟩
    rw [hloaded.category categoryId hzero, hiff, hiff, hsame]

/-! ### Runs -/

/-- One step of a session that has not followed a pointer to nothing. -/
def sessionStep (env : Env) (session : Option Session) (op : SessionOp) : Option Session :=
  session.bind (·.step env op)

/-- A player without cooldowns. -/
def Session.new (clock : ℤ) : Session := ⟨SpellHistory.new, clock, []⟩

theorem tracks_new (clock : ℤ) : (Session.new clock).Tracks env := by
  refine ⟨sound_new, nodup_nil, fun _ hin => (by cases hin), fun _ hin => (by cases hin),
    fun _ _ _ => ⟨fun ⟨_, hin, _⟩ => (by cases hin), fun ⟨_, hin, _⟩ => (by cases hin)⟩,
    fun _ _ _ _ => ⟨fun ⟨_, hin, _⟩ => (by cases hin), fun ⟨_, hin, _⟩ => (by cases hin)⟩⟩

theorem Session.Tracks.step (h : session.Tracks env) {op : SessionOp} (hpossible : session.Possible env op)
    (hlasts : session.Lasts env op) : ∃ session', session.step env op = some session' ∧
      session'.Tracks env ∧ ∀ now, op = .update now → session'.Exact env now := by
  cases op with
  | startCooldown spellInfo itemId now =>
    obtain ⟨session', hstep, htracks⟩ := h.startCooldown hpossible hlasts
    exact ⟨session', hstep, htracks, fun _ heq => by cases heq⟩
  | update now =>
    obtain ⟨session', hstep, htracks, hexact⟩ := h.update hpossible hlasts
    exact ⟨session', hstep, htracks, fun later heq => by cases heq; exact hexact⟩
  | relog rows =>
    obtain ⟨session', hstep, htracks⟩ := h.relog hpossible hlasts
    exact ⟨session', hstep, htracks, fun _ heq => by cases heq⟩

/-- **A category cooldown lasts until its end** in a run that cuts none short: after each `Update` a spell
has a cooldown exactly when one that was started for it, or last in its category, has not ended. -/
theorem exact_of_run (env : Env) (clock : ℤ) (ops : List SessionOp)
    (hpossible : Run.Along (sessionStep env)
      (fun state op => ∀ session ∈ state, session.Possible env op) (some (Session.new clock)) ops)
    (hlasts : Run.Along (sessionStep env)
      (fun state op => ∀ session ∈ state, session.Lasts env op) (some (Session.new clock)) ops) :
    Run.Along (sessionStep env) (fun state op => ∃ session', sessionStep env state op = some session' ∧
      ∀ now, op = .update now → session'.Exact env now) (some (Session.new clock)) ops := by
  refine (hpossible.and hlasts).imp_of_invariant (fun state => ∃ session, state = some session ∧
    session.Tracks env) ?_ ?_ ⟨_, rfl, tracks_new clock⟩
  · rintro _ op ⟨session, rfl, h⟩ ⟨hpossible, hlasts⟩
    obtain ⟨session', hstep, htracks, -⟩ := h.step (hpossible session rfl) (hlasts session rfl)
    exact ⟨session', hstep, htracks⟩
  · rintro _ op ⟨session, rfl, h⟩ ⟨hpossible, hlasts⟩
    obtain ⟨session', hstep, -, hexact⟩ := h.step (hpossible session rfl) (hlasts session rfl)
    exact ⟨session', hstep, hexact⟩

section Example

/-- Spells of category 5: one that is short, one that is long, and one that is not cast. -/
def flameShock : SpellInfo := ⟨8050, 10000, 5, 10000, false, false, true, 4⟩
def frostShock : SpellInfo := ⟨8056, 20000, 5, 20000, false, false, true, 16⟩
def earthShock : SpellInfo := ⟨8042, 10000, 5, 10000, false, false, true, 8⟩

/-- A shaman, without items. -/
def shamanEnv : Env :=
  ⟨fun id => [flameShock, frostShock, earthShock].find? (·.id = id), fun _ => none, true⟩

/-- A shock is saved and loaded again while it has a cooldown. -/
theorem exact_of_run_relog :
    Run.Along (sessionStep shamanEnv) (fun state op => ∃ session',
      sessionStep shamanEnv state op = some session' ∧
        ∀ now, op = .update now → session'.Exact shamanEnv now) (some (Session.new 0))
      [.startCooldown flameShock 0 0, .relog [⟨8050, 0, 10, 5, 10⟩], .update 4000, .update 11000] :=
  exact_of_run shamanEnv 0 _ (by decide) (by decide)

/-- **A category that is cut short**: when the short cooldown has ended its entry takes the category along,
though the long one, which was started later, has 14 seconds left. -/
theorem category_cut_short :
    ([SessionOp.startCooldown flameShock 0 0, .startCooldown frostShock 0 5000, .update 11000].foldl
      (sessionStep shamanEnv) (some (Session.new 0))).any (fun session =>
        !session.history.hasCooldown shamanEnv earthShock 0 &&
          (lastIn session.started 5).any fun start => start.categoryEnd = 25000) = true := by
  decide

end Example

end IscServer.Spells
