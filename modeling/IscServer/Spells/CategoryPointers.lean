import IscServer.Library.Run
import IscServer.Spells.SpellHistory

/-!
# Category Cooldown Pointers

An entry is overwritten in place, also with another category, and an entry that is erased takes only the
category that is written in it along. A pointer under a former category of the entry stays.

## Main results

* `Sound.write`, `Sound.point`, `Sound.erase` — what keeps the pointers in order.
* `noStale_of_run` — no pointer is stale while no operation overwrites an entry that is pointed to under a
  category by one of another category.
* `lockout_dangles` — a school lockout, after which the next `Update` follows a pointer to nothing.
-/

namespace IscServer.Spells

open List Keyed

variable {env : Env} {s : SpellHistory}

/-- **No pointer is stale**: each points to an entry of its category. -/
def SpellHistory.NoStale (s : SpellHistory) : Prop :=
  ∀ pair ∈ s.categoryCooldowns, ∃ slot ∈ s.spellCooldowns,
    slot.address = pair.2 ∧ slot.entry.categoryId = pair.1

instance (s : SpellHistory) : Decidable s.NoStale := by
  unfold SpellHistory.NoStale
  infer_instance

/-- **The invariant**. -/
structure Sound (s : SpellHistory) : Prop where
  keys : (s.spellCooldowns.map Slot.key).Nodup
  addresses : (s.spellCooldowns.map Slot.address).Nodup
  fresh : ∀ slot ∈ s.spellCooldowns, slot.address < s.addresses
  noStale : s.NoStale

/-- The entry of a spell, if there is one, is pointed to under no category other than this one. -/
def SpellHistory.PointedAs (s : SpellHistory) (spellId categoryId : ℕ) : Prop :=
  ∀ slot ∈ s.find spellId, ∀ pair ∈ s.categoryCooldowns, pair.2 = slot.address → pair.1 = categoryId

instance (s : SpellHistory) (spellId categoryId : ℕ) : Decidable (s.PointedAs spellId categoryId) := by
  unfold SpellHistory.PointedAs
  infer_instance

/-! ### Writing -/

theorem find_write (spellId : ℕ) (entry : CooldownEntry) :
    ∃ slot, (s.write spellId entry).find spellId = some slot ∧ slot.entry = entry := by
  rw [SpellHistory.write]
  cases hfind : s.find spellId with
  | none =>
    refine ⟨⟨spellId, s.addresses, entry⟩, ?_, rfl⟩
    have hnone : Keyed.find Slot.key s.spellCooldowns spellId = none := hfind
    rw [SpellHistory.find, find_append, hnone, find_cons, if_pos rfl]
    rfl
  | some slot =>
    refine ⟨{ slot with entry := entry }, ?_, rfl⟩
    have hkey : slot.key = spellId := key_of_find hfind
    subst hkey
    exact (@find_put_self _ _ Slot.key s.spellCooldowns { slot with entry := entry })
      (Option.ne_none_iff_exists'.mpr ⟨slot, hfind⟩)

/-- **An entry is overwritten** by one of the category under which it is pointed to. -/
theorem Sound.write (h : Sound s) {spellId : ℕ} {entry : CooldownEntry}
    (hpointed : s.PointedAs spellId entry.categoryId) : Sound (s.write spellId entry) := by
  rw [SpellHistory.write]
  cases hfind : s.find spellId with
  | none =>
    have hnew : ∀ slot ∈ s.spellCooldowns, slot.key ≠ spellId := find_eq_none_iff.mp hfind
    refine ⟨?_, ?_, fun slot hslot => ?_, fun pair hpair => ?_⟩
    · rw [map_append]
      refine nodup_append_comm.mp (nodup_cons.mpr ⟨fun hin => ?_, h.keys⟩)
      obtain ⟨slot, hslot, hkey⟩ := mem_map.mp hin
      exact hnew slot hslot hkey
    · rw [map_append]
      refine nodup_append_comm.mp (nodup_cons.mpr ⟨fun hin => ?_, h.addresses⟩)
      obtain ⟨slot, hslot, haddress⟩ := mem_map.mp hin
      exact Nat.lt_irrefl _ (haddress ▸ h.fresh slot hslot)
    · rcases mem_append.mp hslot with hslot | hslot
      · exact Nat.lt_succ_of_lt (h.fresh slot hslot)
      · rw [mem_singleton.mp hslot]
        exact Nat.lt_succ_self s.addresses
    · obtain ⟨slot, hslot, hlive⟩ := h.noStale pair hpair
      exact ⟨slot, mem_append_left _ hslot, hlive⟩
  | some old =>
    have hold := mem_of_find hfind
    refine ⟨?_, ?_, fun slot hslot => ?_, fun pair hpair => ?_⟩
    · rw [keys_put]
      exact h.keys
    · rw [map_put]
      · exact h.addresses
      · intro slot hslot hkey
        rw [eq_of_key h.keys hslot hold hkey]
    · rcases mem_put_iff.mp hslot with ⟨rfl, -⟩ | ⟨hslot, -⟩
      · exact h.fresh old hold
      · exact h.fresh slot hslot
    · obtain ⟨slot, hslot, haddress, hcategory⟩ := h.noStale pair hpair
      by_cases hkey : slot.key = old.key
      · have hsame := eq_of_key h.keys hslot hold hkey
        refine ⟨{ old with entry := entry },
          mem_put_iff.mpr (Or.inl ⟨rfl, mem_map.mpr ⟨old, hold, rfl⟩⟩), hsame ▸ haddress, ?_⟩
        exact (hpointed old hfind pair hpair (hsame ▸ haddress.symm)).symm
      · exact ⟨slot, mem_put_iff.mpr (Or.inr ⟨hslot, hkey⟩), haddress, hcategory⟩

/-- **A category points** to an entry of it. -/
theorem Sound.point (h : Sound s) {categoryId spellId : ℕ} {slot : Slot}
    (hfind : s.find spellId = some slot) (hcategory : slot.entry.categoryId = categoryId) :
    Sound (s.point categoryId spellId) := by
  rw [SpellHistory.point]
  by_cases hzero : categoryId = 0
  · rw [if_pos hzero]
    exact h
  · rw [if_neg hzero, hfind]
    refine ⟨h.keys, h.addresses, h.fresh, fun pair hpair => ?_⟩
    rcases mem_assign_iff.mp hpair with rfl | ⟨hpair, -⟩
    · exact ⟨slot, mem_of_find hfind, rfl, hcategory⟩
    · exact h.noStale pair hpair

/-- An entry is written, and its category points to it. -/
theorem Sound.writeAndPoint (h : Sound s) {spellId : ℕ} {entry : CooldownEntry}
    (hpointed : s.PointedAs spellId entry.categoryId) :
    Sound ((s.write spellId entry).point entry.categoryId spellId) := by
  obtain ⟨slot, hfind, hentry⟩ := @find_write s spellId entry
  exact (h.write hpointed).point hfind (congrArg CooldownEntry.categoryId hentry)

/-! ### Erasing -/

/-- The entries of a list are erased, and their categories. -/
theorem foldl_eraseCooldown (s : SpellHistory) (slots : List Slot) :
    slots.foldl SpellHistory.eraseCooldown s =
    { s with
      categoryCooldowns := s.categoryCooldowns.filter fun pair =>
        !(pair.1 ∈ slots.map fun slot => slot.entry.categoryId)
      spellCooldowns := s.spellCooldowns.filter fun other => !(other.key ∈ slots.map Slot.key) } := by
  induction slots generalizing s with
  | nil =>
    have hpairs : s.categoryCooldowns.filter (fun pair =>
        !(pair.1 ∈ ([] : List Slot).map fun slot => slot.entry.categoryId)) = s.categoryCooldowns :=
      filter_eq_self.mpr fun _ _ => by simp
    have hslots : s.spellCooldowns.filter (fun other => !(other.key ∈ ([] : List Slot).map Slot.key)) =
        s.spellCooldowns := filter_eq_self.mpr fun _ _ => by simp
    rw [hpairs, hslots]
    rfl
  | cons slot slots ih =>
    rw [foldl_cons, ih, SpellHistory.eraseCooldown]
    simp only [filter_filter]
    congr 1
    · refine filter_congr fun other _ => ?_
      simp only [map_cons, mem_cons, Bool.decide_or, Bool.not_or]
      exact Bool.and_comm _ _
    · refine filter_congr fun pair _ => ?_
      simp only [map_cons, mem_cons, Bool.decide_or, Bool.not_or]
      exact Bool.and_comm _ _

section

variable (h : Sound s)
include h

/-- **Entries are erased** with the categories that are written in them. -/
theorem Sound.erase {slots : List Slot} (hslots : ∀ slot ∈ slots, slot ∈ s.spellCooldowns) :
    Sound (slots.foldl SpellHistory.eraseCooldown s) := by
  rw [foldl_eraseCooldown]
  refine ⟨h.keys.sublist (filter_sublist.map _), h.addresses.sublist (filter_sublist.map _),
    fun slot hslot => h.fresh slot (mem_filter.mp hslot).1, fun pair hpair => ?_⟩
  obtain ⟨hpair, hkept⟩ := mem_filter.mp hpair
  obtain ⟨slot, hslot, haddress, hcategory⟩ := h.noStale pair hpair
  refine ⟨slot, mem_filter.mpr ⟨hslot, ?_⟩, haddress, hcategory⟩
  -- an entry that is erased takes its category along
  simp only [Bool.not_eq_eq_eq_not, Bool.not_true, decide_eq_false_iff_not] at hkept ⊢
  intro hin
  obtain ⟨other, hother, hkey⟩ := mem_map.mp hin
  have hsame := eq_of_key h.keys (hslots other hother) hslot hkey
  exact hkept (mem_map.mpr ⟨other, hother, by rw [hsame, hcategory]⟩)

theorem Sound.eraseCooldown {slot : Slot} (hslot : slot ∈ s.spellCooldowns) :
    Sound (s.eraseCooldown slot) :=
  (@Sound.erase s h [slot]) fun _ hother => mem_singleton.mp hother ▸ hslot

/-- Fewer pointers. -/
theorem Sound.filterCategories (keep : ℕ × ℕ → Bool) :
    Sound { s with categoryCooldowns := s.categoryCooldowns.filter keep } :=
  ⟨h.keys, h.addresses, h.fresh, fun pair hpair => h.noStale pair (mem_filter.mp hpair).1⟩

/-- A pointer that is not stale can be followed. -/
theorem Sound.deref {pair : ℕ × ℕ} (hpair : pair ∈ s.categoryCooldowns) :
    ∃ slot ∈ s.spellCooldowns, s.deref pair.2 = some slot.entry ∧ slot.address = pair.2 ∧
      slot.entry.categoryId = pair.1 := by
  obtain ⟨slot, hslot, haddress, hcategory⟩ := h.noStale pair hpair
  refine ⟨slot, hslot, ?_, haddress, hcategory⟩
  rw [SpellHistory.deref, ← haddress, find_of_mem h.addresses hslot]
  rfl

theorem Sound.expireCategories (now : ℤ) : s.expireCategories now =
    some { s with categoryCooldowns := s.categoryCooldowns.filter fun pair =>
      (s.deref pair.2).any fun entry => !(entry.categoryEnd < now) } := by
  refine if_pos (all_eq_true.mpr fun pair hpair => ?_)
  obtain ⟨slot, -, hderef, -⟩ := h.deref hpair
  rw [hderef]
  rfl

end

/-! ### Operations -/

/-- **The operation overwrites no entry** that is pointed to under a category by one of another category. -/
def Keeps (env : Env) (s : SpellHistory) : Op → Prop
  | .startCooldown spellInfo itemId mods onHold now =>
    ∀ ends ∈ startedEnds env spellInfo itemId mods onHold now, s.PointedAs spellInfo.id ends.2.1
  | .addCooldown spellId _ _ categoryId _ _ => s.PointedAs spellId categoryId
  | .lockSpellSchool knownSpells schoolMask lockoutTime now =>
    Run.Along (fun s spellInfo => (lockSpell schoolMask lockoutTime now s spellInfo).getD s)
      (fun s spellInfo => locks schoolMask lockoutTime now s spellInfo = some true →
        s.PointedAs spellInfo.id 0) s knownSpells
  | .loadFromDB rows =>
    Run.Along (loadRow env) (fun s row => (env.getSpellInfo row.spell).isSome →
      s.PointedAs row.spell row.categoryId) s rows
  | .restoreCooldownStateAfterDuel => env.isPlayer →
      Run.Along restoreOne (fun s before => restores s before → s.PointedAs before.1 before.2.categoryId)
        { s with spellCooldownsBeforeDuel := s.addLongCooldowns env } (s.addLongCooldowns env)
  | _ => True

instance (env : Env) (s : SpellHistory) (op : Op) : Decidable (Keeps env s op) := by
  cases op <;> unfold Keeps <;> infer_instance

section

variable (h : Sound s)
include h

theorem Sound.addCooldown {spellId itemId categoryId : ℕ} {cooldownEnd categoryEnd : ℤ}
    {onHold : Bool} (hpointed : s.PointedAs spellId categoryId) :
    Sound (s.addCooldown spellId itemId cooldownEnd categoryId categoryEnd onHold) :=
  (@Sound.writeAndPoint s h spellId ⟨spellId, cooldownEnd, itemId, categoryId, categoryEnd, onHold⟩) hpointed

theorem Sound.isSome_getRemainingCooldown (spellInfo : SpellInfo) (now : ℤ) :
    ∃ remaining, s.getRemainingCooldown spellInfo now = some remaining := by
  have hend : ∃ found, s.remainingEnd spellInfo = some found := by
    rw [SpellHistory.remainingEnd]
    cases s.find spellInfo.id with
    | some slot => exact ⟨_, rfl⟩
    | none =>
      cases hpair : Keyed.find Prod.fst s.categoryCooldowns spellInfo.category with
      | none => exact ⟨_, rfl⟩
      | some pair =>
        obtain ⟨slot, -, hderef, -⟩ := h.deref (mem_of_find hpair)
        exact ⟨_, congrArg (Option.map _) hderef⟩
  obtain ⟨found, hfound⟩ := hend
  exact ⟨_, congrArg (Option.map _) hfound⟩

variable {schoolMask lockoutTime : ℕ}

theorem Sound.lockSpell {now : ℤ} {spellInfo : SpellInfo}
    (hlocks : locks schoolMask lockoutTime now s spellInfo = some true → s.PointedAs spellInfo.id 0) :
    ∃ s', lockSpell schoolMask lockoutTime now s spellInfo = some s' ∧ Sound s' := by
  have hsome : ∃ lock, locks schoolMask lockoutTime now s spellInfo = some lock := by
    obtain ⟨remaining, hremaining⟩ := h.isSome_getRemainingCooldown spellInfo now
    rw [locks, hremaining]
    split_ifs
    · exact ⟨_, rfl⟩
    · exact ⟨_, rfl⟩
    · exact ⟨_, rfl⟩
  obtain ⟨lock, hlock⟩ := hsome
  rw [Spells.lockSpell, hlock]
  cases lock with
  | false => exact ⟨s, rfl, h⟩
  | true => exact ⟨_, rfl, h.addCooldown (hlocks hlock)⟩

/-- **A school lockout** that locks no spell to which a category points. -/
theorem Sound.lockSpellSchool {knownSpells : List SpellInfo}
    {now : ℤ} (hkeeps : Keeps env s (.lockSpellSchool knownSpells schoolMask lockoutTime now)) :
    ∃ s', s.lockSpellSchool knownSpells schoolMask lockoutTime now = some s' ∧ Sound s' := by
  rw [SpellHistory.lockSpellSchool]
  induction knownSpells generalizing s with
  | nil => exact ⟨s, rfl, h⟩
  | cons spellInfo knownSpells ih =>
    obtain ⟨hfirst, hrest⟩ := hkeeps
    obtain ⟨s', hs', hsound⟩ := h.lockSpell hfirst
    dsimp only at hrest
    rw [hs', Option.getD_some] at hrest
    obtain ⟨s'', hs'', hsound'⟩ := ih hsound hrest
    exact ⟨s'', by rw [foldlM_cons, hs']; exact hs'', hsound'⟩

theorem Sound.loadRow {row : CooldownRow}
    (hpointed : (env.getSpellInfo row.spell).isSome → s.PointedAs row.spell row.categoryId) :
    Sound (loadRow env s row) := by
  rw [Spells.loadRow]
  by_cases hnone : (env.getSpellInfo row.spell).isNone = true
  · rw [if_pos hnone]
    exact h
  · rw [if_neg hnone]
    have hsome : (env.getSpellInfo row.spell).isSome = true := by
      cases hinfo : env.getSpellInfo row.spell with
      | none => exact absurd (by rw [hinfo]; rfl) hnone
      | some _ => rfl
    exact (@Sound.writeAndPoint s h row.spell (readCooldown row)) (hpointed hsome)

theorem Sound.restoreOne {before : ℕ × CooldownEntry}
    (hpointed : restores s before → s.PointedAs before.1 before.2.categoryId) :
    Sound (restoreOne s before) := by
  rw [Spells.restoreOne]
  by_cases hrestores : restores s before = true
  · rw [if_pos hrestores]
    exact h.write (hpointed hrestores)
  · rw [if_neg hrestores]
    exact h

/-- **One operation**. -/
theorem Sound.step {op : Op} (hkeeps : Keeps env s op) :
    ∃ s', s.step env op = some s' ∧ Sound s' := by
  cases op with
  | startCooldown spellInfo itemId mods onHold now =>
    refine ⟨_, rfl, ?_⟩
    rw [SpellHistory.startCooldown]
    cases hends : startedEnds env spellInfo itemId mods onHold now with
    | none => exact h
    | some ends => exact h.addCooldown (hkeeps ends hends)
  | addCooldown spellId itemId cooldownEnd categoryId categoryEnd onHold =>
    exact ⟨_, rfl, h.addCooldown hkeeps⟩
  | modifyCooldown spellId cooldownModMs now =>
    refine ⟨_, rfl, ?_⟩
    rw [SpellHistory.modifyCooldown]
    cases hfind : s.find spellId with
    | none => exact h
    | some slot =>
      dsimp only
      split_ifs
      · exact h
      · refine h.write fun other hother pair hpair haddress => ?_
        have hsame : other = slot := Option.some.inj (hother.symm.trans hfind)
        obtain ⟨live, hlive, hlast, hcategory⟩ := h.noStale pair hpair
        have heq : live = slot := eq_of_key h.addresses hlive (mem_of_find hfind)
          (by rw [hlast, haddress, hsame])
        rw [← hcategory, heq]
      · exact h.eraseCooldown (mem_of_find hfind)
  | resetCooldown spellId =>
    refine ⟨_, rfl, ?_⟩
    rw [SpellHistory.resetCooldown]
    cases hfind : s.find spellId with
    | none => exact h
    | some slot => exact h.eraseCooldown (mem_of_find hfind)
  | resetCooldowns predicate =>
    exact ⟨_, rfl, h.erase fun slot hslot => (mem_filter.mp hslot).1⟩
  | resetAllCooldowns =>
    exact ⟨_, rfl, nodup_nil, nodup_nil, fun _ hslot => (by cases hslot),
      fun _ hpair => (by cases hpair)⟩
  | lockSpellSchool knownSpells schoolMask lockoutTime now => exact h.lockSpellSchool hkeeps
  | update now =>
    rw [SpellHistory.step, SpellHistory.update, h.expireCategories]
    exact ⟨_, rfl, (h.filterCategories _).erase fun slot hslot => (mem_filter.mp hslot).1⟩
  | loadFromDB rows =>
    exact ⟨_, rfl, Run.Along.invariant Sound (fun s row h hpointed => h.loadRow hpointed) h hkeeps⟩
  | saveCooldownStateBeforeDuel => exact ⟨_, rfl, h.keys, h.addresses, h.fresh, h.noStale⟩
  | restoreCooldownStateAfterDuel =>
    refine ⟨_, rfl, ?_⟩
    rw [SpellHistory.restoreCooldownStateAfterDuel]
    by_cases hplayer : env.isPlayer = true
    · rw [if_pos hplayer]
      exact Run.Along.invariant Sound (fun s before h hpointed => h.restoreOne hpointed)
        ⟨h.keys, h.addresses, h.fresh, h.noStale⟩ (hkeeps hplayer)
    · rw [if_neg hplayer]
      exact h

end

/-! ### Runs -/

theorem sound_new : Sound SpellHistory.new :=
  ⟨nodup_nil, nodup_nil, fun _ hslot => (by cases hslot), fun _ hpair => (by cases hpair)⟩

/-- One operation of a history that has not followed a pointer to nothing. -/
def step (env : Env) (s : Option SpellHistory) (op : Op) : Option SpellHistory := s.bind (·.step env op)

/-- **Category cooldown pointers are never stale** in a run in which no operation overwrites an entry that
is pointed to under a category by one of another category. -/
theorem noStale_of_run (env : Env) (s : SpellHistory) (h : Sound s) (ops : List Op)
    (hops : Run.Along (step env) (fun state op => ∀ s ∈ state, Keeps env s op) (some s) ops) :
    Run.Along (step env) (fun s op => ∃ s', step env s op = some s' ∧ s'.NoStale) (some s) ops := by
  refine hops.imp_of_invariant (fun s => ∃ s', s = some s' ∧ Sound s') ?_ ?_ ⟨s, rfl, h⟩
  · rintro _ op ⟨s, rfl, h⟩ hkeeps
    exact h.step (hkeeps s rfl)
  · rintro _ op ⟨s, rfl, h⟩ hkeeps
    obtain ⟨s', hstep, hsound⟩ := h.step (hkeeps s rfl)
    exact ⟨s', hstep, hsound.noStale⟩

section Example

/-- A spell of category 5 that a silence can lock. -/
def frostNova : SpellInfo := ⟨122, 1000, 5, 1000, false, false, true, 16⟩

/-- A player, without items. -/
def plainEnv : Env := ⟨fun id => if id = 122 then some frostNova else none, fun _ => none, true⟩

/-- The spell is cast again when its cooldown has ended. -/
theorem noStale_of_run_recast :
    Run.Along (step plainEnv) (fun s op => ∃ s', step plainEnv s op = some s' ∧ s'.NoStale)
      (some SpellHistory.new) [.startCooldown frostNova 0 ⟨none, 0⟩ false 0, .update 500, .update 1500,
        .startCooldown frostNova 0 ⟨none, 0⟩ false 1600] :=
  noStale_of_run plainEnv SpellHistory.new sound_new _ (by decide)

/-- **A pointer to nothing**: the school of the spell is locked, so that its entry has no category; when the
cooldown is reset, the pointer of category 5 stays, and the next `Update` follows it. -/
theorem lockout_dangles :
    ((step plainEnv (step plainEnv (some SpellHistory.new) (.startCooldown frostNova 0 ⟨none, 0⟩ false 0))
      (.lockSpellSchool [frostNova] 16 4000 0)).any fun s => !decide s.NoStale) = true ∧
    [Op.startCooldown frostNova 0 ⟨none, 0⟩ false 0, .lockSpellSchool [frostNova] 16 4000 0,
      .resetCooldown 122, .update 0].foldl (step plainEnv) (some SpellHistory.new) = none := by
  decide

end Example

end IscServer.Spells
