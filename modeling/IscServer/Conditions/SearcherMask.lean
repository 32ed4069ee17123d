import IscServer.Conditions.ConditionMask

/-!
# The Search Mask of a List of Conditions

A grid search visits only the containers whose bits are in the mask of its conditions. The mask of a
list is found by the same walk as its evaluation: the masks of an else-group are intersected, those of
different else-groups joined, and a reference counts with the mask of its list.

The mask speaks about the searched object, which is target 0 of the source info, but a condition may be
about another target: a spell condition on its caster constrains the caster, and the mask takes it for
a constraint on the targets. So the mask hides an accepted target exactly when each else-group has a
condition that is not negated, whose type excludes the object, and that looks elsewhere or fails
(`searcherTypeMask_hides_nothing_iff`). Lists of conditions on the searched object are safe
(`inMask_of_own_target`).

## Main definitions

* `SomeGroup` — some else-group has conditions of a kind only, down the references.
* `Handled` — the mask loop reaches no condition without a mask.

## Main results

* `someGroup_of_meets` — what a list that is met tells.
* `maskSpec` — what the mask of a list is.
* `searcherTypeMask_hides_nothing_iff` — when restricting a search to the mask loses no target.
-/

namespace IscServer.Conditions

open List

variable {Object Map : Type} [DecidableEq Object]

/-! ### Else-groups -/

variable {lookup : Condition → Bool} (store : ConditionReferenceStore lookup)

/-- Some else-group of the list has conditions with the property only; a reference counts as the list
it names, and an empty list makes no demand. -/
inductive SomeGroup (P : Condition → Prop) : List Condition → Prop
  | empty : SomeGroup P []
  | group {conditions : List Condition} (g : ℕ) (hg : g ∈ conditions.map Condition.elseGroup)
      (hown : ∀ c ∈ conditions, c.elseGroup = g → c.referenceId = 0 → P c)
      (hreference : ∀ c ∈ conditions, c.elseGroup = g → c.referenceId ≠ 0 →
        ∀ ref, store.find c.referenceId = some ref → SomeGroup P ref) :
      SomeGroup P conditions

/-- The property for one entry of a list. -/
def EntryHas (P : Condition → Prop) (c : Condition) : Prop :=
  (c.referenceId = 0 → P c) ∧
    (c.referenceId ≠ 0 → ∀ ref, store.find c.referenceId = some ref → SomeGroup store P ref)

variable {store} {P Q : Condition → Prop} {conditions : List Condition}

theorem someGroup_iff : SomeGroup store P conditions ↔ conditions = [] ∨
    ∃ g ∈ conditions.map Condition.elseGroup,
      ∀ c ∈ conditions, c.elseGroup = g → EntryHas store P c := by
  constructor
  · rintro (_ | ⟨g, hg, hown, hreference⟩)
    · exact Or.inl rfl
    · exact Or.inr ⟨g, hg, fun c hc hgroup => ⟨hown c hc hgroup, hreference c hc hgroup⟩⟩
  · rintro (rfl | ⟨g, hg, h⟩)
    · exact .empty
    · exact .group g hg (fun c hc hgroup => (h c hc hgroup).1) fun c hc hgroup => (h c hc hgroup).2

/-- A condition of the list or of one kept in the store. -/
def InLists (store : ConditionReferenceStore lookup) (conditions : List Condition) (c : Condition) :
    Prop :=
  c ∈ conditions ∨ ∃ id ref, store.find id = some ref ∧ c ∈ ref

/-- A property that gives another gives it for some else-group too. -/
theorem SomeGroup.imp (h : SomeGroup store P conditions)
    (himp : ∀ c, InLists store conditions c → c.referenceId = 0 → P c → Q c) :
    SomeGroup store Q conditions := by
  induction h with
  | empty => exact .empty
  | @group conditions g hg hown _ ih =>
    refine .group g hg (fun c hc hgroup href => ?_) fun c hc hgroup href ref hfind => ?_
    · exact himp c (Or.inl hc) href (hown c hc hgroup href)
    · refine ih c hc hgroup href ref hfind fun d hd => himp d ?_
      rcases hd with hd | hd
      · exact Or.inr ⟨_, ref, hfind, hd⟩
      · exact Or.inr hd

/-! ### A list that is met -/

variable {c : Condition}

theorem isLoaded_of_loaded (hloaded : Loaded lookup conditions) (hc : c ∈ conditions) :
    c.isLoaded = true := by
  by_cases href : c.referenceId = 0
  · have hvalid := hloaded c hc href
    rw [Condition.isConditionTypeValid] at hvalid
    by_cases htype : c.conditionType = .none
    · simp [htype] at hvalid
    · simp [Condition.isLoaded, htype]
  · simp [Condition.isLoaded, href]

/-! ### The mask of a list -/

/-- The masks of the else-groups are joined. -/
theorem testBit_foldl_or {K : Type} (masks : List (K × ℕ)) (mask i : ℕ) :
    (masks.foldl (fun mask e => mask ||| e.2) mask).testBit i = true ↔
      mask.testBit i = true ∨ ∃ e ∈ masks, e.2.testBit i = true := by
  induction masks generalizing mask with
  | nil => simp
  | cons e masks ih =>
    rw [foldl_cons, ih, Nat.testBit_or, Bool.or_eq_true]
    simp only [mem_cons, exists_eq_or_imp, or_assoc]

section Group

variable {leaf : Condition → Option ℕ} {Fits : TypeID → Condition → Prop} {items : List Condition}

/-- Some type of objects fits all conditions of a group before this one. -/
def Reached (Fits : TypeID → Condition → Prop) (items : List Condition) (c : Condition) : Prop :=
  ∃ pre post, items = pre ++ c :: post ∧ ∃ t, ∀ d ∈ pre, Fits t d

variable {c : Condition}

theorem mem_of_reached (h : Reached Fits items c) : c ∈ items := by
  obtain ⟨pre, post, rfl, -⟩ := h
  exact mem_append_right _ mem_cons_self

theorem reached_append_singleton {x : Condition} : Reached Fits (items ++ [x]) c ↔
    Reached Fits items c ∨ (c = x ∧ ∃ t, ∀ d ∈ items, Fits t d) := by
  constructor
  · rintro ⟨pre, post, hsplit, hpre⟩
    rcases eq_nil_or_concat post with rfl | ⟨post, y, rfl⟩
    · obtain ⟨rfl, hx⟩ := append_inj' hsplit rfl
      exact Or.inr ⟨by simpa using hx.symm, hpre⟩
    · rw [concat_eq_append, ← cons_append, ← append_assoc] at hsplit
      obtain ⟨rfl, -⟩ := append_inj' hsplit rfl
      exact Or.inl ⟨pre, post, rfl, hpre⟩
  · rintro (⟨pre, post, rfl, hpre⟩ | ⟨rfl, hitems⟩)
    · exact ⟨pre, post ++ [x], by simp, hpre⟩
    · exact ⟨items, [], rfl, hitems⟩

theorem IsMask.and {m m' : ℕ} {S S' : TypeID → Prop} (h : IsMask m S) (h' : IsMask m' S') :
    IsMask (m &&& m') fun t => S t ∧ S' t := by
  refine ⟨fun i hi => ?_, fun t => ?_⟩
  · rw [Nat.testBit_and, Bool.and_eq_true] at hi
    exact h.1 i hi.1
  · rw [Nat.testBit_and, Bool.and_eq_true, h.2 t, h'.2 t]

/-- **The mask of a group** has the bits of the types that fit all its conditions, and it is there when
every condition that is reached has a mask. -/
theorem alone_mask (hleaf : ∀ c ∈ items, ∀ mask, leaf c = some mask →
      IsMask mask fun t => Fits t c) :
    (∃ mask, Grouped.alone gridMapTypeMaskAll (· == 0) (fun mask c => (leaf c).map (mask &&& ·))
          items = some mask ∧ (IsMask mask fun t => ∀ c ∈ items, Fits t c) ∧
        ∀ c, Reached Fits items c → leaf c ≠ none) ∨
      (Grouped.alone gridMapTypeMaskAll (· == 0) (fun mask c => (leaf c).map (mask &&& ·))
          items = none ∧ ∃ c, Reached Fits items c ∧ leaf c = none) := by
  induction items using List.reverseRecOn with
  | nil =>
    refine Or.inl ⟨gridMapTypeMaskAll, rfl, ?_, ?_⟩
    · simpa using isMask_all
    · rintro c ⟨pre, post, hsplit, -⟩
      simp at hsplit
  | append_singleton items x ih =>
    rw [Grouped.alone_append_singleton]
    rcases ih fun c hc => hleaf c (mem_append_left _ hc) with
      ⟨mask, halone, hmask, hreached⟩ | ⟨halone, c, hreached, hc⟩
    · rw [halone, Option.bind_some, Grouped.stepAlone]
      by_cases hzero : mask = 0
      · -- an empty mask: no type fits the items, and the new one is not looked at
        have hnone : ¬∃ t, ∀ d ∈ items, Fits t d := by
          rintro ⟨t, ht⟩
          have hbit := (hmask.2 t).mpr ht
          rw [hzero, Nat.zero_testBit] at hbit
          cases hbit
        refine Or.inl ⟨mask, by simp [hzero], ⟨hmask.1, fun t => ?_⟩, fun c hc => ?_⟩
        · rw [hmask.2 t]
          exact ⟨fun h => absurd ⟨t, h⟩ hnone, fun h c hc => h c (mem_append_left _ hc)⟩
        · rcases reached_append_singleton.mp hc with hc | ⟨-, hitems⟩
          · exact hreached c hc
          · exact absurd hitems hnone
      · have hopen : ∃ t, ∀ d ∈ items, Fits t d := by
          by_contra hnone
          refine hzero ((eq_zero_iff hmask.1).mpr fun t => ?_)
          rw [Bool.eq_false_iff]
          exact fun hbit => hnone ⟨t, (hmask.2 t).mp hbit⟩
        rw [if_neg (by simpa using hzero)]
        cases hx : leaf x with
        | none => exact Or.inr ⟨rfl, x, reached_append_singleton.mpr (Or.inr ⟨rfl, hopen⟩), hx⟩
        | some mask' =>
          refine Or.inl ⟨mask &&& mask', rfl, ?_, fun c hc => ?_⟩
          · have hand := hmask.and (hleaf x (by simp) mask' hx)
            refine ⟨hand.1, fun t => (hand.2 t).trans ?_⟩
            simp only [mem_append, mem_singleton, or_imp, forall_and, forall_eq]
          · rcases reached_append_singleton.mp hc with hc | ⟨rfl, -⟩
            · exact hreached c hc
            · rw [hx]
              exact Option.some_ne_none mask'
    · rw [halone]
      exact Or.inr ⟨rfl, c, reached_append_singleton.mpr (Or.inl hreached), hc⟩

/-- **The masks of all else-groups**, joined: the bits are those of the types that fit all conditions of
some else-group, and the loop ends when every condition it reaches has a mask. -/
theorem groups_mask {handled : Condition → Prop} {conditions : List Condition}
    (hentry : ∀ c ∈ conditions, Masks (leaf c) (handled c) fun t => Fits t c) :
    Masks ((Grouped.groups Condition.elseGroup gridMapTypeMaskAll (· == 0)
          (fun mask c => (leaf c).map (mask &&& ·)) conditions).map
          fun masks => masks.foldl (fun mask e => mask ||| e.2) 0)
      (∀ c, Reached Fits (Grouped.only Condition.elseGroup c.elseGroup conditions) c → handled c)
      fun t => ∃ g ∈ conditions.map Condition.elseGroup,
        ∀ c ∈ conditions, c.elseGroup = g → Fits t c := by
  have hnone : ∀ c ∈ conditions, leaf c = none ↔ ¬handled c := by
    intro c hc
    rcases hentry c hc with ⟨hhandled, mask, hmask, -⟩ | ⟨hhandled, hmask⟩
    · simp [hhandled, hmask]
    · simp [hhandled, hmask]
  have halone (g : ℕ) := @alone_mask leaf Fits (Grouped.only Condition.elseGroup g conditions)
    fun c hc mask hmask => by
      rcases hentry c (Grouped.mem_only.mp hc).1 with ⟨-, mask', hmask', his⟩ | ⟨-, hnone⟩
      · obtain rfl : mask' = mask := Option.some.inj (hmask'.symm.trans hmask)
        exact his
      · rw [hnone] at hmask
        cases hmask
  cases hgroups : Grouped.groups Condition.elseGroup gridMapTypeMaskAll (· == 0)
    (fun mask c => (leaf c).map (mask &&& ·)) conditions with
  | none =>
    obtain ⟨g, hg⟩ := (Grouped.groups_eq_none_iff rfl).mp hgroups
    refine Or.inr ⟨fun hhandled => ?_, rfl⟩
    rcases halone g with ⟨mask, hmask, -⟩ | ⟨-, c, hreached, hc⟩
    · rw [hg] at hmask
      cases hmask
    · obtain ⟨hmem, rfl⟩ := Grouped.mem_only.mp (mem_of_reached hreached)
      exact (hnone c hmem).mp hc (hhandled c hreached)
  | some masks =>
    have hmem {g mask : ℕ} := Grouped.mem_groups_iff (k := g) (v := mask) rfl hgroups
    have hfound : ∀ g ∈ conditions.map Condition.elseGroup, ∃ mask, (g, mask) ∈ masks := by
      intro g hg
      rcases halone g with ⟨mask, hmask, -⟩ | ⟨hmask, -⟩
      · exact ⟨mask, hmem.mpr ⟨hg, hmask⟩⟩
      · have := (Grouped.groups_eq_none_iff rfl).mpr ⟨g, hmask⟩
        rw [hgroups] at this
        cases this
    have hgroup : ∀ {g mask : ℕ}, (g, mask) ∈ masks →
        (IsMask mask fun t => ∀ c ∈ conditions, c.elseGroup = g → Fits t c) ∧
          ∀ c, Reached Fits (Grouped.only Condition.elseGroup g conditions) c → leaf c ≠ none := by
      intro g mask he
      obtain ⟨-, hmask⟩ := hmem.mp he
      rcases halone g with ⟨mask', hmask', his, hreached⟩ | ⟨hmask', -⟩
      · obtain rfl : mask' = mask := Option.some.inj (hmask'.symm.trans hmask)
        exact ⟨by simpa only [Grouped.mem_only, and_imp] using his, hreached⟩
      · rw [hmask'] at hmask
        cases hmask
    refine Or.inl ⟨fun c hc => ?_, _, rfl, fun i hi => ?_, fun t => ?_⟩
    · have hmemc := (Grouped.mem_only.mp (mem_of_reached hc)).1
      obtain ⟨mask, he⟩ := hfound c.elseGroup (mem_map_of_mem hmemc)
      by_contra hhandled
      exact (hgroup he).2 c hc ((hnone c hmemc).mpr hhandled)
    · rcases (testBit_foldl_or _ _ _).mp hi with hi | ⟨⟨g, mask⟩, he, hi⟩
      · simp at hi
      · exact (hgroup he).1.1 i hi
    · rw [testBit_foldl_or]
      constructor
      · rintro (hbit | ⟨⟨g, mask⟩, he, hbit⟩)
        · simp at hbit
        · exact ⟨g, (hmem.mp he).1, ((hgroup he).1.2 t).mp hbit⟩
      · rintro ⟨g, hg, h⟩
        obtain ⟨mask, he⟩ := hfound g hg
        exact Or.inr ⟨(g, mask), he, ((hgroup he).1.2 t).mpr h⟩

end Group

/-- The condition is reached in its list: some type of objects suits all conditions of its else-group
before it. -/
def Reaches (store : ConditionReferenceStore lookup) (conditions : List Condition) (c : Condition) :
    Prop :=
  Reached (fun t => EntryHas store fun d => d.suits t = true)
    (Grouped.only Condition.elseGroup c.elseGroup conditions) c

/-- Every condition that is reached has a mask: it is of a type the mask knows, or a reference to a list
that exists and of which the same is true. -/
inductive Handled (store : ConditionReferenceStore lookup) : List Condition → Prop
  | intro {conditions : List Condition}
      (hown : ∀ c, Reaches store conditions c → c.referenceId = 0 → c.HasMask)
      (hexists : ∀ c, Reaches store conditions c → c.referenceId ≠ 0 →
        store.find c.referenceId ≠ none)
      (hreference : ∀ c, Reaches store conditions c → c.referenceId ≠ 0 →
        ∀ ref, store.find c.referenceId = some ref → Handled store ref) :
      Handled store conditions

/-- A condition that is reached is one of its list. -/
theorem mem_of_reaches (h : Reaches store conditions c) : c ∈ conditions :=
  (Grouped.mem_only.mp (mem_of_reached h)).1

/-- An entry has a mask, for a reference that of its list. -/
def EntryHandled (store : ConditionReferenceStore lookup) (c : Condition) : Prop :=
  (c.referenceId = 0 → c.HasMask) ∧
    (c.referenceId ≠ 0 → ∃ ref, store.find c.referenceId = some ref ∧ Handled store ref)

theorem handled_iff : Handled store conditions ↔
    ∀ c, Reaches store conditions c → EntryHandled store c := by
  constructor
  · rintro ⟨hown, hexists, hreference⟩ c hc
    refine ⟨hown c hc, fun href => ?_⟩
    obtain ⟨ref, hfind⟩ := Option.ne_none_iff_exists'.mp (hexists c hc href)
    exact ⟨ref, hfind, hreference c hc href ref hfind⟩
  · intro h
    refine .intro (fun c hc => (h c hc).1) (fun c hc href => ?_) fun c hc href ref hfind => ?_
    · obtain ⟨ref, hfind, -⟩ := (h c hc).2 href
      rw [hfind]
      exact Option.some_ne_none ref
    · obtain ⟨ref', hfind', hhandled⟩ := (h c hc).2 href
      obtain rfl : ref' = ref := Option.some.inj (hfind'.symm.trans hfind)
      exact hhandled

/-- What the mask of a list is. -/
def MaskSpec (store : ConditionReferenceStore lookup) (conditions : List Condition) : Prop :=
  Masks (getSearcherTypeMaskForConditionList store conditions) (Handled store conditions)
    fun t => SomeGroup store (fun c => c.suits t = true) conditions

/-- The mask of one entry, when the masks of the lists it refers to are known. -/
theorem maskEntry_spec (hvalid : c.referenceId = 0 → c.isConditionTypeValid lookup = true)
    (href : c.referenceId ≠ 0 → ∀ ref, store.find c.referenceId = some ref → MaskSpec store ref) :
    Masks (maskEntry (getSearcherTypeMaskForReference store) c) (EntryHandled store c)
      fun t => EntryHas store (fun d => d.suits t = true) c := by
  by_cases hzero : c.referenceId = 0
  · simp only [EntryHandled, EntryHas, maskEntry, hzero, ne_eq, not_true_eq_false, forall_const, false_implies, and_true]
    exact Condition.getSearcherTypeMask_spec (hvalid hzero)
  · simp only [EntryHandled, EntryHas, maskEntry, hzero, ne_eq, not_false_eq_true, false_implies, forall_const, true_and, getSearcherTypeMaskForReference_eq]
    cases hfind : store.find c.referenceId with
    | none => exact Or.inr ⟨by simp, rfl⟩
    | some ref =>
      simp only [Option.some.injEq, exists_eq_left', forall_eq']
      exact href hzero ref hfind

/-- **The mask of a list** has the bits of the types that suit all conditions of some else-group, and it
is there exactly when every condition that is reached has a mask. -/
theorem maskSpec (hloaded : Loaded lookup conditions) : MaskSpec store conditions := by
  revert hloaded
  refine store.induction (P := fun conditions => Loaded lookup conditions → MaskSpec store conditions)
    ?_ conditions
  intro conditions ih hloaded
  by_cases hnil : conditions = []
  · subst hnil
    refine Or.inl ⟨handled_iff.mpr fun c hc => absurd (mem_of_reaches hc) List.not_mem_nil, ?_⟩
    refine ⟨gridMapTypeMaskAll, rfl, ?_⟩
    have hempty (t : TypeID) : SomeGroup store (fun c => c.suits t = true) [] := .empty
    simpa [hempty] using isMask_all
  · have hentry : ∀ c ∈ conditions, _ := fun c hc => @maskEntry_spec lookup store c (hloaded c hc)
      fun href ref hfind => ih _ (mem_referencesOf hc href) ref hfind (store.loaded hfind)
    have hgroups := groups_mask hentry
    simp only [MaskSpec, getSearcherTypeMaskForConditionList, searcherTypeMaskWith, handled_iff,
      someGroup_iff, List.isEmpty_iff, hnil, false_or]
    rw [if_pos (List.all_eq_true.mpr fun c hc => isLoaded_of_loaded hloaded hc)]
    exact hgroups

/-! ### The search -/

/-- The condition leaves room for the object: objects of its type can meet the condition, or the
condition is about this object and met. -/
def Condition.Admits (w : World Object Map) (sourceInfo : ConditionSourceInfo Object Map)
    (object : Object) (c : Condition) : Prop :=
  c.suits (w.getTypeId object) = true ∨ (c.conditionTarget = 0 ∧ c.meets w sourceInfo = true)

/-- A grid search for the objects that meet a list, in the containers of its mask. -/
def searchTargets (store : ConditionReferenceStore lookup) (w : World Object Map)
    (sourceInfo : Object → ConditionSourceInfo Object Map) (conditions : List Condition)
    (objects : List Object) : Option (List Object) :=
  (getSearcherTypeMaskForConditionList store conditions).map fun mask => objects.filter fun object =>
    (mask &&& (w.getTypeId object).gridMapTypeMask) != 0 &&
      isObjectMeetToConditions store w (sourceInfo object) conditions

variable {w : World Object Map} {sourceInfo : ConditionSourceInfo Object Map} {object : Object}

/-- An else-group that leaves room for the object is one that objects of its type can meet. -/
theorem someGroup_admits_iff (htarget : sourceInfo.conditionTargets 0 = some object) :
    SomeGroup store (Condition.Admits w sourceInfo object) conditions ↔
      SomeGroup store (fun c => c.suits (w.getTypeId object) = true) conditions := by
  constructor
  · intro h
    refine h.imp fun c _ _ hadmits => ?_
    rcases hadmits with hsuits | ⟨hown, hmeets⟩
    · exact hsuits
    · exact Condition.suits_of_meets htarget hown hmeets
  · exact fun h => h.imp fun c _ _ hsuits => Or.inl hsuits

/-- The bit of the object's type is in the mask of the list. -/
def InMask (store : ConditionReferenceStore lookup) (w : World Object Map)
    (conditions : List Condition) (object : Object) : Prop :=
  ∃ mask, getSearcherTypeMaskForConditionList store conditions = some mask ∧
    (mask &&& (w.getTypeId object).gridMapTypeMask) ≠ 0

theorem inMask_iff (hloaded : Loaded lookup conditions)
    (htarget : sourceInfo.conditionTargets 0 = some object) :
    InMask store w conditions object ↔ Handled store conditions ∧
      SomeGroup store (Condition.Admits w sourceInfo object) conditions := by
  rw [someGroup_admits_iff htarget, InMask]
  rcases @maskSpec lookup store conditions hloaded with ⟨hhandled, mask, hmask, his⟩ | ⟨hhandled, hmask⟩
  · simp only [hmask, hhandled, Option.some.injEq, exists_eq_left', true_and,
      and_gridMapTypeMask_ne_zero_iff]
    exact his.2 _
  · simp [hmask, hhandled]

/-- **When the mask hides no target**: a list that accepts the object has the object's type in its mask
exactly when every condition the mask loop reaches has a mask and some else-group leaves room for the
object; and so for the targets of a grid search. -/
theorem searcherTypeMask_hides_nothing_iff (hloaded : Loaded lookup conditions) :
    (∀ (sourceInfo : ConditionSourceInfo Object Map) (object : Object),
      sourceInfo.conditionTargets 0 = some object →
        ((isObjectMeetToConditions store w sourceInfo conditions = true →
            InMask store w conditions object) ↔
          (isObjectMeetToConditions store w sourceInfo conditions = true →
            Handled store conditions ∧
              SomeGroup store (Condition.Admits w sourceInfo object) conditions))) ∧
      ∀ (sourceInfo : Object → ConditionSourceInfo Object Map) (objects : List Object),
        (∀ object, (sourceInfo object).conditionTargets 0 = some object) →
          (searchTargets store w sourceInfo conditions objects = some (objects.filter fun object =>
              isObjectMeetToConditions store w (sourceInfo object) conditions) ↔
            Handled store conditions ∧ ∀ object ∈ objects,
              isObjectMeetToConditions store w (sourceInfo object) conditions = true →
                SomeGroup store (Condition.Admits w (sourceInfo object) object) conditions) := by
  refine ⟨fun sourceInfo object htarget => ?_, fun sourceInfo objects htarget => ?_⟩
  · rw [inMask_iff hloaded htarget]
  · rw [searchTargets]
    rcases @maskSpec lookup store conditions hloaded with ⟨hhandled, mask, hmask, his⟩ | ⟨hhandled, hmask⟩
    · simp only [hmask, hhandled, Option.map_some, Option.some.injEq, true_and,
        someGroup_admits_iff (htarget _), ← his.2, ← and_gridMapTypeMask_ne_zero_iff]
      constructor
      · intro heq object hobject hmeets
        have hmem : object ∈ objects.filter fun object =>
            isObjectMeetToConditions store w (sourceInfo object) conditions :=
          mem_filter.mpr ⟨hobject, hmeets⟩
        rw [← heq, mem_filter, Bool.and_eq_true, bne_iff_ne] at hmem
        exact hmem.2.1
      · intro h
        refine filter_congr fun object hobject => ?_
        cases hmeets : isObjectMeetToConditions store w (sourceInfo object) conditions with
        | false => simp
        | true => simpa using h object hobject hmeets
    · simp [hmask, hhandled]

/-! ### A caster who is alive -/

/-- A chest and a creature. -/
def chestWorld : World ℕ Unit :=
  { (default : World ℕ Unit) with
    getTypeId := fun o => if o = 0 then .gameobject else .unit
    isAlive := fun _ => true
    onConditionCheck := fun _ _ => true }

/-- A spell condition on its second target, the caster. -/
def casterAlive : List Condition :=
  [{ sourceType := .spellImplicitTarget, conditionType := .alive, conditionTarget := 1 }]

/-- No lists are kept by number. -/
def noReferences : ConditionReferenceStore fun _ => true where
  find _ := none
  rank _ := 0
  descends h := nomatch h
  loaded h := nomatch h
  ne_nil h := nomatch h

/-- The creature casts, and the object is looked at as a target. -/
def castByCreature (object : ℕ) : ConditionSourceInfo ℕ Unit where
  conditionTargets i := if i = 0 then some object else if i = 1 then some 1 else none
  conditionMap := ()

theorem casterAlive_loaded : Loaded (fun _ => true) casterAlive := by
  intro c hc _
  obtain rfl := mem_singleton.mp hc
  rfl

/-- The chest is an accepted target of a living caster, and the mask leaves gameobjects out. -/
theorem accepted_chest_hidden :
    (castByCreature 0).conditionTargets 0 = some 0 ∧
      isObjectMeetToConditions noReferences chestWorld (castByCreature 0) casterAlive = true ∧
      ¬InMask noReferences chestWorld casterAlive 0 := by
  refine ⟨rfl, rfl, ?_⟩
  rintro ⟨mask, hmask, hbit⟩
  have hmask' : getSearcherTypeMaskForConditionList noReferences casterAlive = some 0x12 := rfl
  obtain rfl : 0x12 = mask := Option.some.inj (hmask'.symm.trans hmask)
  exact hbit rfl

theorem searcherTypeMask_hides_nothing_iff_casterAlive :
    (isObjectMeetToConditions noReferences chestWorld (castByCreature 1) casterAlive = true →
        InMask noReferences chestWorld casterAlive 1) ↔
      (isObjectMeetToConditions noReferences chestWorld (castByCreature 1) casterAlive = true →
        Handled noReferences casterAlive ∧ SomeGroup noReferences
          (Condition.Admits chestWorld (castByCreature 1) 1) casterAlive) :=
  (searcherTypeMask_hides_nothing_iff casterAlive_loaded).1 (castByCreature 1) 1 rfl

end IscServer.Conditions
