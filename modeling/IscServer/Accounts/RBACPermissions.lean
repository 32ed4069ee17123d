import IscServer.Accounts.RBACReload

/-!
# Effective Permissions

The effective permissions are computed from the lists by a loop that clears the set it expands and fills it
again, and skips what is not defined.

## Main results

* `RBACData.Consistent.operate` — the operations keep the lists apart, and defined.
* `effective_permissions` — the loop ends, and the effective permissions are what can be reached.
-/

namespace IscServer.Accounts

/-- The operations on the lists of an account. -/
inductive ListOperation
  | clearData
  | grantPermission (permissionId : ℕ) (realmId : ℤ)
  | denyPermission (permissionId : ℕ) (realmId : ℤ)
  | revokePermission (permissionId : ℕ) (realmId : ℤ)

namespace RBACData

/-- The account after an operation. -/
def operate (mgr : AccountMgr) (data : RBACData) : ListOperation → RBACData
  | .clearData => data.clearData
  | .grantPermission permissionId realmId => (data.grantPermission mgr permissionId realmId).2.1
  | .denyPermission permissionId realmId => (data.denyPermission mgr permissionId realmId).2.1
  | .revokePermission permissionId realmId => (data.revokePermission mgr permissionId realmId).2.1

/-- No permission is both granted and denied, and all of them are defined. -/
structure Consistent (mgr : AccountMgr) (data : RBACData) : Prop where
  disjoint : Disjoint data.grantedPerms data.deniedPerms
  granted : data.grantedPerms ⊆ mgr.permissions
  denied : data.deniedPerms ⊆ mgr.permissions

variable {mgr : AccountMgr} {data : RBACData}

theorem Consistent.of_empty (hgranted : data.grantedPerms = ∅) (hdenied : data.deniedPerms = ∅) :
    Consistent mgr data := by
  refine ⟨?_, ?_, ?_⟩
  · rw [hgranted]
    exact Finset.disjoint_empty_left _
  · rw [hgranted]
    exact Finset.empty_subset _
  · rw [hdenied]
    exact Finset.empty_subset _

/-- **The lists stay consistent.** -/
theorem Consistent.operate (h : Consistent mgr data) (operation : ListOperation) :
    Consistent mgr (data.operate mgr operation) := by
  cases operation with
  | clearData => exact of_empty rfl rfl
  | grantPermission p realmId =>
    rw [RBACData.operate]
    by_cases hfree : Free mgr data p
    · have hinsert : Consistent mgr { data with grantedPerms := insert p data.grantedPerms } :=
        ⟨Finset.disjoint_insert_left.mpr ⟨hfree.2.2, h.disjoint⟩,
          Finset.insert_subset hfree.1 h.granted, h.denied⟩
      rw [grantPermission_free hfree]
      split_ifs
      · exact ⟨hinsert.disjoint, hinsert.granted, hinsert.denied⟩
      · exact hinsert
    · rw [(grantPermission_refused hfree).2]
      exact h
  | denyPermission p realmId =>
    rw [RBACData.operate]
    by_cases hfree : Free mgr data p
    · have hinsert : Consistent mgr { data with deniedPerms := insert p data.deniedPerms } :=
        ⟨Finset.disjoint_insert_right.mpr ⟨hfree.2.1, h.disjoint⟩, h.granted,
          Finset.insert_subset hfree.1 h.denied⟩
      rw [denyPermission_free hfree]
      split_ifs
      · exact ⟨hinsert.disjoint, hinsert.granted, hinsert.denied⟩
      · exact hinsert
    · rw [(denyPermission_refused hfree).2]
      exact h
  | revokePermission p realmId =>
    have hgranted := Finset.erase_subset p data.grantedPerms
    have hdenied := Finset.erase_subset p data.deniedPerms
    rw [RBACData.operate, revokePermission]
    split_ifs
    · exact h
    · exact ⟨h.disjoint.mono hgranted hdenied, hgranted.trans h.granted, hdenied.trans h.denied⟩
    · exact ⟨h.disjoint.mono hgranted hdenied, hgranted.trans h.granted, hdenied.trans h.denied⟩

/-- The account after a list of operations. -/
def operations (mgr : AccountMgr) (data : RBACData) (operations : List ListOperation) : RBACData :=
  operations.foldl (RBACData.operate mgr) data

theorem Consistent.operations (h : Consistent mgr data) (operations : List ListOperation) :
    Consistent mgr (data.operations mgr operations) := by
  induction operations generalizing data with
  | nil => exact h
  | cons operation operations ih => exact ih (h.operate operation)

end RBACData

/-- The permission is defined, and can be reached from one of the list through links between defined
permissions. -/
def AccountMgr.Reachable (mgr : AccountMgr) (permissions : Finset ℕ) (p : ℕ) : Prop :=
  p ∈ mgr.permissions ∧ WorkList.Reaches mgr.permissions mgr.linkedPermissions permissions p

/-- **Effective permissions.** After any operations the lists are disjoint and defined, the loop of
`ExpandPermissions` ends from any list, and the effective permissions are those that can be reached from a
granted one and not from a denied one. -/
theorem effective_permissions (mgr : AccountMgr) (id : ℕ) (realmId : ℤ) (secLevel : ℕ)
    (operations : List ListOperation) :
    let data := (RBACData.new id realmId secLevel).operations mgr operations
    (Disjoint data.grantedPerms data.deniedPerms ∧ data.grantedPerms ⊆ mgr.permissions ∧
        data.deniedPerms ⊆ mgr.permissions) ∧
      (∀ permissions, ∃ n,
        (WorkList.round mgr.permissions mgr.linkedPermissions)^[n] (permissions, ∅) =
          (∅, RBACData.expandPermissions mgr permissions)) ∧
      ∀ p, p ∈ (data.calculateNewPermissions mgr).globalPerms ↔
        mgr.Reachable data.grantedPerms p ∧ ¬ mgr.Reachable data.deniedPerms p := by
  have hnew : (RBACData.new id realmId secLevel).Consistent mgr := .of_empty rfl rfl
  have h := hnew.operations operations
  refine ⟨⟨h.disjoint, h.granted, h.denied⟩, fun permissions => ⟨_, WorkList.iterate_round permissions⟩,
    fun p => ?_⟩
  exact Finset.mem_sdiff.trans (and_congr WorkList.mem_expand_iff (not_congr WorkList.mem_expand_iff))

end IscServer.Accounts
