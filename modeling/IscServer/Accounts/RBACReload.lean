import IscServer.Accounts.RBAC
import IscServer.Library.Run

/-!
# Permission commands and the next login

The lists of an account amount to one decision for each permission: granted, denied or neither. Loading
takes the first decision there is: the row for all realms, then the row for the realm of the server, then
the defaults of the security level. A command changes the decision in memory; the connected account
agrees with its next login when the rows it leaves lead to the same decision.

They do not when a permission is granted or denied on another realm, when a default permission is revoked,
and when a revocation leaves the row of this realm behind, because it was given for another realm or for
all of them.

## Main results

* `decides_loadFromDB` — what the rows of an account mean.
* `Connection.synced_step_iff` — the commands that mean the same now and after the next login.
* `Connection.reload_after_commands` — runs of such commands.
-/

namespace IscServer.Accounts

open List Function Keyed

variable {mgr : AccountMgr}

/-! ### Decisions -/

/-- The lists of an account amount to a decision for each permission. -/
structure Decides (data : RBACData) (decision : ℕ → Option Bool) : Prop where
  granted : ∀ p, p ∈ data.grantedPerms ↔ decision p = some true
  denied : ∀ p, p ∈ data.deniedPerms ↔ decision p = some false

namespace Decides

variable {data data' : RBACData} {d d' : ℕ → Option Bool}

section

variable (h : Decides data d)
include h

/-- The lists amount to one decision only. -/
theorem unique (h' : Decides data d') : d = d' := by
  funext p
  have hgranted := (h.granted p).symm.trans (h'.granted p)
  have hdenied := (h.denied p).symm.trans (h'.denied p)
  cases hd : d p with
  | none =>
    cases hd' : d' p with
    | none => rfl
    | some b => cases b <;> simp [hd, hd'] at hgranted hdenied
  | some b =>
    cases b with
    | true => exact (hgranted.mp hd).symm
    | false => exact (hdenied.mp hd).symm

/-- The same decisions come from the same lists. -/
theorem lists_eq (h' : Decides data' d) :
    data.grantedPerms = data'.grantedPerms ∧ data.deniedPerms = data'.deniedPerms :=
  ⟨Finset.ext fun p => (h.granted p).trans (h'.granted p).symm,
    Finset.ext fun p => (h.denied p).trans (h'.denied p).symm⟩

/-- A permission without a decision is in neither list. -/
theorem none_iff (p : ℕ) : d p = none ↔ p ∉ data.grantedPerms ∧ p ∉ data.deniedPerms := by
  rw [h.granted, h.denied]
  cases d p with
  | none => simp
  | some b => cases b <;> simp

theorem calculateNewPermissions : Decides (data.calculateNewPermissions mgr) d :=
  ⟨h.granted, h.denied⟩

theorem insertGranted {p : ℕ} (hp : d p = none) :
    Decides { data with grantedPerms := insert p data.grantedPerms }
      (Function.update d p (some true)) := by
  refine ⟨fun q => ?_, fun q => ?_⟩ <;> by_cases hq : q = p
  · simp [hq]
  · simp [hq, h.granted]
  · simp [hq, h.denied, hp]
  · simp [hq, h.denied]

theorem insertDenied {p : ℕ} (hp : d p = none) :
    Decides { data with deniedPerms := insert p data.deniedPerms }
      (Function.update d p (some false)) := by
  refine ⟨fun q => ?_, fun q => ?_⟩ <;> by_cases hq : q = p
  · simp [hq, h.granted, hp]
  · simp [hq, h.granted]
  · simp [hq]
  · simp [hq, h.denied]

theorem erase (p : ℕ) :
    Decides { data with
      grantedPerms := data.grantedPerms.erase p
      deniedPerms := data.deniedPerms.erase p } (Function.update d p none) := by
  refine ⟨fun q => ?_, fun q => ?_⟩ <;> by_cases hq : q = p
  · simp [hq]
  · simp [hq, h.granted]
  · simp [hq]
  · simp [hq, h.denied]

end

end Decides

/-! ### The operations -/

section Operations

variable {data : RBACData} {p : ℕ} {realmId : ℤ}

/-- A permission that exists and is in neither list. -/
def Free (mgr : AccountMgr) (data : RBACData) (p : ℕ) : Prop :=
  p ∈ mgr.permissions ∧ p ∉ data.grantedPerms ∧ p ∉ data.deniedPerms

theorem grantPermission_free (h : Free mgr data p) :
    data.grantPermission mgr p realmId =
      let data' := { data with grantedPerms := insert p data.grantedPerms }
      if realmId ≠ 0 then
        (.ok, data'.calculateNewPermissions mgr, [data'.savePermission p true realmId])
      else (.ok, data', []) := by
  rw [RBACData.grantPermission, if_neg (not_not.mpr h.1), if_neg h.2.2, if_neg h.2.1]

theorem grantPermission_refused (h : ¬Free mgr data p) :
    (data.grantPermission mgr p realmId).1 ≠ .ok ∧
      (data.grantPermission mgr p realmId).2 = (data, []) := by
  rw [RBACData.grantPermission]
  split_ifs with hexists hdenied hgranted hrealm
  · exact ⟨by simp, rfl⟩
  · exact ⟨by simp, rfl⟩
  · exact absurd ⟨hexists, hgranted, hdenied⟩ h
  · exact absurd ⟨hexists, hgranted, hdenied⟩ h
  · exact ⟨by simp, rfl⟩

theorem denyPermission_free (h : Free mgr data p) :
    data.denyPermission mgr p realmId =
      let data' := { data with deniedPerms := insert p data.deniedPerms }
      if realmId ≠ 0 then
        (.ok, data'.calculateNewPermissions mgr, [data'.savePermission p false realmId])
      else (.ok, data', []) := by
  rw [RBACData.denyPermission, if_neg (not_not.mpr h.1), if_neg h.2.1, if_neg h.2.2]

theorem denyPermission_refused (h : ¬Free mgr data p) :
    (data.denyPermission mgr p realmId).1 ≠ .ok ∧
      (data.denyPermission mgr p realmId).2 = (data, []) := by
  rw [RBACData.denyPermission]
  split_ifs with hexists hgranted hdenied hrealm
  · exact ⟨by simp, rfl⟩
  · exact ⟨by simp, rfl⟩
  · exact absurd ⟨hexists, hgranted, hdenied⟩ h
  · exact absurd ⟨hexists, hgranted, hdenied⟩ h
  · exact ⟨by simp, rfl⟩

theorem revokePermission_refused (h : p ∉ data.grantedPerms ∧ p ∉ data.deniedPerms) :
    data.revokePermission mgr p realmId = (.cantRevokeNotInList, data, []) := by
  rw [RBACData.revokePermission, if_pos h]

theorem revokePermission_listed (h : ¬(p ∉ data.grantedPerms ∧ p ∉ data.deniedPerms)) :
    data.revokePermission mgr p realmId =
      let data' := { data with
        grantedPerms := data.grantedPerms.erase p
        deniedPerms := data.deniedPerms.erase p }
      if realmId ≠ 0 then
        (.ok, data'.calculateNewPermissions mgr, [.delete data'.id p realmId])
      else (.ok, data', []) := by
  rw [RBACData.revokePermission, if_neg h]

end Operations

/-! ### Loading -/

section Load

variable {data : RBACData} {d : ℕ → Option Bool} {rows : List AccountPermission}

/-- A permission is granted or denied for good by the first row about it. -/
def decideRow (mgr : AccountMgr) (d : ℕ → Option Bool) (row : AccountPermission) : ℕ → Option Bool :=
  if row.permissionId ∈ mgr.permissions ∧ d row.permissionId = none then
    Function.update d row.permissionId (some row.granted)
  else d

theorem decides_loadRow (h : Decides data d) (row : AccountPermission) :
    Decides (data.loadRow mgr row) (decideRow mgr d row) := by
  have hnone := h.none_iff row.permissionId
  rw [RBACData.loadRow, decideRow]
  by_cases hfree : Free mgr data row.permissionId
  · have hd := hnone.mpr hfree.2
    rw [if_pos (⟨hfree.1, hd⟩ : row.permissionId ∈ mgr.permissions ∧ d row.permissionId = none),
      grantPermission_free hfree, denyPermission_free hfree]
    cases row.granted with
    | true => exact h.insertGranted hd
    | false => exact h.insertDenied hd
  · have hd : ¬(row.permissionId ∈ mgr.permissions ∧ d row.permissionId = none) :=
      fun hc => hfree ⟨hc.1, hnone.mp hc.2⟩
    rw [if_neg hd, (grantPermission_refused hfree).2, (denyPermission_refused hfree).2, ite_self]
    exact h

/-- The decision of a list of rows. -/
def decisionOf (mgr : AccountMgr) (rows : List AccountPermission) (p : ℕ) : Option Bool :=
  if p ∈ mgr.permissions then
    (Keyed.find AccountPermission.permissionId rows p).map AccountPermission.granted
  else none

theorem foldl_decideRow (p : ℕ) :
    rows.foldl (decideRow mgr) d p = (d p).or (decisionOf mgr rows p) := by
  induction rows generalizing d with
  | nil => simp [decisionOf, Keyed.find]
  | cons row rows ih =>
    rw [foldl_cons, ih, decideRow, decisionOf, decisionOf, find_cons]
    by_cases hrow : row.permissionId = p
    · subst hrow
      by_cases hexists : row.permissionId ∈ mgr.permissions
      · cases hd : d row.permissionId <;> simp [hexists, hd]
      · simp [hexists]
    · have hne : p ≠ row.permissionId := fun heq => hrow heq.symm
      split_ifs <;> simp [hne]

/-- A default permission is loaded like a row that grants it. -/
def defaultRow (p : ℕ) : AccountPermission where
  accountId := 0
  permissionId := p
  realmId := 0
  granted := true

theorem foldl_loadDefault {ps : List ℕ} :
    ps.foldl (RBACData.loadDefault mgr) data = (ps.map defaultRow).foldl (RBACData.loadRow mgr) data := by
  rw [foldl_map]
  rfl

/-- The account stays the same. -/
structure SameAccount (data data' : RBACData) : Prop where
  id : data'.id = data.id
  realmId : data'.realmId = data.realmId
  secLevel : data'.secLevel = data.secLevel

theorem sameAccount_loadRow (data : RBACData) (row : AccountPermission) :
    SameAccount data (data.loadRow mgr row) := by
  rw [RBACData.loadRow]
  by_cases hfree : Free mgr data row.permissionId
  · rw [grantPermission_free hfree, denyPermission_free hfree]
    cases row.granted <;> exact ⟨rfl, rfl, rfl⟩
  · rw [(grantPermission_refused hfree).2, (denyPermission_refused hfree).2, ite_self]
    exact ⟨rfl, rfl, rfl⟩

theorem sameAccount_foldl_loadRow (data : RBACData) (rows : List AccountPermission) :
    SameAccount data (rows.foldl (RBACData.loadRow mgr) data) := by
  induction rows generalizing data with
  | nil => exact ⟨rfl, rfl, rfl⟩
  | cons row rows ih =>
    obtain ⟨hid, hrealm, hsec⟩ := (@sameAccount_loadRow mgr) data row
    obtain ⟨hid', hrealm', hsec'⟩ := ih (data.loadRow mgr row)
    exact ⟨hid'.trans hid, hrealm'.trans hrealm, hsec'.trans hsec⟩

theorem sameAccount_loadFromDB (data : RBACData) (rows : List AccountPermission) :
    SameAccount data (data.loadFromDB mgr rows) := by
  have hrows := (@sameAccount_foldl_loadRow mgr) data.clearData
    (selectAccountPermissions rows data.id data.realmId)
  have hdefaults := (@sameAccount_foldl_loadRow mgr)
    ((selectAccountPermissions rows data.id data.realmId).foldl (RBACData.loadRow mgr) data.clearData)
    (((mgr.defaultPermissions data.secLevel).sort (· ≤ ·)).map defaultRow)
  rw [← foldl_loadDefault] at hdefaults
  exact ⟨hdefaults.id.trans hrows.id, hdefaults.realmId.trans hrows.realmId,
    hdefaults.secLevel.trans hrows.secLevel⟩

theorem decides_foldl_loadRow (h : Decides data d) :
    Decides (rows.foldl (RBACData.loadRow mgr) data) (rows.foldl (decideRow mgr) d) := by
  induction rows generalizing data d with
  | nil => exact h
  | cons row rows ih => exact ih (decides_loadRow h row)

/-- What the defaults of a security level decide. -/
theorem decisionOf_defaults {ps : Finset ℕ} (p : ℕ) :
    decisionOf mgr ((ps.sort (· ≤ ·)).map defaultRow) p =
      if p ∈ mgr.permissions ∧ p ∈ ps then some true else none := by
  have hkeys : ((ps.sort (· ≤ ·)).map defaultRow).map AccountPermission.permissionId =
      ps.sort (· ≤ ·) := by
    rw [map_map]
    exact map_id _
  have hfind : Keyed.find AccountPermission.permissionId ((ps.sort (· ≤ ·)).map defaultRow) p =
      if p ∈ ps then some (defaultRow p) else none := by
    split_ifs with hp
    · refine find_of_mem (by rw [hkeys]; exact ps.sort_nodup (· ≤ ·)) (a := defaultRow p) ?_
      exact mem_map_of_mem ((Finset.mem_sort (· ≤ ·)).mpr hp)
    · refine find_eq_none_iff.mpr fun row hrow heq => hp ?_
      obtain ⟨q, hq, rfl⟩ := mem_map.mp hrow
      exact heq ▸ (Finset.mem_sort (· ≤ ·)).mp hq
  rw [decisionOf, hfind]
  by_cases hexists : p ∈ mgr.permissions <;> by_cases hp : p ∈ ps <;> simp [hexists, defaultRow]

/-- The row that decides about a permission: the one for all realms, or the one for this realm. -/
def scopeRow (rows : List AccountPermission) (accountId : ℕ) (realmId : ℤ) (p : ℕ) :
    Option AccountPermission :=
  (Keyed.find AccountPermission.key rows (accountId, p, -1)).or
    (Keyed.find AccountPermission.key rows (accountId, p, realmId))

/-- **The first row of a selection** about a permission is the one that decides. -/
theorem find_selectAccountPermissions {accountId : ℕ} {realmId : ℤ}
    (hnodup : (rows.map AccountPermission.key).Nodup) (hrealm : 0 < realmId) (p : ℕ) :
    Keyed.find AccountPermission.permissionId (selectAccountPermissions rows accountId realmId) p =
      scopeRow rows accountId realmId p := by
  have hmem (row : AccountPermission) : row ∈ selectAccountPermissions rows accountId realmId ↔
      row ∈ rows ∧ row.accountId = accountId ∧ (row.realmId = realmId ∨ row.realmId = -1) := by
    rw [selectAccountPermissions, mem_insertionSort, mem_filter]
    simp
  have hsorted : (selectAccountPermissions rows accountId realmId).Pairwise AccountPermission.le := by
    have : Std.Total AccountPermission.le := ⟨fun a b => by simp only [AccountPermission.le]; omega⟩
    have : IsTrans AccountPermission AccountPermission.le :=
      ⟨fun a b c => by simp only [AccountPermission.le]; omega⟩
    exact pairwise_insertionSort _ _
  cases hfind : Keyed.find AccountPermission.permissionId
      (selectAccountPermissions rows accountId realmId) p with
  | none =>
    rw [find_eq_none_iff] at hfind
    have hnone (realm : ℤ) (hr : realm = realmId ∨ realm = -1) :
        Keyed.find AccountPermission.key rows (accountId, p, realm) = none := by
      refine find_eq_none_iff.mpr fun row hrow hkey => ?_
      simp only [AccountPermission.key, Prod.mk.injEq] at hkey
      exact hfind row ((hmem row).mpr ⟨hrow, hkey.1, hkey.2.2 ▸ hr⟩) hkey.2.1
    rw [scopeRow, hnone (-1) (Or.inr rfl), hnone realmId (Or.inl rfl)]
    rfl
  | some row =>
    obtain ⟨hrow, hid, hrealm'⟩ := (hmem row).mp (mem_of_find hfind)
    have hp := key_of_find hfind
    have hfound : Keyed.find AccountPermission.key rows (accountId, p, row.realmId) = some row := by
      refine (find_eq_some_iff hnodup).mpr ⟨hrow, ?_⟩
      rw [AccountPermission.key, hid, hp]
    rw [scopeRow]
    rcases hrealm' with heq | heq
    · -- a row for all realms would come first
      have hnone : Keyed.find AccountPermission.key rows (accountId, p, -1) = none := by
        cases hall : Keyed.find AccountPermission.key rows (accountId, p, -1) with
        | none => rfl
        | some first =>
          have hkey := key_of_find hall
          simp only [AccountPermission.key, Prod.mk.injEq] at hkey
          have hfirst : first ∈ selectAccountPermissions rows accountId realmId :=
            (hmem first).mpr ⟨mem_of_find hall, hkey.1, Or.inr hkey.2.2⟩
          obtain ⟨-, before, after, hsplit, hbefore⟩ := List.find?_eq_some_iff_append.mp hfind
          rw [hsplit] at hfirst hsorted
          obtain ⟨-, hafter, -⟩ := pairwise_append.mp hsorted
          rcases mem_append.mp hfirst with hmem' | hmem'
          · have hne := hbefore first hmem'
            simp [hkey.2.1] at hne
          · rcases mem_cons.mp hmem' with rfl | hmem'
            · omega
            · have hle := (pairwise_cons.mp hafter).1 first hmem'
              simp only [AccountPermission.le] at hle
              omega
      rw [hnone, ← heq, hfound]
      rfl
    · rw [← heq, hfound]
      rfl

/-- The decision that is loaded. -/
def loadedDecision (mgr : AccountMgr) (rows : List AccountPermission) (accountId : ℕ) (realmId : ℤ)
    (secLevel p : ℕ) : Option Bool :=
  if p ∈ mgr.permissions then
    ((scopeRow rows accountId realmId p).map AccountPermission.granted).or
      (if p ∈ mgr.defaultPermissions secLevel then some true else none)
  else none

/-- **What the rows of an account mean**: the row for all realms decides, then the row for this realm,
then the defaults. -/
theorem decides_loadFromDB (hnodup : (rows.map AccountPermission.key).Nodup)
    (hrealm : 0 < data.realmId) :
    Decides (data.loadFromDB mgr rows)
      (loadedDecision mgr rows data.id data.realmId data.secLevel) := by
  have hclear : Decides data.clearData fun _ => none :=
    ⟨fun p => by simp [RBACData.clearData], fun p => by simp [RBACData.clearData]⟩
  have hload := (@decides_foldl_loadRow mgr _ _ (selectAccountPermissions rows data.id data.realmId ++ ((mgr.defaultPermissions data.secLevel).sort (· ≤ ·)).map defaultRow)) hclear
  have hdecision : (selectAccountPermissions rows data.id data.realmId ++
      ((mgr.defaultPermissions data.secLevel).sort (· ≤ ·)).map defaultRow).foldl (decideRow mgr)
        (fun _ => none) = loadedDecision mgr rows data.id data.realmId data.secLevel := by
    funext p
    rw [foldl_append, foldl_decideRow, foldl_decideRow, Option.none_or, decisionOf_defaults,
      decisionOf, find_selectAccountPermissions hnodup hrealm, loadedDecision]
    by_cases hexists : p ∈ mgr.permissions <;> simp [hexists]
  rw [hdecision, foldl_append, ← foldl_loadDefault] at hload
  exact hload.calculateNewPermissions

end Load

/-! ### Commands -/

namespace Connection

variable {c : Connection} {command : Command}

/-- The connected account agrees with its next login. -/
def Synced (mgr : AccountMgr) (c : Connection) : Prop := c.data = c.reloaded mgr

/-- The decisions of the next login. -/
def decision (mgr : AccountMgr) (c : Connection) : ℕ → Option Bool :=
  loadedDecision mgr c.rows c.data.id c.data.realmId c.data.secLevel

/-- The primary key of the table, and a realm that exists. -/
structure Valid (c : Connection) : Prop where
  nodup : (c.rows.map AccountPermission.key).Nodup
  realmId : 0 < c.data.realmId

theorem Valid.reloaded (h : Valid c) : Decides (c.reloaded mgr) (decision mgr c) :=
  decides_loadFromDB h.nodup h.realmId

/-- **The connected account agrees with its next login** exactly when its lists amount to the decisions
of the rows. -/
theorem Valid.synced_iff (h : Valid c) (hcalc : c.data.calculateNewPermissions mgr = c.data) :
    Synced mgr c ↔ Decides c.data (decision mgr c) := by
  have hreloaded : Decides (c.reloaded mgr) (decision mgr c) := h.reloaded
  constructor
  · intro hsync
    rwa [← show c.data = c.reloaded mgr from hsync] at hreloaded
  · intro hdecides
    obtain ⟨hgranted, hdenied⟩ := hdecides.lists_eq hreloaded
    obtain ⟨hid, hrealm, hsec⟩ := (@sameAccount_loadFromDB mgr)
      (RBACData.new c.data.id c.data.realmId c.data.secLevel) c.rows
    have hglobal : c.data.globalPerms = (c.reloaded mgr).globalPerms := by
      have hself := congrArg RBACData.globalPerms hcalc
      rw [← hself, RBACData.calculateNewPermissions, hgranted, hdenied]
      rfl
    exact RBACData.ext hid.symm hrealm.symm hsec.symm hgranted hdenied hglobal

variable {c' : Connection} {p : ℕ}

/-- The decision about a permission after the rows have changed. -/
theorem decision_of_rows (hid : c'.data.id = c.data.id) (hrealm : c'.data.realmId = c.data.realmId)
    (hsec : c'.data.secLevel = c.data.secLevel)
    (hrows : ∀ realm, Keyed.find AccountPermission.key c'.rows (c.data.id, p, realm) =
      Keyed.find AccountPermission.key c.rows (c.data.id, p, realm)) :
    decision mgr c' p = decision mgr c p := by
  rw [decision, decision, loadedDecision, loadedDecision, scopeRow, scopeRow, hid, hrealm, hsec, hrows,
    hrows]

/-- A decision is none when there is no row and no default. -/
theorem decision_eq_none_iff {p : ℕ} (hp : p ∈ mgr.permissions) : decision mgr c p = none ↔
    Keyed.find AccountPermission.key c.rows (c.data.id, p, -1) = none ∧
      Keyed.find AccountPermission.key c.rows (c.data.id, p, c.data.realmId) = none ∧
        p ∉ mgr.defaultPermissions c.data.secLevel := by
  rw [decision, loadedDecision, if_pos hp, scopeRow]
  simp [and_assoc]

variable {realmId : ℤ}

section

variable (h : Valid c') (hcalc : c'.data.calculateNewPermissions mgr = c'.data)
  (hid : c'.data.id = c.data.id) (hrealm : c'.data.realmId = c.data.realmId)
  (hsec : c'.data.secLevel = c.data.secLevel)
include h hcalc hid hrealm hsec

/-- When the rows of one permission have changed, the lists have to agree about that one. -/
theorem synced_update_iff {v : Option Bool}
    (hdata : Decides c'.data (Function.update (decision mgr c) p v))
    (hrows : ∀ q ≠ p, ∀ realm, Keyed.find AccountPermission.key c'.rows (c.data.id, q, realm) =
      Keyed.find AccountPermission.key c.rows (c.data.id, q, realm)) :
    Synced mgr c' ↔ decision mgr c' p = v := by
  rw [h.synced_iff hcalc]
  constructor
  · intro hdecides
    rw [← hdata.unique hdecides, update_self]
  · intro hp
    have heq : Function.update (decision mgr c) p v = decision mgr c' := by
      funext q
      by_cases hq : q = p
      · rw [hq, update_self, hp]
      · rw [update_of_ne hq]
        exact (decision_of_rows hid hrealm hsec (hrows q hq)).symm
    exact heq ▸ hdata

/-- A permission is granted, or denied, where it has been neither. -/
theorem synced_save_iff {granted : Bool}
    (hrows : c'.rows = (Statement.insert ⟨c.data.id, p, realmId, granted⟩).execute c.rows)
    (hdata : Decides c'.data (Function.update (decision mgr c) p (some granted)))
    (hp : p ∈ mgr.permissions) (hfree : decision mgr c p = none) :
    Synced mgr c' ↔ realmId = -1 ∨ realmId = c.data.realmId := by
  obtain ⟨hall, hthis, hdefault⟩ := (decision_eq_none_iff hp).mp hfree
  have hfind (q : ℕ) (realm : ℤ) :
      Keyed.find AccountPermission.key c'.rows (c.data.id, q, realm) =
        if p = q ∧ realmId = realm then some ⟨c.data.id, p, realmId, granted⟩
        else Keyed.find AccountPermission.key c.rows (c.data.id, q, realm) := by
    rw [hrows, Statement.execute, find_assign]
    simp [AccountPermission.key]
  rw [synced_update_iff h hcalc hid hrealm hsec hdata fun q hq realm => by
    rw [hfind, if_neg fun hc => hq hc.1.symm]]
  constructor
  · intro hsome
    by_contra hother
    rw [not_or] at hother
    have hnone : decision mgr c' p = none := by
      refine (decision_eq_none_iff hp).mpr ⟨?_, ?_, hsec ▸ hdefault⟩
      · rw [hid, hfind, if_neg fun hc => hother.1 hc.2, hall]
      · rw [hid, hrealm, hfind, if_neg fun hc => hother.2 hc.2, hthis]
    rw [hnone] at hsome
    cases hsome
  · intro hscope
    rw [decision, loadedDecision, if_pos hp, scopeRow, hid, hrealm, hfind, hfind]
    rcases hscope with rfl | rfl
    · simp
    · by_cases hneg : c.data.realmId = -1 <;> simp [hneg, hall]

/-- A permission is revoked. -/
theorem synced_delete_iff (hrows : c'.rows = (Statement.delete c.data.id p realmId).execute c.rows)
    (hdata : Decides c'.data (Function.update (decision mgr c) p none)) (hp : p ∈ mgr.permissions) :
    Synced mgr c' ↔ p ∉ mgr.defaultPermissions c.data.secLevel ∧
      (realmId = c.data.realmId ∨
        Keyed.find AccountPermission.key c.rows (c.data.id, p, c.data.realmId) = none) := by
  have hfind (q : ℕ) (realm : ℤ) :
      Keyed.find AccountPermission.key c'.rows (c.data.id, q, realm) =
        if q = p ∧ (realm = realmId ∨ realm = -1) then none
        else Keyed.find AccountPermission.key c.rows (c.data.id, q, realm) := by
    have hfilter := (@find_filter_key _ _ AccountPermission.key c.rows ((c.data.id, q, realm)))
      fun k => !(k.1 = c.data.id && k.2.1 = p && (k.2.2 = realmId || k.2.2 = -1))
    rw [hrows, Statement.execute]
    refine hfilter.trans ?_
    by_cases hc : q = p ∧ (realm = realmId ∨ realm = -1)
    · obtain ⟨rfl, rfl | rfl⟩ := hc <;> simp
    · rw [if_neg hc, if_pos]
      simpa [imp_iff_not_or] using hc
  have hpositive : c.data.realmId ≠ -1 := by
    have hpos := h.realmId
    omega
  rw [synced_update_iff h hcalc hid hrealm hsec hdata fun q hq realm => by
    rw [hfind, if_neg fun hc => hq hc.1]]
  rw [decision_eq_none_iff hp, hid, hrealm, hsec, hfind, hfind, if_pos ⟨rfl, Or.inr rfl⟩]
  by_cases hthis : realmId = c.data.realmId
  · simp [hthis]
  · rw [if_neg fun hc => hc.2.elim (fun heq => hthis heq.symm) hpositive]
    simp [hthis, and_comm]

end

/-- A command that means the same now and after the next login: it grants or denies a permission on all
realms or on this one, or revokes one that is not among the defaults and leaves no row of this realm. -/
def SameScope (mgr : AccountMgr) (c : Connection) : Command → Prop
  | .grant permId realmId => (Command.grant permId realmId).realmId = -1 ∨
      (Command.grant permId realmId).realmId = c.data.realmId
  | .deny permId realmId => (Command.deny permId realmId).realmId = -1 ∨
      (Command.deny permId realmId).realmId = c.data.realmId
  | .revoke permId realmId => permId ∉ mgr.defaultPermissions c.data.secLevel ∧
      ((Command.revoke permId realmId).realmId = c.data.realmId ∨
        Keyed.find AccountPermission.key c.rows (c.data.id, permId, c.data.realmId) = none)

theorem Valid.execute (h : Valid c) (statement : Statement) :
    ((statement.execute c.rows).map AccountPermission.key).Nodup := by
  cases statement with
  | insert row => exact nodup_assign h.nodup
  | delete accountId permissionId realmId =>
    exact h.nodup.sublist (filter_sublist.map AccountPermission.key)

/-- What a command does: it is refused, or its permission joins a list, or leaves the lists. -/
inductive Outcome (mgr : AccountMgr) (c : Connection) (command : Command) : Prop
  | refused (hresult : (c.handle mgr command).1 ≠ .ok) (hstep : c.step mgr command = c)
  | saved (granted : Bool) (hresult : (c.handle mgr command).1 = .ok)
      (hfree : Free mgr c.data command.permId)
      (hrows : (c.step mgr command).rows =
        (Statement.insert ⟨c.data.id, command.permId, command.realmId, granted⟩).execute c.rows)
      (haccount : SameAccount c.data (c.step mgr command).data)
      (hcalc : (c.step mgr command).data.calculateNewPermissions mgr = (c.step mgr command).data)
      (hdata : ∀ d, Decides c.data d → d command.permId = none →
        Decides (c.step mgr command).data (Function.update d command.permId (some granted)))
      (hscope : SameScope mgr c command ↔ command.realmId = -1 ∨ command.realmId = c.data.realmId)
  | deleted (hresult : (c.handle mgr command).1 = .ok)
      (hlisted : ¬(command.permId ∉ c.data.grantedPerms ∧ command.permId ∉ c.data.deniedPerms))
      (hrows : (c.step mgr command).rows =
        (Statement.delete c.data.id command.permId command.realmId).execute c.rows)
      (haccount : SameAccount c.data (c.step mgr command).data)
      (hcalc : (c.step mgr command).data.calculateNewPermissions mgr = (c.step mgr command).data)
      (hdata : ∀ d, Decides c.data d →
        Decides (c.step mgr command).data (Function.update d command.permId none))
      (hscope : SameScope mgr c command ↔
        command.permId ∉ mgr.defaultPermissions c.data.secLevel ∧
          (command.realmId = c.data.realmId ∨
            Keyed.find AccountPermission.key c.rows (c.data.id, command.permId, c.data.realmId) = none))

/-- **Every command** has one of these outcomes. -/
theorem outcome (mgr : AccountMgr) (c : Connection) (hrealm : command.realmId ≠ 0) :
    Outcome mgr c command := by
  cases command with
  | grant permId realm =>
    by_cases hfree : Free mgr c.data permId
    · have hhandle := (@grantPermission_free _ _ _ ((Command.grant permId realm).realmId)) hfree
      rw [if_pos hrealm] at hhandle
      refine .saved true ?_ hfree ?_ ?_ ?_ (fun d hd hnone => ?_) Iff.rfl <;>
        simp only [step, handle, hhandle]
      · rfl
      · exact ⟨rfl, rfl, rfl⟩
      · rfl
      · exact (hd.insertGranted hnone).calculateNewPermissions
    · have hrefused := (@grantPermission_refused _ _ _ ((Command.grant permId realm).realmId)) hfree
      refine .refused hrefused.1 ?_
      simp only [step, handle, hrefused.2]
      rfl
  | deny permId realm =>
    by_cases hfree : Free mgr c.data permId
    · have hhandle := (@denyPermission_free _ _ _ ((Command.deny permId realm).realmId)) hfree
      rw [if_pos hrealm] at hhandle
      refine .saved false ?_ hfree ?_ ?_ ?_ (fun d hd hnone => ?_) Iff.rfl <;>
        simp only [step, handle, hhandle]
      · rfl
      · exact ⟨rfl, rfl, rfl⟩
      · rfl
      · exact (hd.insertDenied hnone).calculateNewPermissions
    · have hrefused := (@denyPermission_refused _ _ _ ((Command.deny permId realm).realmId)) hfree
      refine .refused hrefused.1 ?_
      simp only [step, handle, hrefused.2]
      rfl
  | revoke permId realm =>
    by_cases hlisted : permId ∉ c.data.grantedPerms ∧ permId ∉ c.data.deniedPerms
    · have hhandle := (@revokePermission_refused mgr _ _ ((Command.revoke permId realm).realmId)) hlisted
      refine .refused ?_ ?_ <;> simp only [step, handle, hhandle]
      · simp
      · rfl
    · have hhandle := (@revokePermission_listed mgr _ _ ((Command.revoke permId realm).realmId)) hlisted
      rw [if_pos hrealm] at hhandle
      refine .deleted ?_ hlisted ?_ ?_ ?_ (fun d hd => ?_) Iff.rfl <;>
        simp only [step, handle, hhandle]
      · rfl
      · exact ⟨rfl, rfl, rfl⟩
      · rfl
      · exact (hd.erase permId).calculateNewPermissions

/-- The realm stays the same, and so does the key of the table. -/
theorem Valid.step (h : Valid c) (hrealm : command.realmId ≠ 0) : Valid (c.step mgr command) := by
  cases outcome mgr c hrealm with
  | refused _ hstep =>
    rw [hstep]
    exact h
  | saved granted _ _ hrows haccount =>
    exact ⟨hrows ▸ h.execute _, haccount.realmId ▸ h.realmId⟩
  | deleted _ _ hrows haccount => exact ⟨hrows ▸ h.execute _, haccount.realmId ▸ h.realmId⟩

/-- **One command** on an account that agrees with its next login: a command that is refused changes
nothing, and any other one keeps the agreement exactly when it has the same scope. -/
theorem synced_step_iff (h : Valid c) (hsync : Synced mgr c) (hrealm : command.realmId ≠ 0) :
    ((c.handle mgr command).1 ≠ .ok → c.step mgr command = c) ∧
      ((c.handle mgr command).1 = .ok →
        (Synced mgr (c.step mgr command) ↔ SameScope mgr c command)) := by
  have hdecides : Decides c.data (decision mgr c) := by
    have hreloaded : Decides (c.reloaded mgr) (decision mgr c) := h.reloaded
    rwa [← show c.data = c.reloaded mgr from hsync] at hreloaded
  have hvalid : Valid (c.step mgr command) := h.step hrealm
  cases outcome mgr c hrealm with
  | refused hresult hstep => exact ⟨fun _ => hstep, fun hok => absurd hok hresult⟩
  | saved granted hresult hfree hrows haccount hcalc hdata hscope =>
    have hnone := (hdecides.none_iff _).mpr hfree.2
    exact ⟨fun hne => absurd hresult hne, fun _ => (synced_save_iff hvalid hcalc haccount.id
      haccount.realmId haccount.secLevel hrows (hdata _ hdecides hnone) hfree.1 hnone).trans hscope.symm⟩
  | deleted hresult hlisted hrows haccount hcalc hdata hscope =>
    have hexists : command.permId ∈ mgr.permissions := by
      by_contra hmissing
      refine hlisted ((hdecides.none_iff _).mp ?_)
      rw [decision, loadedDecision, if_neg hmissing]
    exact ⟨fun hne => absurd hresult hne, fun _ => (synced_delete_iff hvalid hcalc haccount.id
      haccount.realmId haccount.secLevel hrows (hdata _ hdecides) hexists).trans hscope.symm⟩

/-! ### Runs -/

/-- An account that has just connected agrees with its next login. -/
theorem synced_login (rows : List AccountPermission) (id : ℕ) (realmId : ℤ) (secLevel : ℕ) :
    Synced mgr (login mgr rows id realmId secLevel) := by
  obtain ⟨hid, hrealm, hsec⟩ := (@sameAccount_loadFromDB mgr)
    (RBACData.new id realmId secLevel) rows
  rw [Synced, reloaded, login, hid, hrealm, hsec]
  rfl

/-- **Commands on a connected account**: as long as every accepted command has the same scope, the
effective permissions are those of the next login after each command. The lists of granted and denied
permissions are those of the next login after each command only if every accepted command has the same
scope. -/
theorem reload_after_commands {rows : List AccountPermission} {id : ℕ} {realmId : ℤ} {secLevel : ℕ}
    (hnodup : (rows.map AccountPermission.key).Nodup) (hrealm : 0 < realmId) {commands : List Command}
    (hnonzero : ∀ command ∈ commands, command.realmId ≠ 0) :
    (Run.Along (step mgr) (fun c command => (c.handle mgr command).1 = .ok → SameScope mgr c command)
        (login mgr rows id realmId secLevel) commands →
      (commands.foldl (step mgr) (login mgr rows id realmId secLevel)).data.globalPerms =
        ((commands.foldl (step mgr) (login mgr rows id realmId secLevel)).reloaded mgr).globalPerms) ∧
    (Run.Along (step mgr) (fun c command => Synced mgr (c.step mgr command))
        (login mgr rows id realmId secLevel) commands ↔
      Run.Along (step mgr) (fun c command => (c.handle mgr command).1 = .ok → SameScope mgr c command)
        (login mgr rows id realmId secLevel) commands) := by
  have hstart : Valid (login mgr rows id realmId secLevel) ∧
      Synced mgr (login mgr rows id realmId secLevel) := by
    have haccount := (@sameAccount_loadFromDB mgr) (RBACData.new id realmId secLevel) rows
    exact ⟨⟨hnodup, haccount.realmId ▸ hrealm⟩, synced_login rows id realmId secLevel⟩
  have hkeep : ∀ c command, Valid c ∧ Synced mgr c → command.realmId ≠ 0 →
      (Synced mgr (c.step mgr command) ↔
        ((c.handle mgr command).1 = .ok → SameScope mgr c command)) := by
    intro c command hc hrealm
    obtain ⟨hrefused, haccepted⟩ := synced_step_iff hc.1 hc.2 hrealm
    by_cases hok : (c.handle mgr command).1 = .ok
    · exact (haccepted hok).trans ⟨fun h _ => h, fun h => h hok⟩
    · rw [hrefused hok]
      exact ⟨fun _ hok' => absurd hok' hok, fun _ => hc.2⟩
  have hall : Run.Along (step mgr) (fun _ command => command.realmId ≠ 0)
      (login mgr rows id realmId secLevel) commands :=
    Run.along_of_forall_mem (fun _ _ h => h) hnonzero
  refine ⟨fun hscope => ?_, ?_⟩
  · have hend := (hscope.and_mem hnonzero).invariant (fun c => Valid c ∧ Synced mgr c)
      (fun c command hc h => ⟨hc.1.step h.2, (hkeep c command hc h.2).mpr h.1⟩) hstart
    exact congrArg RBACData.globalPerms hend.2
  · exact Run.along_iff_of_along (fun c => Valid c ∧ Synced mgr c) hkeep
      (fun c command hc hrealm hs => ⟨hc.1.step hrealm, (hkeep c command hc hrealm).mpr hs⟩) hstart hall

/-! ### Commands with another scope -/

/-- Two permissions without links; one is a default. -/
def twoPermissions : AccountMgr where
  permissions := {5, 6}
  linkedPermissions _ := ∅
  defaultPermissions secLevel := if secLevel = 0 then {6} else ∅

/-- **The connection and the next login disagree** after a grant on another realm, after the revocation
of a default permission, and after a revocation on all realms of what has been granted on this one. -/
theorem reload_disagrees :
    (let c := (login twoPermissions [] 1 1 0)
     (c.handle twoPermissions (.grant 5 (some 2))).1 = .ok ∧
      5 ∈ (c.step twoPermissions (.grant 5 (some 2))).data.globalPerms ∧
      5 ∉ ((c.step twoPermissions (.grant 5 (some 2))).reloaded twoPermissions).globalPerms) ∧
    (let c := (login twoPermissions [] 1 1 0)
     (c.handle twoPermissions (.revoke 6 none)).1 = .ok ∧
      6 ∉ (c.step twoPermissions (.revoke 6 none)).data.globalPerms ∧
      6 ∈ ((c.step twoPermissions (.revoke 6 none)).reloaded twoPermissions).globalPerms) ∧
    (let c := (login twoPermissions [⟨1, 5, 1, true⟩] 1 1 0)
     (c.handle twoPermissions (.revoke 5 none)).1 = .ok ∧
      5 ∉ (c.step twoPermissions (.revoke 5 none)).data.globalPerms ∧
      5 ∈ ((c.step twoPermissions (.revoke 5 none)).reloaded twoPermissions).globalPerms) := by
  decide +kernel

/-- A grant on all realms and its revocation on this one mean the same after the next login. -/
theorem reload_after_commands_grant_revoke :
    (([.grant 5 none, .revoke 5 (some 1)] : List Command).foldl (step twoPermissions)
        (login twoPermissions [⟨1, 6, -1, false⟩] 1 1 0)).data.globalPerms =
      ((([.grant 5 none, .revoke 5 (some 1)] : List Command).foldl (step twoPermissions)
        (login twoPermissions [⟨1, 6, -1, false⟩] 1 1 0)).reloaded twoPermissions).globalPerms :=
  (reload_after_commands (by decide) (by decide) (by decide)).1
    ⟨fun _ => Or.inl rfl, fun _ => ⟨by decide +kernel, Or.inl (by decide +kernel)⟩, trivial⟩

end Connection

end IscServer.Accounts
