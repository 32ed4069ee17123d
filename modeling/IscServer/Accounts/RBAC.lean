import IscServer.Library.Keyed
import IscServer.Library.WorkList

/-!
# Account Permissions

An account may be granted permissions and denied others, on one realm or on all (`-1`). While it is
connected the server keeps the permissions granted and denied on its realm, and the effective ones: what
the granted permissions are linked to, without what the denied ones are linked to. `LoadFromDB` puts the
lists together from the rows of the account and from the defaults of its security level; the commands
change the lists at once and send a statement to the database.

## Main definitions

* `RBACData.grantPermission`, `RBACData.denyPermission`, `RBACData.revokePermission` — the operations of
  the commands, with the statements they send.
* `RBACData.loadFromDB` — what the rows of an account mean at its next login.
* `Connection.step` — a command on a connected account.
-/

namespace IscServer.Accounts

/-! ### Permissions -/

/-- The permissions of `AccountMgr`: those there are, what they are linked to, and the defaults of the
security levels. -/
structure AccountMgr where
  permissions : Finset ℕ
  linkedPermissions : ℕ → Finset ℕ
  defaultPermissions : ℕ → Finset ℕ

/-- `RBACCommandResult`. -/
inductive RBACCommandResult
  | ok | cantAddAlreadyAdded | cantRevokeNotInList | inGrantedList | inDeniedList | idDoesNotExists
  deriving DecidableEq

/-! ### The table -/

/-- A row of `rbac_account_permissions`. -/
structure AccountPermission where
  accountId : ℕ
  permissionId : ℕ
  realmId : ℤ
  granted : Bool
  deriving DecidableEq

/-- The primary key. -/
def AccountPermission.key (row : AccountPermission) : ℕ × ℕ × ℤ :=
  (row.accountId, row.permissionId, row.realmId)

/-- The statements that change the table. -/
inductive Statement
  /-- `LOGIN_INS_RBAC_ACCOUNT_PERMISSION`. -/
  | insert (row : AccountPermission)
  /-- `LOGIN_DEL_RBAC_ACCOUNT_PERMISSION`. -/
  | delete (accountId permissionId : ℕ) (realmId : ℤ)

/-- A statement is executed. An insertion overwrites the row with the same key, and a deletion is always
about all realms, too. -/
def Statement.execute (rows : List AccountPermission) : Statement → List AccountPermission
  | insert row => Keyed.assign AccountPermission.key rows row
  | delete accountId permissionId realmId =>
    rows.filter fun row =>
      !(row.accountId = accountId && row.permissionId = permissionId &&
        (row.realmId = realmId || row.realmId = -1))

/-- The order of a selection: by permission, then by realm. -/
def AccountPermission.le (a b : AccountPermission) : Prop :=
  a.permissionId < b.permissionId ∨ (a.permissionId = b.permissionId ∧ a.realmId ≤ b.realmId)

instance : DecidableRel AccountPermission.le := fun _ _ => inferInstanceAs (Decidable (_ ∨ _))

/-- `LOGIN_SEL_RBAC_ACCOUNT_PERMISSIONS`. -/
def selectAccountPermissions (rows : List AccountPermission) (accountId : ℕ) (realmId : ℤ) :
    List AccountPermission :=
  (rows.filter fun row =>
    row.accountId = accountId && (row.realmId = realmId || row.realmId = -1)).insertionSort
      AccountPermission.le

/-! ### The data of an account -/

/-- `RBACData`. -/
@[ext]
structure RBACData where
  id : ℕ
  realmId : ℤ
  secLevel : ℕ
  grantedPerms : Finset ℕ
  deniedPerms : Finset ℕ
  globalPerms : Finset ℕ
  deriving DecidableEq

namespace RBACData

variable (mgr : AccountMgr)

/-- The constructor. -/
def new (id : ℕ) (realmId : ℤ) (secLevel : ℕ) : RBACData where
  id := id
  realmId := realmId
  secLevel := secLevel
  grantedPerms := ∅
  deniedPerms := ∅
  globalPerms := ∅

/-- `RBACData::ExpandPermissions`. -/
def expandPermissions (permissions : Finset ℕ) : Finset ℕ :=
  WorkList.expand mgr.permissions mgr.linkedPermissions permissions

/-- `RBACData::CalculateNewPermissions`. -/
def calculateNewPermissions (data : RBACData) : RBACData :=
  { data with
    globalPerms := expandPermissions mgr data.grantedPerms \ expandPermissions mgr data.deniedPerms }

/-- `RBACData::SavePermission`. -/
def savePermission (data : RBACData) (permission : ℕ) (granted : Bool) (realm : ℤ) : Statement :=
  .insert { accountId := data.id, permissionId := permission, realmId := realm, granted := granted }

/-- `RBACData::GrantPermission`; realm 0 means that the permission comes from the database. -/
def grantPermission (data : RBACData) (permissionId : ℕ) (realmId : ℤ) :
    RBACCommandResult × RBACData × List Statement :=
  if permissionId ∉ mgr.permissions then (.idDoesNotExists, data, [])
  else if permissionId ∈ data.deniedPerms then (.inDeniedList, data, [])
  else if permissionId ∈ data.grantedPerms then (.cantAddAlreadyAdded, data, [])
  else
    let data := { data with grantedPerms := insert permissionId data.grantedPerms }
    if realmId ≠ 0 then
      (.ok, data.calculateNewPermissions mgr, [data.savePermission permissionId true realmId])
    else (.ok, data, [])

/-- `RBACData::DenyPermission`. -/
def denyPermission (data : RBACData) (permissionId : ℕ) (realmId : ℤ) :
    RBACCommandResult × RBACData × List Statement :=
  if permissionId ∉ mgr.permissions then (.idDoesNotExists, data, [])
  else if permissionId ∈ data.grantedPerms then (.inGrantedList, data, [])
  else if permissionId ∈ data.deniedPerms then (.cantAddAlreadyAdded, data, [])
  else
    let data := { data with deniedPerms := insert permissionId data.deniedPerms }
    if realmId ≠ 0 then
      (.ok, data.calculateNewPermissions mgr, [data.savePermission permissionId false realmId])
    else (.ok, data, [])

/-- `RBACData::RevokePermission`. -/
def revokePermission (data : RBACData) (permissionId : ℕ) (realmId : ℤ) :
    RBACCommandResult × RBACData × List Statement :=
  if permissionId ∉ data.grantedPerms ∧ permissionId ∉ data.deniedPerms then
    (.cantRevokeNotInList, data, [])
  else
    let data := { data with
      grantedPerms := data.grantedPerms.erase permissionId
      deniedPerms := data.deniedPerms.erase permissionId }
    if realmId ≠ 0 then
      (.ok, data.calculateNewPermissions mgr, [.delete data.id permissionId realmId])
    else (.ok, data, [])

/-- A row in `RBACData::LoadFromDBCallback`. -/
def loadRow (data : RBACData) (row : AccountPermission) : RBACData :=
  if row.granted then (data.grantPermission mgr row.permissionId 0).2.1
  else (data.denyPermission mgr row.permissionId 0).2.1

/-- A default permission in `RBACData::LoadFromDBCallback`. -/
def loadDefault (data : RBACData) (permission : ℕ) : RBACData :=
  (data.grantPermission mgr permission 0).2.1

/-- `RBACData::LoadFromDBCallback`. -/
def loadFromDBCallback (data : RBACData) (result : List AccountPermission) : RBACData :=
  (((mgr.defaultPermissions data.secLevel).sort (· ≤ ·)).foldl (loadDefault mgr)
    (result.foldl (loadRow mgr) data)).calculateNewPermissions mgr

/-- `RBACData::ClearData`. -/
def clearData (data : RBACData) : RBACData :=
  { data with grantedPerms := ∅, deniedPerms := ∅, globalPerms := ∅ }

/-- `RBACData::LoadFromDB`. -/
def loadFromDB (data : RBACData) (rows : List AccountPermission) : RBACData :=
  data.clearData.loadFromDBCallback mgr (selectAccountPermissions rows data.id data.realmId)

end RBACData

/-! ### Commands -/

/-- The command that is given, with its permission and realm; all realms when none is given. -/
inductive Command
  | grant (permId : ℕ) (realmId : Option ℤ)
  | deny (permId : ℕ) (realmId : Option ℤ)
  | revoke (permId : ℕ) (realmId : Option ℤ)
  deriving DecidableEq

/-- The permission of a command. -/
def Command.permId : Command → ℕ
  | grant permId _ | deny permId _ | revoke permId _ => permId

/-- The realm of a command. -/
def Command.realmId : Command → ℤ
  | grant _ realmId | deny _ realmId | revoke _ realmId => realmId.getD (-1)

/-- A connected account, and the table when all statements so far have been executed. -/
structure Connection where
  data : RBACData
  rows : List AccountPermission

namespace Connection

variable (mgr : AccountMgr)

/-- `HandleRBACPermGrantCommand`, `HandleRBACPermDenyCommand` and `HandleRBACPermRevokeCommand`. -/
def handle (c : Connection) (command : Command) : RBACCommandResult × RBACData × List Statement :=
  match command with
  | .grant permId _ => c.data.grantPermission mgr permId command.realmId
  | .deny permId _ => c.data.denyPermission mgr permId command.realmId
  | .revoke permId _ => c.data.revokePermission mgr permId command.realmId

/-- The command is carried out, and its statements are executed. -/
def step (c : Connection) (command : Command) : Connection where
  data := (c.handle mgr command).2.1
  rows := (c.handle mgr command).2.2.foldl Statement.execute c.rows

/-- The account connects. -/
def login (rows : List AccountPermission) (id : ℕ) (realmId : ℤ) (secLevel : ℕ) : Connection where
  data := (RBACData.new id realmId secLevel).loadFromDB mgr rows
  rows := rows

/-- The data of the account at its next login. -/
def reloaded (c : Connection) : RBACData :=
  (RBACData.new c.data.id c.data.realmId c.data.secLevel).loadFromDB mgr c.rows

end Connection

end IscServer.Accounts
