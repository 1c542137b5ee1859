import WzonePortal.Resource
import WzonePortal.Table

/-! The six tables, the queries the repositories send and the writes they flush. A write
answers with an error exactly where a constraint of the schema refuses it. -/
namespace WzonePortal

structure ConnectionRow where
  connectionId : UUID
  kind : ConnectionKind
  displayName : String
  address : String
  port : ℤ
  username : String
  passwordEncrypted : String
  verifyTls : Bool
  protocol : Protocol
  authMethod : Option WinRmAuth
  sessionConfiguration : Option String
  status : ConnectionStatus
  lastAttemptAt : Option Timestamp := none
  lastSuccessAt : Option Timestamp := none
  lastError : Option String := none
  createdAt : Timestamp
  updatedAt : Timestamp
  deriving DecidableEq, Repr

structure VirtualMachineRow where
  resourceId : UUID
  connectionId : UUID
  nativeId : String
  biosUuid : Option String
  name : String
  powerState : PowerState
  connectionState : ConnectionState
  vcpuCount : Option ℤ
  memoryMb : Option ℤ
  configuredOs : Option String
  guestAvailability : GuestInfoAvailability
  guestOsName : Option String
  guestOsSource : Option OsSource
  guestHostname : Option String
  guestObservedAt : Option Timestamp
  hostNativeId : Option String
  lifecycle : ResourceLifecycle
  firstSeenAt : Timestamp
  lastSeenAt : Timestamp
  deriving DecidableEq, Repr

structure ResourceIdentityRow where
  resourceId : UUID
  resourceType : ResourceType
  connectionId : UUID
  rule : ℕ
  keyValue : String
  deriving DecidableEq, Repr

structure UserRow where
  userId : UUID
  username : String
  passwordHash : String
  displayName : Option String
  email : Option String
  role : Role
  status : UserStatus
  approvedBy : Option String := none
  approvedAt : Option Timestamp := none
  rejectReason : Option String := none
  mustChangePassword : Bool := false
  failedLoginCount : ℤ := 0
  lockedUntil : Option Timestamp := none
  lastLoginAt : Option Timestamp := none
  createdAt : Timestamp
  updatedAt : Timestamp
  deriving DecidableEq, Repr

structure UserConnectionScopeRow where
  userId : UUID
  connectionId : UUID
  grantedBy : Option String
  grantedAt : Timestamp
  deriving DecidableEq, Repr

/-- The autoincrement key is the position in the table. -/
structure AuditEventRow where
  occurredAt : Timestamp
  actor : Option String
  action : AuditAction
  targetType : Option String
  targetId : Option String
  result : AuditResult
  clientIp : Option String
  detail : Option (List (String × Detail))
  deriving DecidableEq, Repr

def UserConnectionScopeRow.key (r : UserConnectionScopeRow) : UUID × UUID :=
  (r.userId,r.connectionId)

def ResourceIdentityRow.key (r : ResourceIdentityRow) : UUID × ℕ × String :=
  (r.resourceId,r.rule,r.keyValue)

structure Database where
  connections : Table ConnectionRow.connectionId
  virtualMachines : Table VirtualMachineRow.resourceId
  resourceIdentities : Table ResourceIdentityRow.key
  users : Table UserRow.userId
  userConnectionScopes : Table UserConnectionScopeRow.key
  auditEvents : List AuditEventRow

/-- Attribute assignments on a loaded user row; `none` leaves the column alone. -/
structure UserPatch where
  passwordHash : Option String := none
  role : Option Role := none
  status : Option UserStatus := none
  approvedBy : Option (Option String) := none
  approvedAt : Option (Option Timestamp) := none
  rejectReason : Option (Option String) := none
  mustChangePassword : Option Bool := none
  failedLoginCount : Option ℤ := none
  lockedUntil : Option (Option Timestamp) := none
  lastLoginAt : Option (Option Timestamp) := none
  updatedAt : Option Timestamp := none
  deriving DecidableEq, Repr

namespace UserPatch

def apply (p : UserPatch) (r : UserRow) : UserRow where
  userId := r.userId
  username := r.username
  passwordHash := p.passwordHash.getD r.passwordHash
  displayName := r.displayName
  email := r.email
  role := p.role.getD r.role
  status := p.status.getD r.status
  approvedBy := p.approvedBy.getD r.approvedBy
  approvedAt := p.approvedAt.getD r.approvedAt
  rejectReason := p.rejectReason.getD r.rejectReason
  mustChangePassword := p.mustChangePassword.getD r.mustChangePassword
  failedLoginCount := p.failedLoginCount.getD r.failedLoginCount
  lockedUntil := p.lockedUntil.getD r.lockedUntil
  lastLoginAt := p.lastLoginAt.getD r.lastLoginAt
  createdAt := r.createdAt
  updatedAt := p.updatedAt.getD r.updatedAt

@[simp] theorem apply_userId (p : UserPatch) (r : UserRow) : (p.apply r).userId = r.userId := rfl
@[simp] theorem apply_username (p : UserPatch) (r : UserRow) :
    (p.apply r).username = r.username := rfl
@[simp] theorem apply_role (p : UserPatch) (r : UserRow) :
    (p.apply r).role = p.role.getD r.role := rfl
@[simp] theorem apply_status (p : UserPatch) (r : UserRow) :
    (p.apply r).status = p.status.getD r.status := rfl

/-- The columns whose value really differs: the only ones the ORM's UPDATE carries. -/
def changedFrom (p : UserPatch) (r : UserRow) : UserPatch where
  passwordHash := p.passwordHash.filter (· ≠ r.passwordHash)
  role := p.role.filter (· ≠ r.role)
  status := p.status.filter (· ≠ r.status)
  approvedBy := p.approvedBy.filter (· ≠ r.approvedBy)
  approvedAt := p.approvedAt.filter (· ≠ r.approvedAt)
  rejectReason := p.rejectReason.filter (· ≠ r.rejectReason)
  mustChangePassword := p.mustChangePassword.filter (· ≠ r.mustChangePassword)
  failedLoginCount := p.failedLoginCount.filter (· ≠ r.failedLoginCount)
  lockedUntil := p.lockedUntil.filter (· ≠ r.lockedUntil)
  lastLoginAt := p.lastLoginAt.filter (· ≠ r.lastLoginAt)
  updatedAt := p.updatedAt.filter (· ≠ r.updatedAt)

theorem filter_ne_getD {α : Type} [DecidableEq α] (o : Option α) (a : α) :
    (o.filter (· ≠ a)).getD a = o.getD a := by
  cases o with
  | none => rfl
  | some b => by_cases hb : b = a <;> simp [Option.filter,hb]

/-- On the row it was made for, the shortened UPDATE does the same. -/
theorem changedFrom_apply (p : UserPatch) (r : UserRow) : (p.changedFrom r).apply r = p.apply r := by
  simp only [apply,changedFrom,filter_ne_getD]

theorem changedFrom_role (p : UserPatch) {r q : UserRow} (h : r.role = q.role) :
    ((p.changedFrom r).apply q).role = (p.apply q).role := by
  simp only [changedFrom,apply_role,h]
  exact filter_ne_getD p.role q.role

theorem changedFrom_status (p : UserPatch) {r q : UserRow} (h : r.status = q.status) :
    ((p.changedFrom r).apply q).status = (p.apply q).status := by
  simp only [changedFrom,apply_status,h]
  exact filter_ne_getD p.status q.status

end UserPatch

/-- PostgreSQL refuses U+0000 in a text value. -/
def storable (s : String) : Bool := '\x00' ∉ s.toList

def UserRow.storable (r : UserRow) : Bool :=
  r.username.length ≤ 64 && WzonePortal.storable r.username &&
    WzonePortal.storable r.passwordHash && r.displayName.all WzonePortal.storable &&
    r.email.all WzonePortal.storable && r.approvedBy.all WzonePortal.storable &&
    r.rejectReason.all WzonePortal.storable

def UserPatch.storable (p : UserPatch) : Bool :=
  p.passwordHash.all WzonePortal.storable &&
    p.approvedBy.all (fun v => v.all WzonePortal.storable) &&
    p.rejectReason.all (fun v => v.all WzonePortal.storable)

def ConnectionRow.storable (r : ConnectionRow) : Bool :=
  WzonePortal.storable r.displayName && WzonePortal.storable r.address &&
    WzonePortal.storable r.username && WzonePortal.storable r.passwordEncrypted &&
    r.sessionConfiguration.all WzonePortal.storable

/-- What the model leaves to the database server: which audit rows it accepts
(the `client_ip` column is INET, the detail is JSONB). -/
structure Dbms where
  acceptsAudit : AuditEventRow → Bool

namespace Database

def patchUser (db : Database) (userId : UUID) (p : UserPatch) : Database :=
  { db with users := db.users.modify userId p.apply p.apply_userId }

def addAudit (db : Database) (row : AuditEventRow) : Database :=
  { db with auditEvents := db.auditEvents ++ [row] }

def isActiveAdmin (r : UserRow) : Bool := r.role = .admin && r.status = .active

def countActiveAdmins (db : Database) (exclude : Option UUID) : ℕ :=
  (db.users.rows.filter fun r => isActiveAdmin r && exclude ≠ some r.userId).length

def scopesOf (db : Database) (userId : UUID) : List UUID :=
  (db.userConnectionScopes.rows.filter fun r => r.userId = userId).map (·.connectionId)

def countActiveVms (db : Database) (connectionId : UUID) : ℕ :=
  (db.virtualMachines.rows.filter fun r =>
    r.connectionId = connectionId && r.lifecycle = .active).length

end Database

/-- The row of each distinct identifier, first occurrence first. -/
def scopeRows (userId : UUID) (connectionIds : List UUID) (grantedBy : Option String)
    (at_ : Timestamp) : List UserConnectionScopeRow :=
  connectionIds.eraseDups.map fun c => ⟨userId,c,grantedBy,at_⟩

inductive Query
  | userByUsername (username : String)
  | userById (userId : UUID)
  | countActiveAdmins (exclude : Option UUID)
  | scopesOf (userId : UUID)
  | connectionById (connectionId : UUID)
  | connectionByTarget (address username : String)
  | countActiveVms (connectionId : UUID)
  deriving DecidableEq, Repr

@[reducible] def Query.Res : Query → Type
  | .userByUsername _ => Option UserRow
  | .userById _ => Option UserRow
  | .countActiveAdmins _ => ℕ
  | .scopesOf _ => List UUID
  | .connectionById _ => Option ConnectionRow
  | .connectionByTarget _ _ => Option ConnectionRow
  | .countActiveVms _ => ℕ

def Query.eval (db : Database) : (q : Query) → Except Exc q.Res
  | .userByUsername username =>
    if storable username then .ok (db.users.rows.find? fun r => r.username = username)
    else .error .dataError
  | .userById userId => .ok (db.users.find? userId)
  | .countActiveAdmins exclude => .ok (db.countActiveAdmins exclude)
  | .scopesOf userId => .ok (db.scopesOf userId)
  | .connectionById connectionId => .ok (db.connections.find? connectionId)
  | .connectionByTarget address username =>
    if storable address && storable username then
      .ok (db.connections.rows.find? fun r => r.address = address && r.username = username)
    else .error .dataError
  | .countActiveVms connectionId => .ok (db.countActiveVms connectionId)

inductive Write
  | insertUser (row : UserRow)
  | patchUser (userId : UUID) (p : UserPatch)
  | replaceScopes (userId : UUID) (connectionIds : List UUID) (grantedBy : Option String)
      (at_ : Timestamp)
  | insertAudit (row : AuditEventRow)
  | insertConnection (row : ConnectionRow)
  | deleteConnection (connectionId : UUID)
  deriving DecidableEq, Repr

/-- Every statement of a flush, with the constraints that can refuse it. -/
def Write.apply (dbms : Dbms) (db : Database) : Write → Except Exc Database
  | .insertUser row =>
    if !row.storable then .error .dataError
    else if db.users.rows.any (fun r => r.username = row.username) then .error .integrityError
    else match db.users.insert row with
      | none => .error .integrityError
      | some users => .ok { db with users := users }
  | .patchUser userId p =>
    if p.storable then .ok (db.patchUser userId p) else .error .dataError
  | .replaceScopes userId connectionIds grantedBy at_ =>
    let kept := db.userConnectionScopes.deleteWhere fun r => r.userId = userId
    if connectionIds.all (fun c => (db.connections.find? c).isSome &&
        (db.users.find? userId).isSome) then
      match kept.insertAll (scopeRows userId connectionIds grantedBy at_) with
      | none => .error .integrityError
      | some scopes => .ok { db with userConnectionScopes := scopes }
    else .error .integrityError
  | .insertAudit row =>
    if dbms.acceptsAudit row then .ok (db.addAudit row) else .error .dataError
  | .insertConnection row =>
    if !row.storable then .error .dataError
    else if db.connections.rows.any
        (fun r => r.address = row.address && r.username = row.username) then
      .error .integrityError
    else match db.connections.insert row with
      | none => .error .integrityError
      | some connections => .ok { db with connections := connections }
  | .deleteConnection connectionId =>
    if db.virtualMachines.rows.any (fun r => r.connectionId = connectionId) then
      .error .integrityError
    else .ok { db with
      connections := db.connections.deleteWhere fun r => r.connectionId = connectionId
      userConnectionScopes :=
        db.userConnectionScopes.deleteWhere fun r => r.connectionId = connectionId }

def Write.applyAll (dbms : Dbms) : List Write → Database → Except Exc Database
  | [], db => .ok db
  | w::ws, db => match w.apply dbms db with
    | .error e => .error e
    | .ok db' => applyAll dbms ws db'

namespace Write

section
variable {dbms : Dbms} {db db' : Database}

theorem apply_insertUser {row : UserRow} (h : (insertUser row).apply dbms db = .ok db') :
    row.storable = true ∧ ∃ users, db.users.insert row = some users ∧
      db' = { db with users := users } := by
  simp only [apply] at h
  split_ifs at h with hs _
  split at h <;> cases h
  rename_i users hu
  exact ⟨by simpa using hs,users,hu,rfl⟩

theorem apply_patchUser {userId : UUID} {p : UserPatch}
    (h : (patchUser userId p).apply dbms db = .ok db') :
    p.storable = true ∧ db' = db.patchUser userId p := by
  simp only [apply] at h
  split_ifs at h with hp
  exact ⟨hp,(Except.ok.inj h).symm⟩

theorem apply_replaceScopes {userId : UUID} {ids : List UUID} {grantedBy : Option String}
    {at_ : Timestamp} (h : (replaceScopes userId ids grantedBy at_).apply dbms db = .ok db') :
    (∀ c ∈ ids, (db.connections.find? c).isSome ∧ (db.users.find? userId).isSome) ∧
      ∃ scopes, (db.userConnectionScopes.deleteWhere fun r => r.userId = userId).insertAll
        (scopeRows userId ids grantedBy at_) = some scopes ∧
        db' = { db with userConnectionScopes := scopes } := by
  simp only [apply] at h
  split_ifs at h with hall
  split at h <;> cases h
  rename_i scopes hs
  exact ⟨by simpa using hall,scopes,hs,rfl⟩

theorem apply_insertAudit {row : AuditEventRow} (h : (insertAudit row).apply dbms db = .ok db') :
    dbms.acceptsAudit row = true ∧ db' = db.addAudit row := by
  simp only [apply] at h
  split_ifs at h with ha
  exact ⟨ha,(Except.ok.inj h).symm⟩

theorem apply_insertConnection {row : ConnectionRow}
    (h : (insertConnection row).apply dbms db = .ok db') :
    ∃ connections, db.connections.insert row = some connections ∧
      db' = { db with connections := connections } := by
  simp only [apply] at h
  split_ifs at h
  split at h <;> cases h
  rename_i connections hc
  exact ⟨connections,hc,rfl⟩

theorem apply_deleteConnection {c : UUID} (h : (deleteConnection c).apply dbms db = .ok db') :
    db' = { db with
      connections := db.connections.deleteWhere fun r => r.connectionId = c
      userConnectionScopes :=
        db.userConnectionScopes.deleteWhere fun r => r.connectionId = c } := by
  simp only [apply] at h
  split_ifs at h
  exact (Except.ok.inj h).symm

theorem applyAll_cons {w : Write} {ws : List Write} (h : applyAll dbms (w::ws) db = .ok db') :
    ∃ mid, w.apply dbms db = .ok mid ∧ applyAll dbms ws mid = .ok db' := by
  simp only [applyAll] at h
  cases hw : w.apply dbms db with
  | error e => rw [hw] at h; cases h
  | ok mid => rw [hw] at h; exact ⟨mid,rfl,h⟩

theorem applyAll_append (ws : List Write) (w : Write) (db : Database) :
    applyAll dbms (ws ++ [w]) db = applyAll dbms ws db >>= w.apply dbms := by
  induction ws generalizing db with
  | nil =>
    change applyAll dbms [w] db = w.apply dbms db
    simp only [applyAll]
    cases w.apply dbms db <;> rfl
  | cons x ws ih =>
    simp only [List.cons_append,applyAll]
    cases x.apply dbms db with
    | error e => rfl
    | ok mid => exact ih mid

end
end Write
end WzonePortal
