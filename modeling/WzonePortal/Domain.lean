import WzonePortal.Uuid

/-! Roles, account life cycle, access scopes, audit events and the exceptions that the
services raise, with their messages. Times are microseconds, texts are Unicode strings. -/
namespace WzonePortal

abbrev Timestamp := ℤ

def microsecondsPerMinute : ℤ := 60000000

inductive Role
  | viewer | operator | admin
  deriving DecidableEq, Repr

def Role.value : Role → String
  | .viewer => "viewer"
  | .operator => "operator"
  | .admin => "admin"

inductive Permission
  | resourceRead | metadataWrite | connectionManage | collectionTrigger | userManage
  | export_ | auditRead
  deriving DecidableEq, Repr

def Permission.value : Permission → String
  | .resourceRead => "resource.read"
  | .metadataWrite => "metadata.write"
  | .connectionManage => "connection.manage"
  | .collectionTrigger => "collection.trigger"
  | .userManage => "user.manage"
  | .export_ => "export"
  | .auditRead => "audit.read"

def rolePermissions : Role → List Permission
  | .viewer => [.resourceRead,.export_]
  | .operator => [.resourceRead,.metadataWrite,.export_]
  | .admin => [.resourceRead,.metadataWrite,.connectionManage,.collectionTrigger,.userManage,
      .export_,.auditRead]

inductive UserStatus
  | pending | active | disabled | rejected
  deriving DecidableEq, Repr

def UserStatus.value : UserStatus → String
  | .pending => "pending"
  | .active => "active"
  | .disabled => "disabled"
  | .rejected => "rejected"

def loginAllowed : List UserStatus := [.active]

/-- The target states of each state; `rejected` is final. -/
def allowedTransitions : UserStatus → List UserStatus
  | .pending => [.active,.rejected]
  | .active => [.disabled]
  | .disabled => [.active]
  | .rejected => []

def statusMessage : UserStatus → Option String
  | .pending => some "가입 신청이 검토 중입니다. 관리자 승인 후 로그인할 수 있습니다."
  | .rejected => some "가입이 승인되지 않았습니다. 관리자에게 문의하세요."
  | .disabled => some "비활성화된 계정입니다. 관리자에게 문의하세요."
  | .active => none

/-- Values that go into an error's or an audit event's detail. -/
inductive Detail
  | text (s : String)
  | int (n : ℤ)
  | bool (b : Bool)
  | null
  | counts (entries : List (String × ℕ))
  deriving DecidableEq, Repr

/-- Domain errors, HTTP errors raised by dependencies, and errors of the database layer. -/
inductive Exc
  | validation (message : String) (field : Option String) (detail : List (String × Detail))
  | authentication (message : String)
  | permission (message : String)
  | notFound (message : String)
  | duplicate (message : String) (detail : List (String × Detail))
  | http (statusCode : ℕ) (detail : String)
  | keyError
  | integrityError
  | dataError
  | pendingRollback
  deriving DecidableEq, Repr

theorem bind_eq_ok {α β : Type} {x : Except Exc α} {f : α → Except Exc β} {b : β} :
    (x >>= f) = .ok b ↔ ∃ a, x = .ok a ∧ f a = .ok b := by
  cases x with
  | ok a => exact ⟨fun h => ⟨a,rfl,h⟩,fun ⟨a',ha,hf⟩ => by cases ha; exact hf⟩
  | error e => exact ⟨fun h => (by cases h),fun ⟨a,ha,_⟩ => by cases ha⟩

structure AuthenticatedUser where
  userId : UUID
  username : String
  displayName : Option String
  role : Role
  status : UserStatus
  mustChangePassword : Bool
  deriving DecidableEq, Repr

def AuthenticatedUser.has (u : AuthenticatedUser) (p : Permission) : Bool :=
  p ∈ rolePermissions u.role

def AuthenticatedUser.canSignIn (u : AuthenticatedUser) : Bool := u.status ∈ loginAllowed

/-- `none` allows everything, an empty set nothing. -/
structure AccessScope where
  userId : UUID
  username : String
  role : Role
  allowedConnectionIds : Option (Finset UUID)
  deriving DecidableEq

namespace AccessScope

def isUnrestricted (s : AccessScope) : Bool := s.allowedConnectionIds.isNone

def isEmpty (s : AccessScope) : Bool :=
  match s.allowedConnectionIds with
  | none => false
  | some ids => ids = ∅

def canAccess (s : AccessScope) (connectionId : UUID) : Bool :=
  match s.allowedConnectionIds with
  | none => true
  | some ids => connectionId ∈ ids

/-- The permission check that services repeat behind the router's. -/
def require (s : AccessScope) (p : Permission) : Except Exc Unit :=
  if p ∈ rolePermissions s.role then .ok () else .error (.permission ("권한이 없습니다: " ++ p.value))

end AccessScope

def buildScope (user : AuthenticatedUser) (connectionIds : List UUID) : AccessScope where
  userId := user.userId
  username := user.username
  role := user.role
  allowedConnectionIds := if user.role = .admin then none else some connectionIds.toFinset

theorem buildScope_isUnrestricted (user : AuthenticatedUser) (ids : List UUID) :
    (buildScope user ids).isUnrestricted = true ↔ user.role = .admin := by
  by_cases h : user.role = .admin <;> simp [buildScope,AccessScope.isUnrestricted,h]

inductive AuditAction
  | login | logout | passwordChange | connectionCreate | connectionDelete | connectionTest
  | collectionTrigger | userRegister | userRegisterDuplicate | userApprove | userReject
  | userDisable | userEnable | userRoleChange | userPasswordReset | scopeUpdate
  deriving DecidableEq, Repr

/-- The detail keys that an action may record; everything else is dropped. -/
def allowedDetailKeys : AuditAction → List String
  | .login => ["username","reason"]
  | .logout => ["username"]
  | .passwordChange => ["username"]
  | .connectionCreate => ["display_name","kind","address","port"]
  | .connectionDelete => ["display_name","impact"]
  | .connectionTest => ["is_usable","failed_stage"]
  | .collectionTrigger => ["display_name"]
  | .userRegister => ["username"]
  | .userRegisterDuplicate => ["username"]
  | .userApprove => ["username","role","connection_count"]
  | .userReject => ["username","reason"]
  | .userDisable => ["username"]
  | .userEnable => ["username"]
  | .userRoleChange => ["username","role"]
  | .userPasswordReset => ["username"]
  | .scopeUpdate => ["username","connection_count"]

inductive AuditResult
  | success | failure
  deriving DecidableEq, Repr

structure AuditEvent where
  actor : Option String
  action : AuditAction
  result : AuditResult
  actorIp : Option String
  targetType : Option String
  targetId : Option String
  detail : List (String × Detail)
  deriving DecidableEq, Repr

def scrub (maskText : String → String) : Detail → Detail
  | .text s => .text (maskText s)
  | d => d

def buildDetail (maskText : String → String) (action : AuditAction)
    (raw : List (String × Detail)) : List (String × Detail) :=
  (raw.filter fun kv => kv.1 ∈ allowedDetailKeys action).map fun kv => (kv.1,scrub maskText kv.2)

end WzonePortal
