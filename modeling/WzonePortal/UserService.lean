import WzonePortal.AuthService

/-! Registration and the administrator's operations on accounts. -/
namespace WzonePortal

open UserRepository

structure RegisterRequest where
  username : String
  password : String
  displayName : Option String
  email : Option String
  deriving DecidableEq, Repr

namespace RegistrationService

def usernameChars : List Char := "abcdefghijklmnopqrstuvwxyz0123456789._-".toList

/-- `^[a-z0-9._-]{3,64}$` on the whole text. -/
def usernamePattern (s : String) : Bool :=
  3 ≤ s.length && s.length ≤ 64 && s.toList.all (· ∈ usernameChars)

def registerEvent (env : Env) (ctx : Context) (action : AuditAction) (result : AuditResult)
    (username : String) : AuditEvent where
  actor := some username
  action := action
  result := result
  actorIp := ctx.clientIp
  targetType := some "user"
  targetId := none
  detail := buildDetail env.maskText action [("username",.text username)]

/-- A taken username gets the same answer; only the audit row tells the difference. -/
def register (env : Env) (ctx : Context) (payload : RegisterRequest) : Service Unit := do
  let normalized := AuthService.normalize env payload.username
  Script.require (usernamePattern normalized)
    (.validation "아이디는 3~64자의 영문 소문자·숫자·`.`·`_`·`-`만 사용할 수 있습니다."
      (some "username") [])
  liftExcept (validatePasswordPolicy payload.password)
  match ← findRowByUsername normalized with
  | some _ =>
    AuditRepository.record ctx.now
      (registerEvent env ctx .userRegisterDuplicate .failure normalized)
  | none =>
    let passwordHash ← liftExcept (hashPassword env ctx payload.password)
    add ctx normalized passwordHash payload.displayName payload.email .viewer .pending
    AuditRepository.record ctx.now (registerEvent env ctx .userRegister .success normalized)

end RegistrationService

/-- Which target states the transition table allows. -/
def checkTransition (current target : UserStatus) : Except Exc Unit :=
  if target ∈ allowedTransitions current then .ok ()
  else .error (.validation
    (current.value ++ " → " ++ target.value ++ " 상태 전이는 허용되지 않습니다.")
    (some "status") [])

namespace UserAdminService

def requireUser (userId : UUID) : Service UserRow := do
  match ← getRow userId with
  | some row => pure row
  | none => throw (.notFound "사용자를 찾을 수 없습니다.")

def guardSelf (actor : AccessScope) (userId : UUID) (message : String) : Except Exc Unit :=
  if actor.userId = userId then .error (.validation message (some "user_id") []) else .ok ()

def lastAdminMessage : String := "마지막 관리자입니다. 다른 관리자를 지정한 뒤에 변경하세요."

/-- Refuse when no active administrator other than `userId` is counted. -/
def guardLastAdmin (userId : UUID) : Service Unit := do
  let others ← countActiveAdmins (some userId)
  Script.require (others ≠ 0) (.validation lastAdminMessage none [])

def adminEvent (env : Env) (ctx : Context) (actor : AccessScope) (action : AuditAction)
    (userId : UUID) (raw : List (String × Detail)) : AuditEvent where
  actor := some actor.username
  action := action
  result := .success
  actorIp := ctx.clientIp
  targetType := some "user"
  targetId := some userId.str
  detail := buildDetail env.maskText action raw

def record (env : Env) (ctx : Context) (actor : AccessScope) (action : AuditAction)
    (userId : UUID) (raw : List (String × Detail)) : Service Unit :=
  AuditRepository.record ctx.now (adminEvent env ctx actor action userId raw)

def grantedIds (role : Role) (connectionIds : List UUID) : List UUID :=
  if role = .admin then [] else connectionIds

def approve (env : Env) (ctx : Context) (actor : AccessScope) (userId : UUID) (role : Role)
    (connectionIds : List UUID) : Service Unit := do
  liftExcept (actor.require .userManage)
  let row ← requireUser userId
  liftExcept (checkTransition row.status .active)
  setStatus ctx.now userId .active (some actor.username) none
  setRole ctx.now userId role
  let ids := grantedIds role connectionIds
  ScopeRepository.replace ctx.now userId ids (some actor.username)
  record env ctx actor .userApprove userId
    [("username",.text row.username),("role",.text role.value),("connection_count",.int ids.length)]

def reject (env : Env) (ctx : Context) (actor : AccessScope) (userId : UUID)
    (reason : Option String) : Service Unit := do
  liftExcept (actor.require .userManage)
  let row ← requireUser userId
  liftExcept (checkTransition row.status .rejected)
  setStatus ctx.now userId .rejected none reason
  record env ctx actor .userReject userId
    [("username",.text row.username),("reason",reason.elim .null .text)]

def disable (env : Env) (ctx : Context) (actor : AccessScope) (userId : UUID) : Service Unit := do
  liftExcept (actor.require .userManage)
  let row ← requireUser userId
  liftExcept (guardSelf actor userId "자기 자신의 계정 상태는 변경할 수 없습니다.")
  liftExcept (checkTransition row.status .disabled)
  if row.role = .admin then guardLastAdmin userId else pure ()
  setStatus ctx.now userId .disabled none none
  record env ctx actor .userDisable userId [("username",.text row.username)]

def enable (env : Env) (ctx : Context) (actor : AccessScope) (userId : UUID) : Service Unit := do
  liftExcept (actor.require .userManage)
  let row ← requireUser userId
  liftExcept (checkTransition row.status .active)
  setStatus ctx.now userId .active (some actor.username) none
  record env ctx actor .userEnable userId [("username",.text row.username)]

def changeRole (env : Env) (ctx : Context) (actor : AccessScope) (userId : UUID) (role : Role) :
    Service Unit := do
  liftExcept (actor.require .userManage)
  let row ← requireUser userId
  liftExcept (guardSelf actor userId "자기 자신의 역할은 변경할 수 없습니다.")
  if row.role = .admin ∧ role ≠ .admin then guardLastAdmin userId else pure ()
  setRole ctx.now userId role
  if role = .admin then ScopeRepository.replace ctx.now userId [] (some actor.username)
    else pure ()
  record env ctx actor .userRoleChange userId
    [("username",.text row.username),("role",.text role.value)]

def setScopes (env : Env) (ctx : Context) (actor : AccessScope) (userId : UUID)
    (connectionIds : List UUID) : Service Unit := do
  liftExcept (actor.require .userManage)
  let row ← requireUser userId
  Script.require (row.role ≠ .admin)
    (.validation "관리자는 범위 제한을 받지 않습니다." (some "role") [])
  ScopeRepository.replace ctx.now userId connectionIds (some actor.username)
  record env ctx actor .scopeUpdate userId
    [("username",.text row.username),("connection_count",.int connectionIds.length)]

/-- The temporary password is returned and never stored in clear. -/
def resetPassword (env : Env) (ctx : Context) (actor : AccessScope) (userId : UUID) :
    Service String := do
  liftExcept (actor.require .userManage)
  let row ← requireUser userId
  let temporary := generateTemporaryPassword ctx
  let passwordHash ← liftExcept (hashPassword env ctx temporary)
  updateHash ctx.now userId passwordHash true
  record env ctx actor .userPasswordReset userId [("username",.text row.username)]
  pure temporary

end UserAdminService
end WzonePortal
