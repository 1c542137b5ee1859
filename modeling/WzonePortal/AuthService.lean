import WzonePortal.Repositories

/-! Login and password change. -/
namespace WzonePortal
namespace AuthService

open UserRepository

def genericFailure : String := "아이디 또는 비밀번호가 올바르지 않습니다."
def lockedMessage : String := "계정이 일시적으로 잠겨 있습니다. 잠시 후 다시 시도하세요."
def invalidSession : String := "세션이 유효하지 않습니다. 다시 로그인하세요."

def isLocked (row : UserRow) (now : Timestamp) : Bool :=
  match row.lockedUntil with
  | none => false
  | some until_ => now < until_

def normalize (env : Env) (username : String) : String := env.lower (env.strip username)

def failureEvent (env : Env) (ctx : Context) (username reason : String) : AuditEvent where
  actor := some username
  action := .login
  result := .failure
  actorIp := ctx.clientIp
  targetType := some "user"
  targetId := none
  detail := buildDetail env.maskText .login [("username",.text username),("reason",.text reason)]

def auditFailure (env : Env) (ctx : Context) (username reason : String) : Service Unit :=
  AuditRepository.record ctx.now (failureEvent env ctx username reason)

/-- An event about the caller's own account. -/
def selfEvent (env : Env) (ctx : Context) (action : AuditAction) (user : AuthenticatedUser) :
    AuditEvent where
  actor := some user.username
  action := action
  result := .success
  actorIp := ctx.clientIp
  targetType := some "user"
  targetId := some user.userId.str
  detail := buildDetail env.maskText action [("username",.text user.username)]

/-- The status is disclosed only after the password was right. -/
def login (env : Env) (ctx : Context) (username password : String) :
    Service (String × AuthenticatedUser) := do
  let normalized := normalize env username
  match ← findRowByUsername normalized with
  | none =>
    auditFailure env ctx normalized "invalid_credentials"
    throw (.authentication genericFailure)
  | some row =>
    if isLocked row ctx.now then
      auditFailure env ctx normalized "locked"
      throw (.authentication lockedMessage)
    else
      let verdict := verifyPassword env ctx password row.passwordHash
      if !verdict.1 then
        registerFailure ctx.now env.settings row.userId
        auditFailure env ctx normalized "invalid_credentials"
        throw (.authentication genericFailure)
      else if row.status ∉ loginAllowed then
        auditFailure env ctx normalized ("status_" ++ row.status.value)
        match statusMessage row.status with
        | some message => throw (.authentication message)
        | none => throw .keyError
      else
        match verdict.2 with
        | some newHash => updateHash ctx.now row.userId newHash row.mustChangePassword
        | none => pure ()
        resetFailures ctx.now row.userId
        let user := toAuthenticated row
        AuditRepository.record ctx.now (selfEvent env ctx .login user)
        pure (env.createAccessToken user env.settings ctx.now,user)

def changePassword (env : Env) (ctx : Context) (user : AuthenticatedUser)
    (current new : String) : Service Unit := do
  match ← getRow user.userId with
  | none => throw (.authentication invalidSession)
  | some row =>
    Script.require (verifyPassword env ctx current row.passwordHash).1
      (.validation "현재 비밀번호가 올바르지 않습니다." (some "current_password") [])
    liftExcept (validatePasswordPolicy new)
    Script.require (new ≠ current)
      (.validation "이전과 다른 비밀번호를 사용하세요." (some "new_password") [])
    let newHash ← liftExcept (hashPassword env ctx new)
    updateHash ctx.now user.userId newHash false
    AuditRepository.record ctx.now (selfEvent env ctx .passwordChange user)

end AuthService
end WzonePortal
