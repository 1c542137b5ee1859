import WzonePortal.UserService
import WzonePortal.ConnectionService

/-! Authentication dependencies and the request handlers: each calls one service method,
then commits. -/
namespace WzonePortal

namespace Deps

def getCurrentUser (cookie : Cookie) : Service AuthenticatedUser := do
  match cookie with
  | .missing => throw (.http 401 "인증이 필요합니다.")
  | .invalid => throw (.http 401 AuthService.invalidSession)
  | .valid claims =>
    match ← UserRepository.get claims.sub with
    | none => throw (.http 401 AuthService.invalidSession)
    | some user =>
      Script.require user.canSignIn (.http 401 AuthService.invalidSession)
      pure user

def passwordExemptPaths : List String :=
  ["/api/v1/auth/me","/api/v1/auth/change-password","/api/v1/auth/logout"]

def getActiveUser (path : String) (user : AuthenticatedUser) : Except Exc AuthenticatedUser :=
  if user.mustChangePassword ∧ path ∉ passwordExemptPaths then
    .error (.http 403 "비밀번호를 먼저 변경해야 합니다.")
  else .ok user

/-- The scope is read from the database on every request, never from the token. -/
def getAccessScope (user : AuthenticatedUser) : Service AccessScope := do
  if user.role = .admin then pure (buildScope user [])
  else
    let ids ← ScopeRepository.listForUser user.userId
    pure (buildScope user ids)

def currentScope (cookie : Cookie) (path : String) : Service AccessScope := do
  let current ← getCurrentUser cookie
  let user ← liftExcept (getActiveUser path current)
  getAccessScope user

def require (p : Permission) (user : AuthenticatedUser) : Except Exc Unit :=
  if user.has p then .ok () else .error (.http 403 ("권한이 없습니다: " ++ p.value))

/-- The dependencies of a protected route, in resolution order. -/
def authorize (ctx : Context) (path : String) (p : Permission) : Service AccessScope := do
  let current ← getCurrentUser ctx.cookie
  let user ← liftExcept (getActiveUser path current)
  liftExcept (require p user)
  getAccessScope user

end Deps

structure UserResponse where
  userId : UUID
  username : String
  displayName : Option String
  email : Option String
  role : Role
  status : UserStatus
  mustChangePassword : Bool
  scopes : Option (List UUID)
  lastLoginAt : Option Timestamp
  createdAt : Option Timestamp
  deriving DecidableEq, Repr

def toUserResponse (user : AuthenticatedUser) (row : Option UserRow)
    (scopes : Option (List UUID)) : UserResponse where
  userId := user.userId
  username := user.username
  displayName := user.displayName
  email := row.bind (·.email)
  role := user.role
  status := user.status
  mustChangePassword := user.mustChangePassword
  scopes := scopes
  lastLoginAt := row.bind (·.lastLoginAt)
  createdAt := row.map (·.createdAt)

structure ConnectionResponse where
  connectionId : UUID
  kind : ConnectionKind
  displayName : String
  address : String
  port : ℤ
  username : String
  hasPassword : Bool := true
  verifyTls : Bool
  status : ConnectionStatus
  lastSuccessAt : Option Timestamp
  lastAttemptAt : Option Timestamp
  lastError : Option String
  vmCount : ℕ := 0
  deriving DecidableEq, Repr

def ConnectionResponse.fromDomain (conn : Connection) (vmCount : ℕ) : ConnectionResponse where
  connectionId := conn.connectionId
  kind := conn.kind
  displayName := conn.displayName
  address := conn.address
  port := conn.port
  username := conn.username
  verifyTls := conn.verifyTls
  status := conn.status
  lastSuccessAt := conn.lastSuccessAt
  lastAttemptAt := conn.lastAttemptAt
  lastError := conn.lastError
  vmCount := vmCount

inductive Response
  | accepted (message : String)
  | noContent
  | temporaryPassword (temporary : String)
  | created (connection : ConnectionResponse)
  deriving DecidableEq, Repr

/-- The state-changing requests that record an audit row and commit. -/
inductive Request
  | register (payload : RegisterRequest)
  | approve (userId : UUID) (role : Role) (connectionIds : List UUID)
  | reject (userId : UUID) (reason : Option String)
  | disable (userId : UUID)
  | enable (userId : UUID)
  | changeRole (userId : UUID) (role : Role)
  | setScopes (userId : UUID) (connectionIds : List UUID)
  | resetPassword (userId : UUID)
  | changePassword (current new : String)
  | createConnection (payload : ConnectionCreateInput)
  | deleteConnection (connectionId : UUID)
  deriving DecidableEq, Repr

namespace Routes

def registerAcceptedMessage : String :=
  "가입 신청이 접수되었습니다. 관리자 승인 후 로그인할 수 있습니다."

def userPath (userId : UUID) (suffix : String) : String := "/api/v1/users/" ++ userId.str ++ suffix

def connectionPath (connectionId : UUID) : String := "/api/v1/connections/" ++ connectionId.str

def register (env : Env) (ctx : Context) (payload : RegisterRequest) : Service Response := do
  RegistrationService.register env ctx payload
  commit
  pure (.accepted registerAcceptedMessage)

/-- A route of the user administration: authorize, call the service, commit. -/
def userRoute (ctx : Context) (path : String) (method : AccessScope → Service Unit) :
    Service Response := do
  let scope ← Deps.authorize ctx path .userManage
  method scope
  commit
  pure .noContent

def approveUser (env : Env) (ctx : Context) (userId : UUID) (role : Role)
    (connectionIds : List UUID) : Service Response :=
  userRoute ctx (userPath userId "/approve") fun scope =>
    UserAdminService.approve env ctx scope userId role connectionIds

def rejectUser (env : Env) (ctx : Context) (userId : UUID) (reason : Option String) :
    Service Response :=
  userRoute ctx (userPath userId "/reject") fun scope =>
    UserAdminService.reject env ctx scope userId reason

def disableUser (env : Env) (ctx : Context) (userId : UUID) : Service Response :=
  userRoute ctx (userPath userId "/disable") fun scope =>
    UserAdminService.disable env ctx scope userId

def enableUser (env : Env) (ctx : Context) (userId : UUID) : Service Response :=
  userRoute ctx (userPath userId "/enable") fun scope =>
    UserAdminService.enable env ctx scope userId

def updateUser (env : Env) (ctx : Context) (userId : UUID) (role : Role) : Service Response :=
  userRoute ctx (userPath userId "") fun scope =>
    UserAdminService.changeRole env ctx scope userId role

def replaceScopes (env : Env) (ctx : Context) (userId : UUID) (connectionIds : List UUID) :
    Service Response :=
  userRoute ctx (userPath userId "/scopes") fun scope =>
    UserAdminService.setScopes env ctx scope userId connectionIds

def resetPassword (env : Env) (ctx : Context) (userId : UUID) : Service Response := do
  let scope ← Deps.authorize ctx (userPath userId "/reset-password") .userManage
  let temporary ← UserAdminService.resetPassword env ctx scope userId
  commit
  pure (.temporaryPassword temporary)

def changePassword (env : Env) (ctx : Context) (current new : String) : Service Response := do
  let user ← Deps.getCurrentUser ctx.cookie
  let user ← liftExcept (Deps.getActiveUser "/api/v1/auth/change-password" user)
  AuthService.changePassword env ctx user current new
  commit
  pure .noContent

def createConnection (env : Env) (ctx : Context) (payload : ConnectionCreateInput) :
    Service Response := do
  let scope ← Deps.authorize ctx "/api/v1/connections" .connectionManage
  let created ← ConnectionService.create env ctx scope payload
  commit
  pure (.created (ConnectionResponse.fromDomain created 0))

def deleteConnection (env : Env) (ctx : Context) (connectionId : UUID) : Service Response := do
  let scope ← Deps.authorize ctx (connectionPath connectionId) .connectionManage
  ConnectionService.delete env ctx scope connectionId
  commit
  pure .noContent

/-- `POST /auth/login`: the token goes into the cookie, the body describes the user. -/
def login (env : Env) (ctx : Context) (username password : String) :
    Service (String × UserResponse) := do
  let (token,user) ← AuthService.login env ctx username password
  commit
  let row ← UserRepository.getRow user.userId
  if user.role = .admin then pure (token,toUserResponse user row none)
  else
    let ids ← ScopeRepository.listForUser user.userId
    pure (token,toUserResponse user row (some ids))

end Routes

def Request.handler (env : Env) (ctx : Context) : Request → Service Response
  | .register payload => Routes.register env ctx payload
  | .approve userId role ids => Routes.approveUser env ctx userId role ids
  | .reject userId reason => Routes.rejectUser env ctx userId reason
  | .disable userId => Routes.disableUser env ctx userId
  | .enable userId => Routes.enableUser env ctx userId
  | .changeRole userId role => Routes.updateUser env ctx userId role
  | .setScopes userId ids => Routes.replaceScopes env ctx userId ids
  | .resetPassword userId => Routes.resetPassword env ctx userId
  | .changePassword current new => Routes.changePassword env ctx current new
  | .createConnection payload => Routes.createConnection env ctx payload
  | .deleteConnection connectionId => Routes.deleteConnection env ctx connectionId

end WzonePortal
