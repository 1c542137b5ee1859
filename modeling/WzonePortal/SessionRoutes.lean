import WzonePortal.Api
import WzonePortal.StageRunner

/-! The remaining requests that record an audit row: login, logout and the test of a connection
that is not stored; and the calls of the portal, each one session. -/
namespace WzonePortal

def CheckStage.value : CheckStage → String
  | .reachable => "reachable"
  | .tlsValid => "tls_valid"
  | .authenticated => "authenticated"
  | .authorized => "authorized"

namespace AuthService

def recordLogout (env : Env) (ctx : Context) (user : AuthenticatedUser) : Service Unit :=
  AuditRepository.record ctx.now (selfEvent env ctx .logout user)

end AuthService

/-- What a reader answers to a connection, its session closed again. -/
abbrev ReaderCheck := Connection → Except Exc ConnectionCheckResult

namespace ConnectionService

def testEvent (env : Env) (ctx : Context) (scope : AccessScope) (conn : Connection)
    (result : ConnectionCheckResult) : AuditEvent :=
  { connectionEvent env ctx scope .connectionTest conn.connectionId
      [("is_usable",.bool result.isUsable),
        ("failed_stage",result.failedStage.elim .null fun stage => .text stage.value)] with
    result := if result.isUsable then .success else .failure }

def runCheck (env : Env) (ctx : Context) (scope : AccessScope) (check : ReaderCheck)
    (conn : Connection) : Service ConnectionCheckResult := do
  let result ← liftExcept (check conn)
  AuditRepository.record ctx.now (testEvent env ctx scope conn result)
  pure result

def checkUnsaved (env : Env) (ctx : Context) (scope : AccessScope) (check : ReaderCheck)
    (payload : ConnectionCreateInput) : Service ConnectionCheckResult := do
  liftExcept (scope.require .connectionManage)
  let conn := toConnection ctx payload
  liftExcept conn.validate
  runCheck env ctx scope check conn

end ConnectionService

namespace Routes

/-- The cookie is deleted in the browser; the server only records the logout. -/
def logout (env : Env) (ctx : Context) : Service Unit := do
  let user ← Deps.getCurrentUser ctx.cookie
  AuthService.recordLogout env ctx user
  commit

def testUnsavedConnection (env : Env) (ctx : Context) (check : ReaderCheck)
    (payload : ConnectionCreateInput) : Service ConnectionCheckResult := do
  let scope ← Deps.authorize ctx "/api/v1/connections/test" .connectionManage
  let result ← ConnectionService.checkUnsaved env ctx scope check payload
  commit
  pure result

end Routes

inductive PortalRequest
  | request (req : Request)
  | login (username password : String)
  | logout
  | testConnection (payload : ConnectionCreateInput) (check : ReaderCheck)

inductive PortalAnswer
  | answered (response : Response)
  | session (token : String) (user : UserResponse)
  | loggedOut
  | checked (result : ConnectionCheckResult)

/-- One call of the portal together with what it brings from outside. -/
structure PortalCall where
  ctx : Context
  request : PortalRequest

def PortalRequest.handler (env : Env) (ctx : Context) : PortalRequest → Service PortalAnswer
  | .request req => do
    let response ← req.handler env ctx
    pure (.answered response)
  | .login username password => do
    let (token,user) ← Routes.login env ctx username password
    pure (.session token user)
  | .logout => do
    Routes.logout env ctx
    pure .loggedOut
  | .testConnection payload check => do
    let result ← Routes.testUnsavedConnection env ctx check payload
    pure (.checked result)

def PortalCall.script (env : Env) (call : PortalCall) : Service PortalAnswer :=
  getDb (call.request.handler env call.ctx)

end WzonePortal
