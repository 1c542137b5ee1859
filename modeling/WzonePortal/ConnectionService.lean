import WzonePortal.Repositories

/-! Creating and deleting connection records. -/
namespace WzonePortal

structure ConnectionCreateInput where
  displayName : String
  address : String
  port : ℤ
  username : String
  password : String
  verifyTls : Bool
  kind : ConnectionKind := .vcenter
  protocol : String := "https"
  authMethod : Option WinRmAuth := none
  sessionConfiguration : Option String := none
  deriving DecidableEq, Repr

structure Connection where
  connectionId : UUID
  kind : ConnectionKind
  displayName : String
  address : String
  port : ℤ
  username : String
  password : String
  protocol : Protocol := .https
  authMethod : Option WinRmAuth := none
  sessionConfiguration : Option String := none
  verifyTls : Bool := true
  status : ConnectionStatus := .active
  lastSuccessAt : Option Timestamp := none
  lastAttemptAt : Option Timestamp := none
  lastError : Option String := none
  deriving DecidableEq, Repr

namespace Connection

/-- The domain rules, checked in the source's order. -/
def validate (conn : Connection) : Except Exc Unit :=
  if ¬ (1 ≤ conn.port ∧ conn.port ≤ 65535) then
    .error (.validation "포트는 1~65535 범위여야 합니다." (some "port") [])
  else if conn.kind = .vcenter ∧ conn.protocol ≠ .https then
    .error (.validation "vCenter 연결은 HTTPS만 지원합니다." (some "protocol") [])
  else if conn.kind.usesWinrm ∧ conn.authMethod = none then
    .error (.validation "WinRM 연결은 인증 방식(NTLM/Kerberos/CredSSP)이 필요합니다."
      (some "auth_method") [])
  else if ¬ conn.kind.usesWinrm ∧ conn.authMethod ≠ none then
    .error (.validation "vCenter 연결에는 WinRM 인증 방식을 지정할 수 없습니다."
      (some "auth_method") [])
  else if conn.sessionConfiguration ≠ none ∧ conn.kind ≠ .hypervHost ∧
      conn.kind ≠ .hypervCluster then
    .error (.validation "JEA 세션 구성은 Hyper-V 호스트/클러스터 연결에만 지정할 수 있습니다."
      (some "session_configuration") [])
  else .ok ()

end Connection

namespace ConnectionRepository

def get (connectionId : UUID) : Service (Option ConnectionRow) := ask (.connectionById connectionId)

def findByTarget (address username : String) : Service (Option ConnectionRow) :=
  ask (.connectionByTarget address username)

def toRow (now : Timestamp) (conn : Connection) (encryptedPassword : String) : ConnectionRow where
  connectionId := conn.connectionId
  kind := conn.kind
  displayName := conn.displayName
  address := conn.address
  port := conn.port
  username := conn.username
  passwordEncrypted := encryptedPassword
  verifyTls := conn.verifyTls
  protocol := conn.protocol
  authMethod := conn.authMethod
  sessionConfiguration := conn.sessionConfiguration
  status := conn.status
  createdAt := now
  updatedAt := now

/-- The password of a stored connection is not read back. -/
def toDomain (row : ConnectionRow) : Connection where
  connectionId := row.connectionId
  kind := row.kind
  displayName := row.displayName
  address := row.address
  port := row.port
  username := row.username
  password := ""
  protocol := row.protocol
  authMethod := row.authMethod
  sessionConfiguration := row.sessionConfiguration
  verifyTls := row.verifyTls
  status := row.status
  lastSuccessAt := row.lastSuccessAt
  lastAttemptAt := row.lastAttemptAt
  lastError := row.lastError

def insert (now : Timestamp) (conn : Connection) (encryptedPassword : String) :
    Service Connection := do
  let row := toRow now conn encryptedPassword
  flush (.insertConnection row)
  pure (toDomain row)

def remove (connectionId : UUID) : Service Unit := do
  match ← ask (.connectionById connectionId) with
  | some _ => flush (.deleteConnection connectionId)
  | none => pure ()

end ConnectionRepository

namespace ConnectionService

def toConnection (ctx : Context) (payload : ConnectionCreateInput) : Connection where
  connectionId := ctx.uuid4
  kind := payload.kind
  displayName := payload.displayName
  address := payload.address
  port := payload.port
  username := payload.username
  password := payload.password
  protocol := if payload.protocol = "http" then .http else .https
  authMethod := payload.authMethod
  sessionConfiguration := payload.sessionConfiguration
  verifyTls := payload.verifyTls

def connectionEvent (env : Env) (ctx : Context) (scope : AccessScope) (action : AuditAction)
    (connectionId : UUID) (raw : List (String × Detail)) : AuditEvent where
  actor := some scope.username
  action := action
  result := .success
  actorIp := ctx.clientIp
  targetType := some "connection"
  targetId := some connectionId.str
  detail := buildDetail env.maskText action raw

def createDetail (payload : ConnectionCreateInput) : List (String × Detail) :=
  [("display_name",.text payload.displayName),("kind",.text payload.kind.value),
    ("address",.text payload.address),("port",.int payload.port)]

def duplicateError (existing : ConnectionRow) : Exc :=
  .duplicate "동일한 주소와 계정의 연결이 이미 등록되어 있습니다."
    [("existing_connection_id",.text existing.connectionId.str),
      ("existing_display_name",.text existing.displayName)]

def create (env : Env) (ctx : Context) (scope : AccessScope) (payload : ConnectionCreateInput) :
    Service Connection := do
  liftExcept (scope.require .connectionManage)
  match ← ConnectionRepository.findByTarget payload.address payload.username with
  | some existing => throw (duplicateError existing)
  | none =>
    let conn := toConnection ctx payload
    liftExcept conn.validate
    let created ← ConnectionRepository.insert ctx.now conn (env.encrypt payload.password)
    AuditRepository.record ctx.now
      (connectionEvent env ctx scope .connectionCreate created.connectionId (createDetail payload))
    pure created

def hasVmsError (vmCount : ℕ) : Exc :=
  .validation ("수집된 가상 머신 " ++ toString vmCount ++ "건이 있어 삭제할 수 없습니다. " ++
    "자원 보존 정책과 2단계 확인은 Step 3에서 제공합니다.")
    (some "connection_id") [("vm_count",.int vmCount)]

/-- A connection with collected machines is refused before the foreign key would refuse it. -/
def delete (env : Env) (ctx : Context) (scope : AccessScope) (connectionId : UUID) :
    Service Unit := do
  liftExcept (scope.require .connectionManage)
  match ← ConnectionRepository.get connectionId with
  | none => throw (.notFound "연결을 찾을 수 없습니다.")
  | some conn =>
    let vmCount ← ask (.countActiveVms connectionId)
    Script.require (vmCount = 0) (hasVmsError vmCount)
    ConnectionRepository.remove connectionId
    AuditRepository.record ctx.now
      (connectionEvent env ctx scope .connectionDelete connectionId
        [("display_name",.text conn.displayName),
          ("impact",.counts [("virtual_machine",vmCount)])])

end ConnectionService
end WzonePortal
