import WzonePortal.StageRunner
import WzonePortal.ConnectionService

/-! The connection checks of the three readers, around every pattern of answers and failures
of their remote calls. The vCenter reader reads the server version after its stages, outside
of any handler; that read is the one failure that a check does not turn into a result. -/
namespace WzonePortal

def WinRmAuth.value : WinRmAuth → String
  | .ntlm => "ntlm"
  | .kerberos => "kerberos"
  | .credssp => "credssp"

def ResourceType.value : ResourceType → String
  | .virtualMachine => "virtual_machine"
  | .host => "host"
  | .cluster => "cluster"
  | .datastore => "datastore"
  | .network => "network"
  | .snapshot => "snapshot"

/-- The error module of an adapter and the masking of messages. -/
structure ErrorTexts where
  translateError : Raised → Raised
  sanitizeError : Raised → String
  isNoPermission : Raised → Bool

/-- The answers to the TCP probe of the first stage. -/
structure TcpAnswers where
  openConnection : Except Raised Unit
  waitClosed : Except Raised Unit

section
variable {σ α : Type}

def remote (answer : Except Raised α) : Check σ α := fun s => (answer,s)

/-- `except Exception: raise translate_error(exc) from None`. -/
def translating (texts : ErrorTexts) (fn : Check σ α) : Check σ α :=
  tryCatch fn fun e => throw (texts.translateError e)

/-- `except Exception` with nothing but a log line. -/
def ignoring (fn : Check σ Unit) : Check σ Unit := tryCatch fn fun _ => pure ()

def checkReachable (conn : Connection) (tcp : TcpAnswers) : Check σ (Option String) := do
  remote tcp.openConnection
  remote tcp.waitClosed
  pure (some (conn.address ++ ":" ++ toString conn.port))

def readableText (readable : List ResourceType) : String :=
  "조회 가능: " ++ String.intercalate ", " ((readable.map (·.value)).mergeSort (· ≤ ·))

end

namespace VCenterReader

/-- The answers to the page requests of the probe. -/
inductive PageAnswers
  | refused (e : Raised)
  | missing
  | last (objects : ℕ)
  | more (objects : ℕ) (next : PageAnswers)

/-- The answers to every call of one check, each at the place where it is made. -/
structure Answers where
  tcp : TcpAnswers
  smartConnect : Except Raised Unit
  viewContent : Except Raised Bool
  createContainerView : Except Raised Unit
  pages : PageAnswers
  destroyView : Except Raised Unit
  about : Except Raised String
  disconnect : Except Raised Unit

structure Attributes where
  isOpen : Bool := false
  readable : List ResourceType := []

section
variable (texts : ErrorTexts) (conn : Connection) (calls : Answers)

def startSession : Check Attributes Unit := do
  translating texts (remote calls.smartConnect)
  modify fun s => { s with isOpen := true }

def closeSession : Check Attributes Unit := do
  let s ← get
  if s.isOpen then do
    ignoring (remote calls.disconnect)
    modify fun s => { s with isOpen := false }
  else pure ()

def content {α : Type} (answer : Except Raised α) : Check Attributes α := do
  let s ← get
  if s.isOpen then remote answer
  else throw (.portal "CollectionError" "세션이 열려 있지 않습니다.")

def checkTls : Check Attributes (Option String) :=
  pure (some (if conn.verifyTls then "인증서 검증 사용" else "검증 안 함 (verify_tls=false)"))

def checkAuth : Check Attributes (Option String) := do
  startSession texts calls
  pure (some conn.username)

def createView : Check Attributes Unit := do
  let viewManager ← content calls.viewContent
  if viewManager then remote calls.createContainerView
  else throw (.portal "CollectionError"
    "ViewManager에 접근할 수 없습니다. 계정 권한을 확인하세요.")

/-- Pages until one has an object or there is none left. -/
def firstObject : PageAnswers → Check Attributes Unit
  | .refused e => content (.error e)
  | .missing => content (.ok ())
  | .last _ => content (.ok ())
  | .more objects next => do
    content (.ok ())
    if objects > 0 then pure () else firstObject next

def probe : Check Attributes Unit := do
  createView calls
  try firstObject calls.pages
  finally ignoring (remote calls.destroyView)
  modify fun s => { s with readable := .virtualMachine::s.readable }

def checkAuthorized : Check Attributes (Option String) := do
  tryCatch (probe calls) fun e =>
    if texts.isNoPermission e then pure () else throw (texts.translateError e)
  let s ← get
  if s.readable = [] then throw (.permission "조회 권한이 있는 자원 유형이 없습니다.")
  else pure (some (readableText s.readable))

def stages : List (CheckStage × Check Attributes (Option String)) :=
  [(.reachable,checkReachable conn calls.tcp),(.tlsValid,checkTls conn),
    (.authenticated,checkAuth texts conn calls),(.authorized,checkAuthorized texts calls)]

def checkConnection : Check Attributes ConnectionCheckResult := do
  let runner ← StageRunner.runStages texts.sanitizeError (stages texts conn calls) {}
  let s ← get
  let serverVersion ← if s.isOpen then some <$> content calls.about else pure none
  closeSession calls
  pure ⟨runner.results,s.readable,serverVersion⟩

end
end VCenterReader

namespace HyperVSession

/-- The first object of the probe's output, as its entries are used: by truth or as a text. -/
structure Probe where
  vm : Bool := false
  wmi : Bool := false
  module : Bool := false
  os : Option String := none
  version : Option String := none
  role : Option String := none

/-- The output of a script: the joined error records, if it had any, and what it parses to. -/
structure Output where
  errors : Option String
  parsed : Except String (List Probe)

structure Answers where
  tcp : TcpAnswers
  newWsman : Except Raised Unit
  newPool : Except Raised Unit
  openPool : Except Raised Unit
  invoke : Except Raised Output
  closePool : Except Raised Unit
  closeWsman : Except Raised Unit

structure Attributes where
  pool : Bool := false
  wsman : Bool := false
  serverVersion : Option String := none
  readable : List ResourceType := []

section
variable (texts : ErrorTexts) (conn : Connection) (calls : Answers)

def openSync : Check Attributes Unit :=
  match conn.authMethod with
  | none => throw (.portal "ValidationError" "Hyper-V 연결은 인증 방식이 필요합니다.")
  | some _ => do
    remote calls.newWsman
    modify fun s => { s with wsman := true }
    remote calls.newPool
    remote calls.openPool

def disposeWsman : Check Attributes Unit := do
  let s ← get
  if s.wsman then do
    ignoring (remote calls.closeWsman)
    modify fun s => { s with wsman := false }
  else pure ()

def startSession : Check Attributes Unit := do
  tryCatch (openSync conn calls) fun e => do
    disposeWsman calls
    throw (texts.translateError e)
  modify fun s => { s with pool := true }

def closeSession : Check Attributes Unit := do
  let s ← get
  if s.pool then do
    ignoring (remote calls.closePool)
    modify fun s => { s with pool := false }
  else pure ()
  disposeWsman calls

def invokeSync : Check Attributes Output := do
  let s ← get
  if s.pool then do
    let output ← remote calls.invoke
    match output.errors with
    | some errors => throw (.portal "CollectionError" ("PowerShell 실행 오류: " ++
        texts.sanitizeError (.other "" errors)))
    | none => pure output
  else throw (.portal "CollectionError" "세션이 열려 있지 않습니다.")

def invokeJson : Check Attributes (List Probe) := do
  let output ← translating texts (invokeSync texts calls)
  match output.parsed with
  | .ok rows => pure rows
  | .error message => throw (.portal "CollectionError" ("PowerShell JSON 파싱 실패: " ++ message))

def checkTls : Check Attributes (Option String) :=
  pure (some (if conn.protocol = .http then "HTTP — 전송 계층 암호화 없음"
    else if conn.verifyTls then "인증서 검증 사용" else "검증 안 함 (verify_tls=false)"))

/-- The frame of both checks: the stages, then the end of the session. -/
def runCheck (stages : List (CheckStage × Check Attributes (Option String))) :
    Check Attributes ConnectionCheckResult := do
  let runner ← StageRunner.runStages texts.sanitizeError stages {}
  closeSession calls
  let s ← get
  pure ⟨runner.results,s.readable,s.serverVersion⟩

def authText : String := (conn.authMethod.map WinRmAuth.value).getD "?"

end
end HyperVSession

namespace HyperVHostReader

open HyperVSession

section
variable (texts : ErrorTexts) (conn : Connection) (calls : HyperVSession.Answers)

def checkAuth : Check HyperVSession.Attributes (Option String) := do
  startSession texts conn calls
  let jea := match conn.sessionConfiguration with
    | some configuration => ", JEA: " ++ configuration
    | none => ""
  pure (some (conn.username ++ " (" ++ authText conn ++ jea ++ ")"))

def checkAuthorized : Check HyperVSession.Attributes (Option String) := do
  let rows ← invokeJson texts calls
  let probe := rows.headD {}
  modify fun s => { s with serverVersion := probe.os }
  if probe.vm then modify fun s => { s with readable := .virtualMachine::s.readable }
  else pure ()
  let s ← get
  if s.readable = [] then throw (.permission
    "Hyper-V VM 조회 권한이 없습니다. JEA 역할 또는 계정 권한을 확인하세요.")
  else pure (some (readableText s.readable ++
    if probe.wmi then "" else " · KVP(WMI) 접근 불가 — 게스트 OS·IP를 수집할 수 없습니다"))

def stages : List (CheckStage × Check HyperVSession.Attributes (Option String)) :=
  [(.reachable,checkReachable conn calls.tcp),(.tlsValid,HyperVSession.checkTls conn),
    (.authenticated,checkAuth texts conn calls),(.authorized,checkAuthorized texts calls)]

def checkConnection : Check HyperVSession.Attributes ConnectionCheckResult :=
  runCheck texts calls (stages texts conn calls)

end
end HyperVHostReader

namespace ScvmmReader

open HyperVSession

section
variable (texts : ErrorTexts) (conn : Connection) (calls : HyperVSession.Answers)

def checkAuth : Check HyperVSession.Attributes (Option String) := do
  startSession texts conn calls
  pure (some (conn.username ++ " (" ++ authText conn ++ ")"))

def checkAuthorized : Check HyperVSession.Attributes (Option String) := do
  let rows ← invokeJson texts calls
  let probe := rows.headD {}
  if !probe.module then throw (.portal "ValidationError"
    ("대상 서버에서 SCVMM 모듈을 찾을 수 없습니다. " ++
      "SCVMM 관리 서버 주소가 맞는지, 연결 유형이 올바른지 확인하세요."))
  else pure ()
  modify fun s => { s with serverVersion := some (match probe.version with
    | some version => "SCVMM " ++ version
    | none => "SCVMM") }
  if probe.vm then modify fun s => { s with readable := .virtualMachine::s.readable }
  else pure ()
  let s ← get
  if s.readable = [] then throw (.permission "조회 권한이 있는 자원 유형이 없습니다.")
  else pure (some (readableText s.readable ++ match probe.role with
    | some role => " (VMM 역할: " ++ role ++ ")"
    | none => ""))

def stages : List (CheckStage × Check HyperVSession.Attributes (Option String)) :=
  [(.reachable,checkReachable conn calls.tcp),(.tlsValid,HyperVSession.checkTls conn),
    (.authenticated,checkAuth texts conn calls),(.authorized,checkAuthorized texts calls)]

def checkConnection : Check HyperVSession.Attributes ConnectionCheckResult :=
  runCheck texts calls (stages texts conn calls)

end
end ScvmmReader

/-- The check returns a result of the promised form and leaves the session closed. -/
def ChecksAndCloses {σ : Type} (check : Check σ ConnectionCheckResult) (fresh : σ)
    (closed : σ → Prop) : Prop :=
  ∃ result, (check.run fresh).1 = .ok result ∧ Reported result ∧ closed (check.run fresh).2

/-- The stages of a vCenter check get as far as a session. -/
def VCenterReader.SignsIn (calls : Answers) : Prop :=
  calls.tcp.openConnection = .ok () ∧ calls.tcp.waitClosed = .ok () ∧ calls.smartConnect = .ok ()

section
variable {σ α β : Type} {describe : Raised → String} {r : StageRunner} {s s' : σ}

theorem run_bind_of_ok {x : Check σ α} {a : α} (h : x.run s = (.ok a,s')) (f : α → Check σ β) :
    (x >>= f).run s = (f a).run s' := by
  have hx : x s = (.ok a,s') := h
  change (ExceptT.bindCont f (x s).1 (x s).2 : Except Raised β × σ) = _
  rw [hx]
  rfl

theorem run_bind_of_error {x : Check σ α} {e : Raised} (h : x.run s = (.error e,s'))
    (f : α → Check σ β) : (x >>= f).run s = (.error e,s') := by
  have hx : x s = (.error e,s') := h
  change (ExceptT.bindCont f (x s).1 (x s).2 : Except Raised β × σ) = _
  rw [hx]
  rfl

theorem run_tryCatch_of_ok {x : Check σ α} {a : α} (h : x.run s = (.ok a,s'))
    (handler : Raised → Check σ α) : (tryCatch x handler).run s = (.ok a,s') := by
  have hx : x s = (.ok a,s') := h
  simp only [ExceptT.run,tryCatch,tryCatchThe,MonadExceptOf.tryCatch,ExceptT.tryCatch,
    ExceptT.mk,bind,StateT.bind,hx]
  rfl

theorem run_tryCatch_of_error {x : Check σ α} {e : Raised} (h : x.run s = (.error e,s'))
    (handler : Raised → Check σ α) : (tryCatch x handler).run s = (handler e).run s' := by
  have hx : x s = (.error e,s') := h
  simp only [ExceptT.run,tryCatch,tryCatchThe,MonadExceptOf.tryCatch,ExceptT.tryCatch,
    ExceptT.mk,bind,StateT.bind,hx]

theorem run_tryFinally {x : Check σ α} {y : Check σ β} {result : Except Raised α}
    {result' : Except Raised β} {s'' : σ} (h : x.run s = (result,s'))
    (h' : y.run s' = (result',s'')) : ((tryFinally x y).run s).2 = s'' := by
  have hx : x s = (result,s') := h
  have hy : y s' = (result',s'') := h'
  cases result <;> cases result' <;>
    (simp only [ExceptT.run,tryFinally,tryFinally',Functor.map,ExceptT.map,
      ExceptT.mk,bind,StateT.bind,hx,hy]
     rfl)

theorem run_runStages (stages : List (CheckStage × Check σ (Option String))) (s : σ)
    (f : StageRunner → Check σ β) :
    ((StageRunner.runStages describe stages {} : Check σ StageRunner) >>= f).run s =
      (f (StageRunner.runStages describe stages {} s).1).run
        (StageRunner.runStages describe stages {} s).2 := rfl

end

section
variable {texts : ErrorTexts} {conn : Connection}

theorem HyperVSession.closeSession_run (calls : Answers) (s : Attributes) :
    (closeSession calls).run s = (.ok (),{ s with pool := false, wsman := false }) := by
  obtain ⟨pool,wsman,serverVersion,readable⟩ := s
  obtain ⟨_,_,_,_,_,closePool,closeWsman⟩ := calls
  cases pool <;> cases wsman <;> cases closePool <;> cases closeWsman <;> rfl

theorem HyperVSession.runCheck_run (calls : Answers)
    (stages : List (CheckStage × Check Attributes (Option String))) (s : Attributes)
    (final : StageRunner × Attributes)
    (hfinal : StageRunner.runStages texts.sanitizeError stages {} s = final) :
    (runCheck texts calls stages).run s =
      (.ok ⟨final.1.results,final.2.readable,final.2.serverVersion⟩,
        { final.2 with pool := false, wsman := false }) := by
  subst hfinal
  rw [runCheck,run_runStages,run_bind_of_ok (closeSession_run calls _)]
  rfl

theorem HyperVSession.checksAndCloses_runCheck (calls : Answers)
    {stages : List (CheckStage × Check Attributes (Option String))}
    (hstages : stages.map (·.1) = [.reachable,.tlsValid,.authenticated,.authorized]) :
    ChecksAndCloses (runCheck texts calls stages) {} fun s => s.pool = false ∧ s.wsman = false := by
  have hrun := @runCheck_run texts calls stages {} _ rfl
  have hreported := reported_of_runStages texts.sanitizeError stages ({} : Attributes) hstages
  unfold ChecksAndCloses
  rw [hrun]
  exact ⟨_,rfl,hreported _ _,rfl,rfl⟩

theorem VCenterReader.closeSession_run (calls : Answers) (s : Attributes) :
    (closeSession calls).run s = (.ok (),{ s with isOpen := false }) := by
  obtain ⟨isOpen,readable⟩ := s
  obtain ⟨_,_,_,_,_,_,_,disconnect⟩ := calls
  cases isOpen <;> cases disconnect <;> rfl

theorem VCenterReader.checkConnection_run (calls : Answers) (final : StageRunner × Attributes)
    (hfinal : StageRunner.runStages texts.sanitizeError (stages texts conn calls) {} {} = final) :
    (checkConnection texts conn calls).run {} =
      if final.2.isOpen then
        (calls.about.map fun version => ⟨final.1.results,final.2.readable,some version⟩,
          { final.2 with isOpen := !calls.about.isOk })
      else (.ok ⟨final.1.results,final.2.readable,none⟩,final.2) := by
  rw [checkConnection,run_runStages,hfinal]
  obtain ⟨runner,isOpen,readable⟩ := final
  obtain ⟨_,_,_,_,_,_,about,disconnect⟩ := calls
  cases isOpen <;> cases about <;> cases disconnect <;> rfl

theorem VCenterReader.checksAndCloses_iff (calls : Answers) :
    ChecksAndCloses (checkConnection texts conn calls) {} (fun s => s.isOpen = false) ↔
      ¬ ((StageRunner.runStages texts.sanitizeError (stages texts conn calls) {}
        ({} : Attributes)).2.isOpen = true ∧ ∃ e, calls.about = .error e) := by
  have hreported := reported_of_runStages texts.sanitizeError (stages texts conn calls)
    ({} : Attributes) rfl
  have hrun := @checkConnection_run texts conn calls _ rfl
  generalize StageRunner.runStages texts.sanitizeError (stages texts conn calls) {}
    ({} : Attributes) = final at hreported hrun
  unfold ChecksAndCloses
  rw [hrun]
  cases hopen : final.2.isOpen with
  | false => simpa [hopen] using hreported _ _
  | true =>
    cases ha : calls.about with
    | ok version => simpa [Except.map,Except.isOk,Except.toBool] using hreported _ _
    | error e => simp [Except.map]

/-- A method that does not touch the session. -/
def VCenterReader.KeepsOpen {α : Type} (c : Check Attributes α) : Prop :=
  ∀ s, (c.run s).2.isOpen = s.isOpen

namespace VCenterReader

variable {α β : Type}

theorem KeepsOpen.bind {c : Check Attributes α} {f : α → Check Attributes β} (hc : KeepsOpen c)
    (hf : ∀ a, KeepsOpen (f a)) : KeepsOpen (c >>= f) := by
  intro s
  rcases h : c.run s with ⟨e | a,s'⟩
  · rw [run_bind_of_error h]
    have hs := hc s
    rw [h] at hs
    exact hs
  · rw [run_bind_of_ok h,hf a s']
    have hs := hc s
    rw [h] at hs
    exact hs

theorem KeepsOpen.tryCatch {c : Check Attributes α} {handler : Raised → Check Attributes α}
    (hc : KeepsOpen c) (hh : ∀ e, KeepsOpen (handler e)) : KeepsOpen (tryCatch c handler) := by
  intro s
  rcases h : c.run s with ⟨e | a,s'⟩
  · rw [run_tryCatch_of_error h,hh e s']
    have hs := hc s
    rw [h] at hs
    exact hs
  · rw [run_tryCatch_of_ok h]
    have hs := hc s
    rw [h] at hs
    exact hs

theorem keepsOpen_remote (answer : Except Raised α) : KeepsOpen (remote answer) := fun _ => rfl

theorem keepsOpen_throw (e : Raised) : KeepsOpen (throw e : Check Attributes α) := fun _ => rfl

theorem keepsOpen_pure (a : α) : KeepsOpen (pure a : Check Attributes α) := fun _ => rfl

theorem keepsOpen_get : KeepsOpen (get : Check Attributes Attributes) := fun _ => rfl

theorem KeepsOpen.tryFinally {c : Check Attributes α} {r : Check Attributes Unit}
    (hc : KeepsOpen c) (hr : KeepsOpen r) : KeepsOpen (tryFinally c r) := by
  intro s
  have hs := hc s
  rcases h : c.run s with ⟨result,s'⟩
  rw [h] at hs
  have hs' := hr s'
  rcases h' : r.run s' with ⟨result',s''⟩
  rw [h'] at hs'
  rw [run_tryFinally h h',hs',hs]

theorem keepsOpen_modify {f : Attributes → Attributes} (hf : ∀ s, (f s).isOpen = s.isOpen) :
    KeepsOpen (modify f : Check Attributes PUnit) := hf

theorem keepsOpen_ignoring {c : Check Attributes Unit} (hc : KeepsOpen c) :
    KeepsOpen (ignoring c) := hc.tryCatch fun _ => keepsOpen_pure ()

theorem keepsOpen_content (answer : Except Raised α) : KeepsOpen (content answer) := by
  refine keepsOpen_get.bind fun s => ?_
  split
  · exact keepsOpen_remote answer
  · exact keepsOpen_throw _

theorem keepsOpen_createView (calls : Answers) : KeepsOpen (createView calls) := by
  refine (keepsOpen_content _).bind fun viewManager => ?_
  split
  · exact keepsOpen_remote _
  · exact keepsOpen_throw _

theorem keepsOpen_firstObject (pages : PageAnswers) : KeepsOpen (firstObject pages) := by
  induction pages with
  | refused e => exact keepsOpen_content _
  | missing => exact keepsOpen_content _
  | last objects => exact keepsOpen_content _
  | more objects next ih =>
    refine (keepsOpen_content _).bind fun _ => ?_
    split
    · exact keepsOpen_pure ()
    · exact ih

theorem keepsOpen_probe (calls : Answers) : KeepsOpen (probe calls) :=
  (keepsOpen_createView calls).bind fun _ =>
    ((keepsOpen_firstObject calls.pages).tryFinally
      (keepsOpen_ignoring (keepsOpen_remote _))).bind fun _ => keepsOpen_modify fun _ => rfl

theorem keepsOpen_checkAuthorized (texts : ErrorTexts) (calls : Answers) :
    KeepsOpen (checkAuthorized texts calls) := by
  refine KeepsOpen.bind (KeepsOpen.tryCatch (keepsOpen_probe calls) fun e => ?_) fun _ => ?_
  · split
    · exact keepsOpen_pure ()
    · exact keepsOpen_throw _
  · refine keepsOpen_get.bind fun s => ?_
    split
    · exact keepsOpen_throw _
    · exact keepsOpen_pure _

theorem KeepsOpen.run_stage {fn : Check Attributes (Option String)} (h : KeepsOpen fn)
    (stage : CheckStage) (describe : Raised → String) (r : StageRunner) (s : Attributes) :
    (StageRunner.run describe stage fn r s).2.isOpen = s.isOpen := by
  have hs := h s
  unfold StageRunner.run
  split
  · rfl
  · rcases hfn : fn.run s with ⟨e | detail,s'⟩ <;> (rw [hfn] at hs; exact hs)

theorem isOpen_stages_iff (calls : Answers) :
    (StageRunner.runStages texts.sanitizeError (stages texts conn calls) {}
      ({} : Attributes)).2.isOpen = true ↔ SignsIn calls := by
  have hlast := (keepsOpen_checkAuthorized texts calls).run_stage .authorized texts.sanitizeError
  have hrun : ∀ r s, (StageRunner.runStages texts.sanitizeError (stages texts conn calls) r s).2 =
      (StageRunner.run texts.sanitizeError .authorized (checkAuthorized texts calls)
        (StageRunner.runStages texts.sanitizeError
          [(.reachable,checkReachable conn calls.tcp),(.tlsValid,checkTls conn),
            (.authenticated,checkAuth texts conn calls)] r s).1
        (StageRunner.runStages texts.sanitizeError
          [(.reachable,checkReachable conn calls.tcp),(.tlsValid,checkTls conn),
            (.authenticated,checkAuth texts conn calls)] r s).2).2 := fun _ _ => rfl
  rw [hrun,hlast]
  obtain ⟨⟨openConnection,waitClosed⟩,smartConnect,viewContent,createContainerView,pages,
    destroyView,about,disconnect⟩ := calls
  unfold SignsIn
  cases openConnection with
  | error e => exact ⟨fun h => (by cases h),fun h => (by cases h.1)⟩
  | ok u => cases waitClosed with
    | error e => exact ⟨fun h => (by cases h),fun h => (by cases h.2.1)⟩
    | ok u' => cases smartConnect with
      | error e => exact ⟨fun h => (by cases h),fun h => (by cases h.2.2)⟩
      | ok u'' => exact ⟨fun _ => ⟨rfl,rfl,rfl⟩,fun _ => rfl⟩

end VCenterReader

end

/-- A check reports and closes its session in every case but one: a vCenter that has let the
reader in does not answer the request for its version. -/
theorem check_connection_reports_iff (texts : ErrorTexts) (conn : Connection) :
    (∀ calls, ChecksAndCloses (VCenterReader.checkConnection texts conn calls) {}
        (fun s => s.isOpen = false) ↔
      ¬ (VCenterReader.SignsIn calls ∧ ∃ e, calls.about = .error e)) ∧
    (∀ calls, ChecksAndCloses (HyperVHostReader.checkConnection texts conn calls) {}
      fun s => s.pool = false ∧ s.wsman = false) ∧
    ∀ calls, ChecksAndCloses (ScvmmReader.checkConnection texts conn calls) {}
      fun s => s.pool = false ∧ s.wsman = false := by
  refine ⟨fun calls => ?_,fun calls => ?_,fun calls => ?_⟩
  · rw [VCenterReader.checksAndCloses_iff,VCenterReader.isOpen_stages_iff]
  · exact HyperVSession.checksAndCloses_runCheck calls rfl
  · exact HyperVSession.checksAndCloses_runCheck calls rfl

/-- A vCenter that is restarted after the sign-in and before the request for its version. -/
def restartedVCenter : VCenterReader.Answers where
  tcp := ⟨.ok (),.ok ()⟩
  smartConnect := .ok ()
  viewContent := .ok true
  createContainerView := .ok ()
  pages := .last 1
  destroyView := .ok ()
  about := .error (.other "ConnectionResetError" "connection reset by peer")
  disconnect := .ok ()

def checkedConnection : Connection where
  connectionId := 7
  kind := .vcenter
  displayName := "vc"
  address := "vc.local"
  port := 443
  username := "reader"
  password := "secret"

/-- All four stages pass, and the check raises with the session still open. -/
theorem restarted_vcenter_not_reported :
    ¬ (∀ (texts : ErrorTexts) (conn : Connection) (calls : VCenterReader.Answers),
      ChecksAndCloses (VCenterReader.checkConnection texts conn calls) {} fun s => s.isOpen = false) ∧
    ((VCenterReader.checkConnection ⟨id,Raised.text,fun _ => false⟩ checkedConnection
        restartedVCenter).run {}).1 =
      .error (.other "ConnectionResetError" "connection reset by peer") ∧
    ((VCenterReader.checkConnection ⟨id,Raised.text,fun _ => false⟩ checkedConnection
        restartedVCenter).run {}).2.isOpen = true := by
  have hrun : ((VCenterReader.checkConnection ⟨id,Raised.text,fun _ => false⟩ checkedConnection
      restartedVCenter).run {}).1 =
      .error (.other "ConnectionResetError" "connection reset by peer") := rfl
  refine ⟨fun h => ?_,hrun,rfl⟩
  obtain ⟨result,hresult,-⟩ := h ⟨id,Raised.text,fun _ => false⟩ checkedConnection restartedVCenter
  rw [hrun] at hresult
  cases hresult

end WzonePortal
