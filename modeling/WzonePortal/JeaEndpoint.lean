import WzonePortal.ClusterSessions
import WzonePortal.ConnectionSchema

/-! The endpoint that a Hyper-V reader opens and the commands that it sends there. Both follow from
the session configuration of the connection: the commands ask whether it is there at all, the pool
asks whether it is an empty text. -/
namespace WzonePortal
namespace JeaEndpoint

open InventoryReaders

abbrev SessionRef : Type := ClusterSessions.SessionRef

def DEFAULT_CONFIGURATION : String := "Microsoft.PowerShell"

/-- The texts of `host_scripts`: the functions of the JEA role and the script blocks. -/
inductive Command
  | functionListVms
  | functionClusterNodes
  | functionProbe
  | scriptListVms
  | scriptClusterNodes
  | scriptProbePermissions
  deriving DecidableEq

def Command.isFunction : Command → Bool
  | .functionListVms => true
  | .functionClusterNodes => true
  | .functionProbe => true
  | .scriptListVms => false
  | .scriptClusterNodes => false
  | .scriptProbePermissions => false

/-- What the rows of an answer are read as. -/
inductive Query
  | vms
  | clusterNodes
  | probe

@[reducible] def Query.Rows : Query → Type
  | .vms => List Mapped
  | .clusterNodes => List (Option String × Option String)
  | .probe => List HyperVSession.Probe

/-- The calls of the reader. `closePool` and `disposeWsman` do nothing without their object. -/
inductive ReaderOp
  | openConnection
  | openPool (session : SessionRef) (configurationName : String)
  | closePool (session : SessionRef)
  | disposeWsman (session : SessionRef)
  | invokeJson (session : SessionRef) (query : Query) (script : Command)
  | record (outcome : CollectionOutcome)

@[reducible] def ReaderOp.Ans : ReaderOp → Type
  | .invokeJson _ query _ => query.Rows
  | _ => Unit

abbrev ReaderScript : Type → Type := Script ReaderOp.Ans Raised

abbrev Listings (α : Type) : Type := Generator ReaderOp.Ans VirtualMachine Raised α

def call (o : ReaderOp) : ReaderScript o.Ans :=
  @Script.perform ReaderOp ReaderOp.Ans Raised o

section
variable (conn : Connection)

/-- `uses_jea`. -/
def usesJea : Bool := conn.sessionConfiguration.isSome

/-- `session_configuration or DEFAULT_CONFIGURATION`. -/
def configurationName : String :=
  match conn.sessionConfiguration with
  | none => DEFAULT_CONFIGURATION
  | some configuration => if configuration = "" then DEFAULT_CONFIGURATION else configuration

def openSync (session : SessionRef) : ReaderScript Unit :=
  match conn.authMethod with
  | none => throw (.portal "ValidationError" "Hyper-V 연결은 인증 방식이 필요합니다.")
  | some _ => call (.openPool session (configurationName conn))

def disposeWsman (session : SessionRef) : ReaderScript Unit :=
  Script.tryCatch (call (.disposeWsman session)) fun _ => pure ()

def startSession (session : SessionRef) : ReaderScript Unit :=
  Script.tryCatch (openSync conn session) fun e => do
    disposeWsman session
    throw e

def closeSession (session : SessionRef) : ReaderScript Unit := do
  Script.tryCatch (call (.closePool session)) fun _ => pure ()
  disposeWsman session

/-- `except AuthenticationError: raise`, `except PortalError`: the message is kept. -/
def orMessage {α : Type} (p : ReaderScript α) : ReaderScript (α ⊕ String) :=
  Script.tryCatch (Sum.inl <$> p) fun
    | .permission message => pure (.inr message)
    | .portal _ message => pure (.inr message)
    | e => throw e

def resolveNodes : ReaderScript (List (String × String)) := do
  let script := if usesJea conn then Command.functionClusterNodes else .scriptClusterNodes
  let nodes ← call (.invokeJson .main .clusterNodes script)
  match HyperVHost.resolveNodes (.ok nodes) with
  | .ok named => pure named
  | .error e => throw e

def queryNode (session : SessionRef) (vmScript : Command) : ReaderScript (List Mapped ⊕ String) :=
  Script.tryFinally
    (orMessage do
      startSession conn session
      call (.invokeJson session .vms vmScript))
    (closeSession session)

def yieldRows : List Mapped → ℕ → Listings ℕ
  | [], total => pure total
  | .ok vm::rows, total => do
    Generator.yield vm
    yieldRows rows (total+1)
  | .error e::_, _ => throw e

def visitNodes (vmScript : Command) :
    ℕ → List (String × String) → ℕ → List (String × String) → Listings Unit
  | _, [], total, failedNodes =>
    Generator.lift (call (.record (ClusterSessions.clusterOutcome total failedNodes)))
  | i, (node,state)::nodes, total, failedNodes =>
    if state.toLower ≠ "up" then
      visitNodes vmScript (i+1) nodes total (failedNodes ++ [(node,"노드 상태 " ++ state)])
    else do
      match ← Generator.lift (queryNode { conn with address := node } (.node i node) vmScript) with
      | .inl rows => do
        let total ← yieldRows rows total
        visitNodes vmScript (i+1) nodes total failedNodes
      | .inr message => visitNodes vmScript (i+1) nodes total (failedNodes ++ [(node,message)])

def recordFailure (message : String) : Listings Unit :=
  Generator.lift (call (.record (InventoryReaders.record 0 true (some message))))

def listVirtualMachines : Listings Unit := do
  let vmScript := if usesJea conn then Command.functionListVms else .scriptListVms
  if conn.kind = .hypervCluster then
    match ← Generator.lift (orMessage (resolveNodes conn)) with
    | .inl nodes => visitNodes conn vmScript 0 nodes 0 []
    | .inr message => recordFailure message
  else
    match ← Generator.lift (orMessage (call (.invokeJson .main .vms vmScript))) with
    | .inl rows => do
      let total ← yieldRows rows 0
      Generator.lift (call (.record (ClusterSessions.clusterOutcome total [])))
    | .inr message => recordFailure message

def checkAuthorized : ReaderScript Unit := do
  let script := if usesJea conn then Command.functionProbe else .scriptProbePermissions
  let rows ← call (.invokeJson .main .probe script)
  if (rows.headD {}).vm then pure ()
  else throw (.permission
    "Hyper-V VM 조회 권한이 없습니다. JEA 역할 또는 계정 권한을 확인하세요.")

def runStages : List (ReaderScript Unit) → ReaderScript Unit
  | [] => pure ()
  | stage::stages => do
    match ← Script.attempt stage with
    | .ok () => runStages stages
    | .error _ => pure ()

def checkConnection : ReaderScript Unit := do
  runStages [call .openConnection,pure (),startSession conn .main,checkAuthorized conn]
  closeSession .main

/-- A collection with whatever consumes its machines, or a check. -/
inductive Task
  | collect (consume : List VirtualMachine → Except Raised Unit)
  | check

/-- The machines so far with the next one, unless that makes the consumer raise. -/
def consumeNext (consume : List VirtualMachine → Except Raised Unit) (vm : VirtualMachine)
    (vms : List VirtualMachine) : ReaderScript (List VirtualMachine) :=
  match consume (vms ++ [vm]) with
  | .ok () => pure (vms ++ [vm])
  | .error e => throw e

def Task.script : Task → ReaderScript Unit
  | .collect consume => do
    startSession conn .main
    Script.tryFinally
      (do
        let _ ← Generator.drive (consumeNext consume) ClusterSessions.generatorExit
          (listVirtualMachines conn) []
        pure ())
      (closeSession .main)
  | .check => checkConnection conn

end

/-- The open pools with their endpoints, and the commands sent with the endpoints they went to. -/
structure PoolWorld where
  issued : ℕ := 0
  pools : List (SessionRef × String) := []
  sent : List (String × Command) := []

namespace PoolWorld

def shut (w : PoolWorld) (session : SessionRef) : List (SessionRef × String) :=
  w.pools.filter (·.1 ≠ session)

/-- The answers are given; without a pool nothing is sent. -/
def exec (answer : ℕ → (o : ReaderOp) → Except Raised o.Ans) :
    (o : ReaderOp) → PoolWorld → Except Raised o.Ans × PoolWorld
  | .openPool session configuration, w =>
    match answer w.issued (.openPool session configuration) with
    | .ok () => (.ok (),⟨w.issued+1,(session,configuration)::w.shut session,w.sent⟩)
    | .error e => (.error e,⟨w.issued+1,w.pools,w.sent⟩)
  | .closePool session, w =>
    (answer w.issued (.closePool session),⟨w.issued+1,w.shut session,w.sent⟩)
  | .invokeJson session query script, w =>
    match w.pools.lookup session with
    | some configuration => (answer w.issued (.invokeJson session query script),
        ⟨w.issued+1,w.pools,w.sent ++ [(configuration,script)]⟩)
    | none => (.error (.portal "CollectionError" "세션이 열려 있지 않습니다."),w)
  | o, w => (answer w.issued o,⟨w.issued+1,w.pools,w.sent⟩)

end PoolWorld

def Task.sent (conn : Connection) (answer : ℕ → (o : ReaderOp) → Except Raised o.Ans)
    (task : Task) : List (String × Command) :=
  ((task.script conn).run (PoolWorld.exec answer) {}).2.sent

def EndpointMatches (sent : List (String × Command)) : Prop :=
  ∀ x ∈ sent, x.2.isFunction = true ↔ x.1 ≠ DEFAULT_CONFIGURATION

/-- A pool is opened, and a command sent, as the session configuration decides. -/
def Decided (conn : Connection) : ReaderOp → Prop
  | .openPool _ configuration => configuration = configurationName conn
  | .invokeJson _ _ script => script.isFunction = usesJea conn
  | _ => True

section
variable {conn : Connection} {session : SessionRef}

theorem issues_call {o : ReaderOp} (h : Decided conn o) : (call o).Issues (Decided conn) :=
  Script.issues_perform h

theorem issues_openSync : (openSync conn session).Issues (Decided conn) := by
  unfold openSync
  split
  · trivial
  · exact issues_call rfl

theorem issues_disposeWsman : (disposeWsman session).Issues (Decided conn) := by
  have hcall : (call (.disposeWsman session)).Issues (Decided conn) := issues_call trivial
  exact hcall.tryCatch fun _ => Script.issues_pure _

theorem issues_startSession : (startSession conn session).Issues (Decided conn) :=
  issues_openSync.tryCatch fun e => issues_disposeWsman.bind fun _ => Script.issues_throw e

theorem issues_closeSession : (closeSession session).Issues (Decided conn) := by
  have hcall : (call (.closePool session)).Issues (Decided conn) := issues_call trivial
  exact (hcall.tryCatch fun _ => Script.issues_pure _).bind fun _ => issues_disposeWsman

theorem issues_orMessage {α : Type} {p : ReaderScript α} (h : p.Issues (Decided conn)) :
    (orMessage p).Issues (Decided conn) := by
  refine Script.Issues.tryCatch ?_ fun e => by cases e <;> trivial
  rw [map_eq_pure_bind]
  exact h.bind fun a => Script.issues_pure _

theorem isFunction_ite (script script' : Command) (hscript : script.isFunction = true)
    (hscript' : script'.isFunction = false) :
    (if usesJea conn then script else script').isFunction = usesJea conn := by
  cases usesJea conn <;> assumption

theorem issues_resolveNodes : (resolveNodes conn).Issues (Decided conn) := by
  have hscript : Decided conn (.invokeJson .main .clusterNodes
      (if usesJea conn then .functionClusterNodes else .scriptClusterNodes)) :=
    isFunction_ite _ _ rfl rfl
  refine (issues_call hscript).bind fun nodes => ?_
  split
  · exact Script.issues_pure _
  · exact Script.issues_throw _

theorem issues_queryNode {vmScript : Command} (h : vmScript.isFunction = usesJea conn) :
    (queryNode conn session vmScript).Issues (Decided conn) := by
  have hrows : (call (.invokeJson session .vms vmScript)).Issues (Decided conn) := issues_call h
  exact (issues_orMessage (issues_startSession.bind fun _ => hrows)).tryFinally
    issues_closeSession

theorem issues_yieldRows (rows : List Mapped) (total : ℕ) :
    (yieldRows rows total).Issues (Generator.OnCalls (Decided conn)) := by
  induction rows generalizing total with
  | nil => trivial
  | cons row rows ih =>
    cases row with
    | ok vm => exact (Generator.issues_yield vm).bind fun _ => ih (total+1)
    | error e => trivial

theorem issues_visitNodes {vmScript : Command} (h : vmScript.isFunction = usesJea conn) (i : ℕ)
    (nodes : List (String × String)) (total : ℕ) (failedNodes : List (String × String)) :
    (visitNodes conn vmScript i nodes total failedNodes).Issues
      (Generator.OnCalls (Decided conn)) := by
  induction nodes generalizing i total failedNodes with
  | nil => exact Generator.issues_lift (issues_call trivial)
  | cons n nodes ih =>
    obtain ⟨node,state⟩ := n
    unfold visitNodes
    split
    · exact ih _ _ _
    · have hquery : (queryNode { conn with address := node } (.node i node) vmScript).Issues
          (Decided conn) := issues_queryNode h
      refine (Generator.issues_lift hquery).bind fun answered => ?_
      cases answered with
      | inl rows => exact (issues_yieldRows rows total).bind fun total => ih _ _ _
      | inr message => exact ih _ _ _

theorem issues_recordFailure (message : String) :
    (recordFailure message).Issues (Generator.OnCalls (Decided conn)) :=
  Generator.issues_lift (issues_call trivial)

theorem issues_listVirtualMachines :
    (listVirtualMachines conn).Issues (Generator.OnCalls (Decided conn)) := by
  have hscript : (if usesJea conn then Command.functionListVms else .scriptListVms).isFunction =
      usesJea conn := isFunction_ite _ _ rfl rfl
  unfold listVirtualMachines
  dsimp only
  split
  · refine (Generator.issues_lift (issues_orMessage issues_resolveNodes)).bind fun answered => ?_
    cases answered with
    | inl nodes => exact issues_visitNodes hscript 0 nodes 0 []
    | inr message => exact issues_recordFailure message
  · have hrows : (call (.invokeJson .main .vms
        (if usesJea conn then Command.functionListVms else .scriptListVms))).Issues
          (Decided conn) := issues_call hscript
    refine (Generator.issues_lift (issues_orMessage hrows)).bind fun answered => ?_
    cases answered with
    | inl rows =>
      exact (issues_yieldRows rows 0).bind fun total =>
        Generator.issues_lift (issues_call trivial)
    | inr message => exact issues_recordFailure message

theorem issues_checkConnection : (checkConnection conn).Issues (Decided conn) := by
  have hstages : ∀ stages : List (ReaderScript Unit),
      (∀ stage ∈ stages, stage.Issues (Decided conn)) → (runStages stages).Issues (Decided conn) := by
    intro stages h
    induction stages with
    | nil => trivial
    | cons stage stages ih =>
      rw [List.forall_mem_cons] at h
      refine h.1.attempt.bind fun x => ?_
      cases x with
      | ok => exact ih h.2
      | error e => trivial
  refine (hstages _ ?_).bind fun _ => issues_closeSession
  simp only [List.forall_mem_cons]
  refine ⟨issues_call trivial,trivial,issues_startSession,?_,fun _ h => by cases h⟩
  have hscript : Decided conn (.invokeJson .main .probe
      (if usesJea conn then .functionProbe else .scriptProbePermissions)) :=
    isFunction_ite _ _ rfl rfl
  refine (issues_call hscript).bind fun rows => ?_
  split <;> trivial

theorem Task.issues_script (task : Task) : (task.script conn).Issues (Decided conn) := by
  cases task with
  | collect consume =>
    refine issues_startSession.bind fun _ => Script.Issues.tryFinally ?_ issues_closeSession
    refine (Generator.issues_drive issues_listVirtualMachines (fun vm vms => ?_) []).bind
      fun _ => Script.issues_pure _
    unfold consumeNext
    split <;> trivial
  | check => exact issues_checkConnection

/-- The pools and the commands of a world are those of the connection. -/
structure OfConnection (conn : Connection) (w : PoolWorld) : Prop where
  pools : ∀ pool ∈ w.pools, pool.2 = configurationName conn
  sent : ∀ x ∈ w.sent, x.1 = configurationName conn ∧ x.2.isFunction = usesJea conn

theorem OfConnection.exec {answer : ℕ → (o : ReaderOp) → Except Raised o.Ans} (o : ReaderOp)
    (w : PoolWorld) (ho : Decided conn o) (h : OfConnection conn w) :
    OfConnection conn (PoolWorld.exec answer o w).2 := by
  have hshut : ∀ session, ∀ pool ∈ w.shut session, pool.2 = configurationName conn :=
    fun session pool hpool => h.pools pool (List.mem_of_mem_filter hpool)
  cases o with
  | openPool session configuration =>
    simp only [PoolWorld.exec]
    split
    · exact ⟨List.forall_mem_cons.mpr ⟨ho,hshut session⟩,h.sent⟩
    · exact ⟨h.pools,h.sent⟩
  | closePool session => exact ⟨hshut session,h.sent⟩
  | invokeJson session query script =>
    simp only [PoolWorld.exec]
    split
    next configuration hlookup =>
      obtain ⟨before,after,hpools,-⟩ := List.lookup_eq_some_iff.mp hlookup
      have hconfiguration : configuration = configurationName conn :=
        h.pools (session,configuration) (by rw [hpools]; simp)
      refine ⟨h.pools,fun x hx => ?_⟩
      rcases List.mem_append.mp hx with hx | hx
      · exact h.sent x hx
      · rw [List.mem_singleton.mp hx]
        exact ⟨hconfiguration,ho⟩
    next => exact h
  | openConnection => exact ⟨h.pools,h.sent⟩
  | disposeWsman session => exact ⟨h.pools,h.sent⟩
  | record outcome => exact ⟨h.pools,h.sent⟩

theorem Task.sent_ofConnection (task : Task)
    (answer : ℕ → (o : ReaderOp) → Except Raised o.Ans) :
    ∀ x ∈ task.sent conn answer, x.1 = configurationName conn ∧ x.2.isFunction = usesJea conn := by
  have hstart : OfConnection conn {} := ⟨fun _ h => (by cases h),fun _ h => (by cases h)⟩
  exact (task.issues_script.run (fun o w => OfConnection.exec o w) hstart).sent

theorem usesJea_iff : (usesJea conn = true ↔ configurationName conn ≠ DEFAULT_CONFIGURATION) ↔
    conn.sessionConfiguration ≠ some "" ∧
      conn.sessionConfiguration ≠ some DEFAULT_CONFIGURATION := by
  unfold usesJea configurationName
  cases conn.sessionConfiguration with
  | none => simp
  | some configuration => by_cases h : configuration = "" <;> simp [h]

theorem Task.matches_iff (task : Task) (answer : ℕ → (o : ReaderOp) → Except Raised o.Ans) :
    EndpointMatches (task.sent conn answer) ↔
      (conn.sessionConfiguration ≠ some "" ∧
        conn.sessionConfiguration ≠ some DEFAULT_CONFIGURATION) ∨ task.sent conn answer = [] := by
  rw [← usesJea_iff]
  have hsent : ∀ x ∈ task.sent conn answer,
      x.1 = configurationName conn ∧ x.2.isFunction = usesJea conn := task.sent_ofConnection answer
  constructor
  · intro h
    cases hlist : task.sent conn answer with
    | nil => exact .inr rfl
    | cons x later =>
      have hmem : x ∈ task.sent conn answer := by rw [hlist]; exact List.mem_cons_self
      have hx := h x hmem
      rw [(hsent x hmem).1,(hsent x hmem).2] at hx
      exact .inl hx
  · rintro (hdecided | hnil) x hx
    · rw [(hsent x hx).1,(hsent x hx).2]
      exact hdecided
    · rw [hnil] at hx
      cases hx

/-- A hypervisor that answers every query with nothing. -/
def quiet (_ : ℕ) : (o : ReaderOp) → Except Raised o.Ans
  | .openConnection => .ok ()
  | .openPool _ _ => .ok ()
  | .closePool _ => .ok ()
  | .disposeWsman _ => .ok ()
  | .invokeJson _ .vms _ => .ok []
  | .invokeJson _ .clusterNodes _ => .ok []
  | .invokeJson _ .probe _ => .ok []
  | .record _ => .ok ()

theorem sent_check_quiet {authMethod : WinRmAuth} (h : conn.authMethod = some authMethod) :
    Task.check.sent conn quiet = [(configurationName conn,
      if usesJea conn then .functionProbe else .scriptProbePermissions)] := by
  have hopen : openSync conn .main = call (.openPool .main (configurationName conn)) := by
    rw [openSync,h]
  have hstart : startSession conn .main = Script.tryCatch
      (call (.openPool .main (configurationName conn)))
        (fun e => disposeWsman .main >>= fun _ => throw e) := by
    rw [startSession,hopen]
  simp only [Task.sent,Task.script,checkConnection,hstart]
  rfl

end

end JeaEndpoint

open JeaEndpoint

/-- A run on an accepted connection sends the functions of the role exactly to an endpoint of its
own, unless it sends nothing or the session configuration is an empty text or the default one; with
one of these some run does not. -/
theorem commands_match_endpoint_iff {rules : AddressRules} (created : ConnectionCreate rules)
    (conn : Connection) (hconn : Agrees created conn) :
    let decided := created.sessionConfiguration ≠ some "" ∧
      created.sessionConfiguration ≠ some DEFAULT_CONFIGURATION
    (∀ task answer, EndpointMatches (Task.sent conn answer task) ↔
      decided ∨ Task.sent conn answer task = []) ∧
    ((∀ task answer, EndpointMatches (Task.sent conn answer task)) ↔ decided) := by
  intro decided
  have hruns : ∀ task answer, EndpointMatches (Task.sent conn answer task) ↔
      decided ∨ Task.sent conn answer task = [] := by
    intro task answer
    rw [task.matches_iff,hconn.sessionConfiguration]
  refine ⟨hruns,fun h => ?_,fun h task answer => (hruns task answer).mpr (.inl h)⟩
  cases created with
  | vcenter base port => exact ⟨nofun,nofun⟩
  | scvmm base port protocol authMethod => exact ⟨nofun,nofun⟩
  | hyperv base kind port protocol authMethod sessionConfiguration =>
    rcases (hruns .check quiet).mp (h .check quiet) with hdecided | hnil
    · exact hdecided
    · rw [sent_check_quiet hconn.authMethod] at hnil
      cases hnil

def configuredBody (configuration name : String) : Option BodyValue :=
  if name = "session_configuration" then some (.str configuration) else clusterBody name

theorem cluster_is_hyperv : ConnectionKind.hypervCluster = .hypervHost ∨
    ConnectionKind.hypervCluster = .hypervCluster := .inr rfl

def configuredCreated (configuration : BoundedText 0 100) : ConnectionCreate plainRules :=
  .hyperv clusterCreated.base ⟨.hypervCluster,cluster_is_hyperv⟩ clusterCreated.port .https
    .kerberos (some configuration)

def configuredConnection (configuration : BoundedText 0 100) : Connection :=
  ConnectionService.toConnection (contextOf 1 8 20) (configuredCreated configuration).toInput

theorem commands_match_endpoint_sample :
    let conn := configuredConnection ⟨"WzonePortalReadOnly",by decide⟩
    let decided := (some "WzonePortalReadOnly" : Option String) ≠ some "" ∧
      some "WzonePortalReadOnly" ≠ some DEFAULT_CONFIGURATION
    (∀ task answer, EndpointMatches (Task.sent conn answer task) ↔
      decided ∨ Task.sent conn answer task = []) ∧
    ((∀ task answer, EndpointMatches (Task.sent conn answer task)) ↔ decided) :=
  commands_match_endpoint_iff (configuredCreated ⟨"WzonePortalReadOnly",by decide⟩) _
    (toConnection_agrees _ _)

def oneNode (n : ℕ) : (o : ReaderOp) → Except Raised o.Ans
  | .invokeJson _ .clusterNodes _ => .ok [(some "n1",some "Up")]
  | o => quiet n o

def emptyText : BoundedText 0 100 := ⟨"",by decide⟩

def defaultName : BoundedText 0 100 := ⟨"Microsoft.PowerShell",by decide⟩

/-- The schema lets the configuration through, and a check and a collection send the functions
of the role to the endpoint that does not have them. -/
def SentToDefault (configuration : BoundedText 0 100) : Prop :=
  ConnectionCreate.ofBody plainRules readBodyValue (configuredBody configuration.val) =
    some (configuredCreated configuration) ∧
  Task.check.sent (configuredConnection configuration) oneNode =
    [(DEFAULT_CONFIGURATION,.functionProbe)] ∧
  (Task.collect fun _ => .ok ()).sent (configuredConnection configuration) oneNode =
    [(DEFAULT_CONFIGURATION,.functionClusterNodes),(DEFAULT_CONFIGURATION,.functionListVms)] ∧
  ¬ EndpointMatches (Task.check.sent (configuredConnection configuration) oneNode)

/-- The empty text and the name of the default endpoint are such configurations. -/
theorem functions_sent_to_default : SentToDefault emptyText ∧ SentToDefault defaultName := by
  have hwrong : ∀ {sent}, sent = [(DEFAULT_CONFIGURATION,Command.functionProbe)] →
      ¬ EndpointMatches sent := by
    rintro _ rfl h
    exact absurd (h _ List.mem_cons_self) (by decide)
  refine ⟨⟨rfl,?_⟩,⟨?_,?_⟩⟩
  · have hcheck : Task.check.sent (configuredConnection emptyText) oneNode =
        [(DEFAULT_CONFIGURATION,.functionProbe)] := by decide +kernel
    exact ⟨hcheck,by decide +kernel,hwrong hcheck⟩
  · rfl
  · have hcheck : Task.check.sent (configuredConnection defaultName) oneNode =
        [(DEFAULT_CONFIGURATION,.functionProbe)] := by decide +kernel
    exact ⟨hcheck,by decide +kernel,hwrong hcheck⟩

end WzonePortal
