import WzonePortal.ConnectionService
import WzonePortal.VmRepository
import WzonePortal.NameLock

/-! Collecting one connection, from the request that starts it to the background run and the
record of an unexpected failure, as scripts. What the database, the hypervisor and the clock
answer is left open here; every statement may raise. -/
namespace WzonePortal

/-- The exceptions that the handlers of a collection tell apart. -/
inductive Raised
  | authentication (message : String)
  | permission (message : String)
  | portal (typeName message : String)
  | other (typeName text : String)
  deriving DecidableEq, Repr

namespace Raised

def typeName : Raised → String
  | .authentication _ => "AuthenticationError"
  | .permission _ => "PermissionError"
  | .portal typeName _ => typeName
  | .other typeName _ => typeName

/-- `str(exc)`. -/
def text : Raised → String
  | .authentication message => message
  | .permission message => message
  | .portal _ message => message
  | .other _ text => text

end Raised

structure CollectionOutcome where
  resourceType : ResourceType
  collectedCount : ℕ
  failed : Bool
  error : Option String := none
  deriving DecidableEq, Repr

/-- What the machine generator yields, and the exception that breaks it off, if any. -/
structure Listing where
  vms : List VirtualMachine
  ending : Option Raised := none
  deriving DecidableEq, Repr

/-- The three places that open a session. -/
inductive Part
  | request | run | recorder
  deriving DecidableEq, Repr

inductive CollectionStep
  | authorize
  | buildCipher (part : Part)
  | openSession (part : Part)
  | closeSession (part : Part)
  | commit (part : Part)
  | rollback (part : Part)
  | log (part : Part)
  | now
  | get (connectionId : UUID)
  | loadWithPassword (connectionId : UUID)
  | markAttempt (connectionId : UUID)
  | markSuccess (connectionId : UUID) (at_ : Timestamp)
  | markFailure (part : Part) (connectionId : UUID) (error : String) (status : ConnectionStatus)
  | upsert (connectionId : UUID) (batch : List VirtualMachine) (observedAt : Timestamp)
  | buildReader (conn : Connection)
  | startSession (conn : Connection)
  | listVirtualMachines
  | closeReader
  | getOutcomes
  deriving DecidableEq, Repr

@[reducible] def CollectionStep.Ans : CollectionStep → Type
  | .now => Timestamp
  | .get _ => Option Connection
  | .loadWithPassword _ => Option Connection
  | .upsert _ _ _ => UpsertResult
  | .listVirtualMachines => Listing
  | .getOutcomes => List CollectionOutcome
  | _ => Unit

abbrev Collection : Type → Type := LockScript UUID CollectionStep.Ans Raised

open LockScript

def withSession {α : Type} (part : Part) (body : Collection α) : Collection α := do
  step (CollectionStep.openSession part)
  Script.tryFinally body (step (CollectionStep.closeSession part))

namespace CollectService

structure CollectSummary where
  connectionId : UUID
  created : ℕ
  updated : ℕ
  unchanged : ℕ
  failed : Bool
  error : Option String := none
  deriving DecidableEq, Repr

def failure (connectionId : UUID) (message : String) : CollectSummary :=
  ⟨connectionId,0,0,0,true,some message⟩

def addCounts (a b : UpsertResult) : UpsertResult :=
  ⟨a.created+b.created,a.updated+b.updated,a.unchanged+b.unchanged⟩

/-- The loop over the generator: a full batch is stored at once, the rest at the end. -/
def storeBatches (batchSize : ℤ) (connectionId : UUID) (observedAt : Timestamp)
    (ending : Option Raised) :
    List VirtualMachine → List VirtualMachine → UpsertResult → Collection UpsertResult
  | [], batch, counts =>
    match ending with
    | some e => throw e
    | none =>
      if batch = [] then pure counts
      else do
        let stored ← step (CollectionStep.upsert connectionId batch observedAt)
        pure (addCounts counts stored)
  | vm::vms, batch, counts =>
    if batchSize ≤ (batch ++ [vm]).length then do
      let stored ← step (CollectionStep.upsert connectionId (batch ++ [vm]) observedAt)
      storeBatches batchSize connectionId observedAt ending vms [] (addCounts counts stored)
    else storeBatches batchSize connectionId observedAt ending vms (batch ++ [vm]) counts

/-- The machines of one listing; a rejected sign-in in the middle ends the collection early. -/
def storeMachines (batchSize : ℤ) (connectionId : UUID) (observedAt : Timestamp) :
    Collection (CollectSummary ⊕ UpsertResult) :=
  Script.tryCatch
    (do
      let listing ← step CollectionStep.listVirtualMachines
      let counts ← storeBatches batchSize connectionId observedAt listing.ending listing.vms []
        ⟨0,0,0⟩
      pure (.inr counts))
    fun
      | .authentication message => do
        step (CollectionStep.markFailure .run connectionId message .credentialError)
        pure (.inl (failure connectionId message))
      | e => throw e

/-- A failure of the sign-in; other exceptions than the portal's own are passed on. -/
def signInFailed (connectionId : UUID) : Raised → Collection CollectSummary
  | .authentication message => do
    step (CollectionStep.markFailure .run connectionId message .credentialError)
    step (CollectionStep.log .run)
    pure (failure connectionId message)
  | .permission message => do
    step (CollectionStep.markFailure .run connectionId message .permissionError)
    pure (failure connectionId message)
  | .portal _ message => do
    step (CollectionStep.markFailure .run connectionId message .unreachable)
    pure (failure connectionId message)
  | e => throw e

/-- `error or default`. -/
def errorOr (default : String) : Option String → String
  | some error => if error = "" then default else error
  | none => default

/-- The end of a collection whose listing has ended normally. -/
def conclude (connectionId : UUID) (observedAt : Timestamp) (counts : UpsertResult) :
    Collection CollectSummary := do
  step (CollectionStep.log .run)
  let outcomes ← step CollectionStep.getOutcomes
  match outcomes.head?.filter (·.failed) with
  | some outcome => do
    step (CollectionStep.markFailure .run connectionId (errorOr "수집에 실패했습니다." outcome.error)
      .unreachable)
    pure ⟨connectionId,counts.created,counts.updated,counts.unchanged,true,outcome.error⟩
  | none => do
    step (CollectionStep.markSuccess connectionId observedAt)
    pure ⟨connectionId,counts.created,counts.updated,counts.unchanged,false,none⟩

def collect (batchSize : ℤ) (conn : Connection) : Collection CollectSummary := do
  let observedAt ← step CollectionStep.now
  step (CollectionStep.buildReader conn)
  match ← Script.attempt (step (CollectionStep.startSession conn)) with
  | .error e => signInFailed conn.connectionId e
  | .ok () =>
    match ← Script.tryFinally (storeMachines batchSize conn.connectionId observedAt)
        (step CollectionStep.closeReader) with
    | .inl summary => pure summary
    | .inr counts => conclude conn.connectionId observedAt counts

/-- The statements that belong to the collection of one connection. -/
def Inner (conn : Connection) : LockOp UUID CollectionStep → Prop
  | .step .now => True
  | .step (.buildReader c) => c = conn
  | .step (.startSession c) => c = conn
  | .step .listVirtualMachines => True
  | .step .closeReader => True
  | .step .getOutcomes => True
  | .step (.upsert c _ _) => c = conn.connectionId
  | .step (.markSuccess c _) => c = conn.connectionId
  | .step (.markFailure part c _ _) => part = .run ∧ c = conn.connectionId
  | .step (.log part) => part = .run
  | _ => False

theorem Inner.isStep {conn : Connection} {o : LockOp UUID CollectionStep} (h : Inner conn o) :
    o.IsStep := by
  cases o with
  | enter c => exact h.elim
  | discard c => exact h.elim
  | step s => trivial

theorem issues_step {φ : LockOp UUID CollectionStep → Prop} {s : CollectionStep}
    (h : φ (.step s)) : (step s : Collection s.Ans).Issues φ :=
  Script.issues_perform h

theorem issues_then {φ : LockOp UUID CollectionStep → Prop} {s : CollectionStep} {α : Type}
    {f : s.Ans → Collection α} (h : φ (.step s)) (hf : ∀ a, (f a).Issues φ) :
    (step s >>= f).Issues φ :=
  (issues_step h).bind hf

section
variable (batchSize : ℤ) (conn : Connection) (observedAt : Timestamp)

theorem issues_storeBatches (ending : Option Raised) (vms batch : List VirtualMachine)
    (counts : UpsertResult) :
    (storeBatches batchSize conn.connectionId observedAt ending vms batch counts).Issues
      (Inner conn) := by
  induction vms generalizing batch counts with
  | nil =>
    unfold storeBatches
    split
    · trivial
    · split
      · trivial
      · exact issues_then rfl fun _ => trivial
  | cons vm vms ih =>
    unfold storeBatches
    split
    · exact issues_then rfl fun _ => ih _ _
    · exact ih _ _

theorem issues_storeMachines :
    (storeMachines batchSize conn.connectionId observedAt).Issues (Inner conn) := by
  refine Script.Issues.tryCatch (issues_then trivial fun listing => ?_) fun e => ?_
  · exact (issues_storeBatches batchSize conn observedAt _ _ _ _).bind fun _ => trivial
  · cases e with
    | authentication message => exact issues_then ⟨rfl,rfl⟩ fun _ => trivial
    | permission message => trivial
    | portal typeName message => trivial
    | other typeName text => trivial

theorem issues_signInFailed (e : Raised) :
    (signInFailed conn.connectionId e).Issues (Inner conn) := by
  cases e with
  | authentication message =>
    exact issues_then ⟨rfl,rfl⟩ fun _ => issues_then rfl fun _ => trivial
  | permission message => exact issues_then ⟨rfl,rfl⟩ fun _ => trivial
  | portal typeName message => exact issues_then ⟨rfl,rfl⟩ fun _ => trivial
  | other typeName text => trivial

theorem issues_conclude (counts : UpsertResult) :
    (conclude conn.connectionId observedAt counts).Issues (Inner conn) := by
  refine issues_then rfl fun _ => issues_then trivial fun outcomes => ?_
  split
  · exact issues_then ⟨rfl,rfl⟩ fun _ => trivial
  · exact issues_then rfl fun _ => trivial

theorem issues_collect : (collect batchSize conn).Issues (Inner conn) := by
  refine issues_then trivial fun observedAt => issues_then rfl fun _ => ?_
  refine Script.Issues.bind (Script.Issues.attempt (issues_step rfl)) fun signedIn => ?_
  cases signedIn with
  | error e => exact issues_signInFailed conn e
  | ok u =>
    refine Script.Issues.bind ((issues_storeMachines batchSize conn observedAt).tryFinally
      (issues_step trivial)) fun stored => ?_
    cases stored with
    | inl summary => trivial
    | inr counts => exact issues_conclude conn observedAt counts

end
end CollectService

namespace CollectRoute

open CollectService

inductive Started
  | accepted
  | alreadyRunning
  deriving DecidableEq, Repr

def startCollection (connectionId : UUID) : Collection Started := do
  step CollectionStep.authorize
  if ← enter connectionId then pure .alreadyRunning
  else
    step (CollectionStep.buildCipher .request)
    Script.tryCatch
      (withSession .request do
        let found ← step (CollectionStep.get connectionId)
        Script.require found.isSome (.portal "NotFoundError" "연결을 찾을 수 없습니다.")
        step (CollectionStep.markAttempt connectionId)
        step (CollectionStep.commit .request))
      fun e => do
        discard connectionId
        throw e
    pure .accepted

/-- `sanitize_error`: mask the text of the exception, then cut the secrets out. -/
def sanitizeError (maskText : String → String) (secrets : List String) (e : Raised) : String :=
  secrets.foldl (fun out s => if 4 ≤ s.length then out.replace s "***" else out)
    (maskText (if e.text = "" then e.typeName else e.text))

def unexpectedMessage (maskText : String → String) (secrets : List String) (e : Raised) : String :=
  "수집 중 오류가 발생했습니다: " ++ sanitizeError maskText secrets e

/-- A session of its own records the exception; every error in here is swallowed. -/
def markUnexpectedFailure (connectionId : UUID) (message : String) : Collection Unit :=
  Script.tryCatch
    (withSession .recorder do
      step (CollectionStep.buildCipher .recorder)
      step (CollectionStep.markFailure .recorder connectionId message .collectionError)
      step (CollectionStep.commit .recorder))
    fun _ => step (CollectionStep.log .recorder)

/-- The handler of a run: nothing of the run's own transaction stays. -/
def unexpected (maskText : String → String) (connectionId : UUID) (secrets : List String)
    (e : Raised) : Collection Unit := do
  step (CollectionStep.rollback .run)
  step (CollectionStep.log .recorder)
  markUnexpectedFailure connectionId (unexpectedMessage maskText secrets e)

/-- The statements that belong to the handler of a run. -/
def Handling (connectionId : UUID) : LockOp UUID CollectionStep → Prop
  | .step (.rollback part) => part = .run
  | .step (.markFailure part c _ _) => part = .recorder ∧ c = connectionId
  | .step (.openSession part) => part = .recorder
  | .step (.buildCipher part) => part = .recorder
  | .step (.commit part) => part = .recorder
  | .step (.closeSession part) => part = .recorder
  | .step (.log part) => part = .recorder
  | _ => False

theorem Handling.isStep {connectionId : UUID} {o : LockOp UUID CollectionStep}
    (h : Handling connectionId o) : o.IsStep := by
  cases o with
  | enter c => exact h.elim
  | discard c => exact h.elim
  | step s => trivial

theorem issues_unexpected (maskText : String → String) (connectionId : UUID)
    (secrets : List String) (e : Raised) :
    (unexpected maskText connectionId secrets e).Issues (Handling connectionId) := by
  refine issues_then rfl fun _ => issues_then rfl fun _ => ?_
  refine Script.Issues.tryCatch (issues_then rfl fun _ => ?_) fun _ => issues_step rfl
  refine Script.Issues.tryFinally ?_ (issues_step rfl)
  exact issues_then rfl fun _ => issues_then ⟨rfl,rfl⟩ fun _ => issues_step rfl

def collectAndCommit (batchSize : ℤ) (conn : Connection) : Collection Unit := do
  let _ ← CollectService.collect batchSize conn
  step (CollectionStep.commit .run)
  step (CollectionStep.log .run)

/-- The password is a secret of the handler as soon as it is loaded. -/
def collectOnce (batchSize : ℤ) (maskText : String → String) (connectionId : UUID) :
    Collection Unit :=
  withSession .run do
    match ← Script.attempt (step (CollectionStep.loadWithPassword connectionId)) with
    | .error e => unexpected maskText connectionId [] e
    | .ok none => pure ()
    | .ok (some conn) =>
      Script.tryCatch (collectAndCommit batchSize conn)
        (unexpected maskText connectionId [conn.password])

def runCollection (batchSize : ℤ) (maskText : String → String) (connectionId : UUID) :
    Collection Unit := do
  step (CollectionStep.buildCipher .run)
  Script.tryFinally (collectOnce batchSize maskText connectionId) (discard connectionId)

/-- A request, and the background run of its response if it was accepted. -/
def requestAndRun (batchSize : ℤ) (maskText : String → String) (connectionId : UUID) :
    Collection Started := do
  match ← startCollection connectionId with
  | .alreadyRunning => pure .alreadyRunning
  | .accepted => do
    runCollection batchSize maskText connectionId
    pure .accepted

end CollectRoute
end WzonePortal
