import WzonePortal.CollectService
import WzonePortal.VmStoreInvariant

/-! What the statements of a collection do: the sessions with their working copies, the log of
sign-ins that the hypervisor has seen, and surroundings that may raise at any statement. A
commit that raises has not been applied. -/
namespace WzonePortal

namespace ConnectionRepository

def attempted (now : Timestamp) (row : ConnectionRow) : ConnectionRow :=
  { row with lastAttemptAt := some now, lastError := none }

def succeeded (now at_ : Timestamp) (row : ConnectionRow) : ConnectionRow :=
  { row with lastSuccessAt := some at_, lastError := none, status := .active, updatedAt := now }

def failed (now : Timestamp) (error : String) (status : ConnectionStatus) (row : ConnectionRow) :
    ConnectionRow :=
  { row with lastError := some error, status := status, updatedAt := now }

@[simp] theorem attempted_connectionId (now : Timestamp) (row : ConnectionRow) :
    (attempted now row).connectionId = row.connectionId := rfl
@[simp] theorem succeeded_connectionId (now at_ : Timestamp) (row : ConnectionRow) :
    (succeeded now at_ row).connectionId = row.connectionId := rfl
@[simp] theorem failed_connectionId (now : Timestamp) (error : String) (status : ConnectionStatus)
    (row : ConnectionRow) : (failed now error status row).connectionId = row.connectionId := rfl

def markAttempt (now : Timestamp) (connectionId : UUID) (db : Database) : Database :=
  { db with
    connections := db.connections.modify connectionId (attempted now)
      (attempted_connectionId now) }

def markSuccess (now : Timestamp) (connectionId : UUID) (at_ : Timestamp) (db : Database) :
    Database :=
  { db with
    connections := db.connections.modify connectionId (succeeded now at_)
      (succeeded_connectionId now at_) }

def markFailure (now : Timestamp) (connectionId : UUID) (error : String)
    (status : ConnectionStatus) (db : Database) : Database :=
  { db with
    connections := db.connections.modify connectionId (failed now error status)
      (failed_connectionId now error status) }

/-- The connection with its password; a row that is not there is no error. -/
def loadWithPassword (decrypt : String → Except Raised String) (connectionId : UUID)
    (db : Database) : Except Raised (Option Connection) :=
  match db.connections.find? connectionId with
  | none => .ok none
  | some row => match decrypt row.passwordEncrypted with
    | .ok password => .ok (some { toDomain row with password := password })
    | .error e => .error e

end ConnectionRepository

/-- What a run meets: the exception of each statement, if it has one, how many machines of a
batch were written before it, the clock, the identifiers, the cipher, the texts of the driver
for refused statements, and the hypervisor's answers. -/
structure Surroundings where
  fault : ℕ → CollectionStep → Option Raised
  written : ℕ → ℕ
  clock : ℕ → Timestamp
  uuid4 : ℕ → ℕ → UUID
  decrypt : String → Except Raised String
  refusal : Exc → Raised
  listing : Listing
  outcomes : List CollectionOutcome

structure World where
  running : Finset UUID
  committed : Database
  working : Part → Database
  issued : ℕ
  signIns : List Connection
  runCommits : ℕ

namespace World

def fresh (running : Finset UUID) (db : Database) : World := ⟨running,db,fun _ => db,0,[],0⟩

def setWorking (w : World) (part : Part) (db : Database) : World :=
  { w with working := Function.update w.working part db }

def tick (w : World) : World := { w with issued := w.issued + 1 }

@[simp] theorem setWorking_committed (w : World) (part : Part) (db : Database) :
    (w.setWorking part db).committed = w.committed := rfl
@[simp] theorem setWorking_self (w : World) (part : Part) (db : Database) :
    (w.setWorking part db).working part = db := Function.update_self _ _ _
theorem setWorking_other (w : World) {part p : Part} (h : p ≠ part) (db : Database) :
    (w.setWorking part db).working p = w.working p := Function.update_of_ne h _ _

open ConnectionRepository VirtualMachineRepository

/-- A statement that is not disturbed. -/
def perform (env : Surroundings) : (s : CollectionStep) → World → Except Raised s.Ans × World
  | .authorize, w => (.ok (),w)
  | .buildCipher _, w => (.ok (),w)
  | .openSession part, w => (.ok (),w.setWorking part w.committed)
  | .closeSession part, w => (.ok (),w.setWorking part w.committed)
  | .commit part, w =>
    (.ok (),{ w with
      committed := w.working part
      runCommits := if part = .run then w.runCommits + 1 else w.runCommits })
  | .rollback part, w => (.ok (),w.setWorking part w.committed)
  | .log _, w => (.ok (),w)
  | .now, w => (.ok (env.clock w.issued),w)
  | .get connectionId, w =>
    (.ok (((w.working .request).connections.find? connectionId).map toDomain),w)
  | .loadWithPassword connectionId, w =>
    (loadWithPassword env.decrypt connectionId (w.working .run),w)
  | .markAttempt connectionId, w => (.ok (),w.setWorking .request
      (markAttempt (env.clock w.issued) connectionId (w.working .request)))
  | .markSuccess connectionId at_, w => (.ok (),w.setWorking .run
      (markSuccess (env.clock w.issued) connectionId at_ (w.working .run)))
  | .markFailure part connectionId error status, w => (.ok (),w.setWorking part
      (markFailure (env.clock w.issued) connectionId error status (w.working part)))
  | .upsert connectionId batch observedAt, w =>
    match upsertVirtualMachines (env.uuid4 w.issued) (w.working .run) connectionId batch
        observedAt with
    | .ok stored => (.ok stored.1,w.setWorking .run stored.2)
    | .error e => (.error (env.refusal e),w.setWorking .run w.committed)
  | .buildReader _, w => (.ok (),w)
  | .startSession conn, w => (.ok (),{ w with signIns := conn::w.signIns })
  | .listVirtualMachines, w => (.ok env.listing,w)
  | .closeReader, w => (.ok (),w)
  | .getOutcomes, w => (.ok env.outcomes,w)

/-- What a statement that raises leaves behind: the hypervisor has seen the sign-in, and the
machines before the one that raised are written. -/
def disturbed (env : Surroundings) : CollectionStep → World → World
  | .startSession conn, w => { w with signIns := conn::w.signIns }
  | .upsert connectionId batch observedAt, w =>
    match upsertVirtualMachines (env.uuid4 w.issued) (w.working .run) connectionId
        (batch.take (env.written w.issued)) observedAt with
    | .ok stored => w.setWorking .run stored.2
    | .error _ => w
  | _, w => w

def exec (env : Surroundings) : (o : LockOp UUID CollectionStep) → World →
    Except Raised (LockOp.Res CollectionStep.Ans o) × World
  | .enter connectionId, w =>
    if connectionId ∈ w.running then (.ok true,w)
    else (.ok false,{ w with running := insert connectionId w.running })
  | .discard connectionId, w => (.ok (),{ w with running := w.running.erase connectionId })
  | .step s, w => match env.fault w.issued s with
    | some e => (.error e,(disturbed env s w).tick)
    | none => ((perform env s w).1,(perform env s w).2.tick)

end World

/-- What a run may not be disturbed in: ending a session, and the final record. -/
def CollectionStep.spared : CollectionStep → Bool
  | .closeSession _ => true
  | .rollback _ => true
  | .openSession .recorder => true
  | .buildCipher .recorder => true
  | .markFailure .recorder _ _ _ => true
  | .commit .recorder => true
  | .log .recorder => true
  | _ => false

def Surroundings.SparesRecorder (env : Surroundings) : Prop :=
  ∀ n s, s.spared = true → env.fault n s = none

end WzonePortal
