import WzonePortal.CollectService

/-! The set of running collections as a lock. A request tests and adds the connection in one
go, prepares the run and hands it to a background task, which removes the connection when the
run is over. The key provider and the cipher are built outside the parts that put the
connection back. -/
namespace WzonePortal
namespace CollectionLock

open LockScript CollectService CollectRoute

/-- Every answer is possible, except that the key provider and the cipher of the request and
of the run get built. -/
def CipherBuilt (s : CollectionStep) (r : Except Raised s.Ans) : Prop :=
  s = .buildCipher .request ∨ s = .buildCipher .run → ∃ a, r = .ok a

section
variable {α : Type} {p : Collection α}

theorem onlySteps_withSession (part : Part) (h : p.Issues LockOp.IsStep) :
    (withSession part p).Issues LockOp.IsStep :=
  issues_then trivial fun _ => h.tryFinally (issues_step trivial)

theorem onlySteps_collectOnce (batchSize : ℤ) (maskText : String → String) (connectionId : UUID) :
    (collectOnce batchSize maskText connectionId).Issues LockOp.IsStep := by
  refine onlySteps_withSession _ ((issues_step trivial).attempt.bind fun loaded => ?_)
  have hrecord : ∀ secrets e, (unexpected maskText connectionId secrets e).Issues LockOp.IsStep :=
    fun secrets e => (issues_unexpected maskText connectionId secrets e).mono fun _ =>
      Handling.isStep
  cases loaded with
  | error e => exact hrecord _ e
  | ok found =>
    cases found with
    | none => trivial
    | some conn =>
      refine Script.Issues.tryCatch ?_ (hrecord _)
      refine ((issues_collect batchSize conn).mono fun _ => Inner.isStep).bind fun _ => ?_
      exact issues_then trivial fun _ => issues_step trivial

end

theorem releases_runCollection {α : Type} (batchSize : ℤ) (maskText : String → String)
    (connectionId : UUID) (a : α) :
    (runCollection batchSize maskText connectionId >>= fun _ => (pure a : Collection α)).Releases
      CipherBuilt connectionId := by
  simp only [runCollection,Script.tryFinally,bind_assoc]
  refine Script.releases_step (fun r hr => hr (.inr rfl)) fun _ => ?_
  exact (onlySteps_collectOnce _ _ _).releases (fun _ => ⟨rfl,rfl⟩) fun _ => ⟨rfl,rfl⟩

/-- A request enters with its own connection, and removes it again or hands it to its run. -/
theorem guarded_requestAndRun (batchSize : ℤ) (maskText : String → String) (connectionId : UUID) :
    (requestAndRun batchSize maskText connectionId).Guarded CipherBuilt connectionId := by
  simp only [requestAndRun,startCollection,bind_assoc]
  intro r _
  cases r with
  | error e => trivial
  | ok u =>
    refine ⟨rfl,rfl,?_⟩
    change Script.Releases CipherBuilt connectionId (_ >>= _)
    simp only [Script.ret_bind,Bool.false_eq_true,if_false,bind_assoc,pure_bind]
    refine Script.releases_step (fun r hr => hr (.inl rfl)) fun _ => ?_
    refine Script.Issues.releases (onlySteps_withSession _ ?_) (fun _ => ?_) fun _ => ⟨rfl,rfl⟩
    · refine issues_then trivial fun found => (Script.issues_require _ _).bind fun _ => ?_
      exact issues_then trivial fun _ => issues_step trivial
    · exact releases_runCollection _ _ connectionId _

/-- Requests on the connections `names`, each with the answers that it is going to get. -/
def requests {ι : Type} (batchSize : ℤ) (maskText : String → String) (names : ι → UUID)
    (answers : ι → ℕ → (s : CollectionStep) → Except Raised s.Ans) :
    LockSystem ι UUID CollectionStep.Ans Raised Started where
  shared := ∅
  processes := fun i => ⟨requestAndRun batchSize maskText (names i),⟨answers i,0,false⟩⟩

/-- At most one collection of a connection is under way; the set holds exactly the
connections with one under way; it is empty when everything has ended. -/
structure ExactLock {ι α : Type} (names : ι → UUID)
    (sys : LockSystem ι UUID CollectionStep.Ans Raised α) : Prop where
  alone : ∀ i j, LockProcess.inside (sys.processes i) = true →
    LockProcess.inside (sys.processes j) = true → names i = names j → i = j
  taken : ∀ c, c ∈ sys.shared ↔ ∃ i, names i = c ∧ LockProcess.inside (sys.processes i) = true
  settled : (∀ i, (sys.processes i).script.ended = true) → sys.shared = ∅

/-- Every run in which the key provider and the cipher get built keeps the lock. -/
theorem collection_lock {ι : Type} [DecidableEq ι] (batchSize : ℤ) (maskText : String → String)
    (names : ι → UUID) (answers : ι → ℕ → (s : CollectionStep) → Except Raised s.Ans)
    (schedule : List ι) (hcipher : (requests batchSize maskText names answers).Along lockExec
      (AnswersPossibly CipherBuilt) schedule) :
    ExactLock names ((requests batchSize maskText names answers).run lockExec schedule) := by
  have hstart : LockInvariant CipherBuilt names (requests batchSize maskText names answers) :=
    lockInvariant_start (fun i => guarded_requestAndRun _ _ (names i)) (fun _ => rfl) rfl
  have h := lockInvariant_run hstart hcipher
  exact ⟨h.alone,h.taken,lockInvariant_settled h⟩

/-- The connection of the concrete runs, as a repository returns it. -/
def someConnection : Connection where
  connectionId := 7
  kind := .vcenter
  displayName := "vc"
  address := "vc.local"
  port := 443
  username := "reader"
  password := "secret"

/-- Every statement answers, and the connection exists. -/
def smooth (_ : ℕ) : (s : CollectionStep) → Except Raised s.Ans
  | .now => .ok 0
  | .get _ => .ok (some someConnection)
  | .loadWithPassword _ => .ok (some someConnection)
  | .upsert _ _ _ => .ok ⟨0,0,0⟩
  | .listVirtualMachines => .ok ⟨[],none⟩
  | .getOutcomes => .ok []
  | .authorize => .ok ()
  | .buildCipher _ => .ok ()
  | .openSession _ => .ok ()
  | .closeSession _ => .ok ()
  | .commit _ => .ok ()
  | .rollback _ => .ok ()
  | .log _ => .ok ()
  | .markAttempt _ => .ok ()
  | .markSuccess _ _ => .ok ()
  | .markFailure _ _ _ _ => .ok ()
  | .buildReader _ => .ok ()
  | .startSession _ => .ok ()
  | .closeReader => .ok ()

def noAdapter (n : ℕ) : (s : CollectionStep) → Except Raised s.Ans
  | .buildReader _ => .error (.other "ImportError" "pyVmomi")
  | s => smooth n s

def badKey (n : ℕ) : (s : CollectionStep) → Except Raised s.Ans
  | .buildCipher _ => .error (.other "ValueError" "암호화 키는 base64 문자열이어야 합니다.")
  | s => smooth n s

/-- Two requests on one connection, the second one during the run of the first. -/
theorem collection_lock_two : ExactLock (fun _ : Bool => (7 : UUID))
    ((requests 500 id (fun _ : Bool => 7) fun _ => noAdapter).run lockExec
      (List.replicate 12 false ++ [true,true] ++ List.replicate 20 false)) := by
  refine collection_lock 500 id _ _ _ (along_possible (fun i n s hs => ?_) _)
  rcases hs with rfl | rfl
  · exact ⟨(),rfl⟩
  · exact ⟨(),rfl⟩

/-- The first request has failed, nothing is under way, and the second one is turned away. -/
theorem failed_request_keeps_name :
    let sys := (requests 500 id (fun _ : Bool => (7 : UUID)) fun _ => badKey).run lockExec
      [false,false,false,true,true]
    (∀ i, (sys.processes i).script.ended = true) ∧ sys.shared = {7} ∧
      (sys.processes true).script = .ret .alreadyRunning ∧ ¬ ExactLock (fun _ => 7) sys := by
  have hended : ∀ i, (((requests 500 id (fun _ : Bool => (7 : UUID)) fun _ => badKey).run lockExec
      [false,false,false,true,true]).processes i).script.ended = true := by decide
  refine ⟨hended,rfl,rfl,fun h => ?_⟩
  have hempty := h.settled hended
  have hmem : (7 : UUID) ∈ (∅ : Finset UUID) := by
    rw [← hempty]
    decide
  cases hmem

end CollectionLock
end WzonePortal
