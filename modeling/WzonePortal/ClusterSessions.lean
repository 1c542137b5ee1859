import WzonePortal.Generator
import WzonePortal.InventoryReaders

/-! A cluster collection with every call to its sessions: the generator of the reader, the
sessions of the nodes inside it, and the service that consumes it and closes the main session.
Every call may raise anything. -/
namespace WzonePortal
namespace ClusterSessions

open CollectService InventoryReaders

/-- The session objects: the reader's own, and one for each node, by its position. -/
inductive SessionRef
  | main
  | node (position : ℕ) (address : String)
  deriving DecidableEq, Repr

def SessionRef.isNode : SessionRef → Bool
  | .main => false
  | .node _ _ => true

/-- The calls of a reader. `closePool` and `disposeWsman` do nothing without their object. -/
inductive ReaderOp
  | openPool (session : SessionRef)
  | closePool (session : SessionRef)
  | disposeWsman (session : SessionRef)
  | clusterNodes
  | listVms (session : SessionRef)
  | record (outcome : CollectionOutcome)

@[reducible] def ReaderOp.Ans : ReaderOp → Type
  | .clusterNodes => List (Option String × Option String)
  | .listVms _ => List Mapped
  | _ => Unit

/-- A statement of the service, or a call of the reader. -/
inductive RunOp
  | service (o : LockOp UUID CollectionStep)
  | reader (o : ReaderOp)

@[reducible] def RunOp.Res : RunOp → Type
  | .service o => o.Res CollectionStep.Ans
  | .reader o => o.Ans

abbrev ClusterRun : Type → Type := Script RunOp.Res Raised

def service {α : Type} : Collection α → ClusterRun α
  | .ret a => .ret a
  | .raise e => .raise e
  | .call o next => .call (.service o) fun r => service (next r)

def reader (o : ReaderOp) : ClusterRun o.Ans :=
  @Script.perform RunOp RunOp.Res Raised (.reader o)

namespace HyperVSession

def disposeWsman (session : SessionRef) : ClusterRun Unit :=
  Script.tryCatch (reader (.disposeWsman session)) fun _ => pure ()

def startSession (session : SessionRef) : ClusterRun Unit :=
  Script.tryCatch (reader (.openPool session)) fun e => do
    disposeWsman session
    throw e

def closeSession (session : SessionRef) : ClusterRun Unit := do
  Script.tryCatch (reader (.closePool session)) fun _ => pure ()
  disposeWsman session

end HyperVSession

open HyperVSession

/-- The rows of one node, or the message of the error that it is left out for. -/
def queryNode (session : SessionRef) : ClusterRun (List Mapped ⊕ String) :=
  Script.tryFinally
    (Script.tryCatch
      (do
        startSession session
        let rows ← reader (.listVms session)
        pure (.inl rows))
      fun
        | .permission message => pure (.inr message)
        | .portal _ message => pure (.inr message)
        | e => throw e)
    (closeSession session)

abbrev Listings (α : Type) : Type := Generator RunOp.Res VirtualMachine Raised α

def yieldRows : List Mapped → ℕ → Listings ℕ
  | [], total => pure total
  | .ok vm::rows, total => do
    Generator.yield vm
    yieldRows rows (total+1)
  | .error e::_, _ => throw e

def clusterOutcome (total : ℕ) (failedNodes : List (String × String)) : CollectionOutcome :=
  InventoryReaders.record total (failedNodes ≠ [] && total = 0)
    (if failedNodes = [] then none else some (HyperVHost.failedNodesText failedNodes))

def visitNodes : ℕ → List (String × String) → ℕ → List (String × String) → Listings Unit
  | _, [], total, failedNodes => Generator.lift (reader (.record (clusterOutcome total failedNodes)))
  | i, (node,state)::nodes, total, failedNodes =>
    if state.toLower ≠ "up" then
      visitNodes (i+1) nodes total (failedNodes ++ [(node,"노드 상태 " ++ state)])
    else do
      match ← Generator.lift (queryNode (.node i node)) with
      | .inl rows => do
        let total ← yieldRows rows total
        visitNodes (i+1) nodes total failedNodes
      | .inr message => visitNodes (i+1) nodes total (failedNodes ++ [(node,message)])

/-- The named nodes; an error of the query is recorded and ends the listing. -/
def resolveNodes : ClusterRun (Option (List (String × String))) :=
  Script.tryCatch
    (do
      let nodes ← reader .clusterNodes
      match HyperVHost.resolveNodes (.ok nodes) with
      | .ok named => pure (some named)
      | .error e => throw e)
    fun
      | .permission message => do
        reader (.record (InventoryReaders.record 0 true (some message)))
        pure none
      | .portal _ message => do
        reader (.record (InventoryReaders.record 0 true (some message)))
        pure none
      | e => throw e

def listVirtualMachines : Listings Unit := do
  match ← Generator.lift resolveNodes with
  | some nodes => visitNodes 0 nodes 0 []
  | none => pure ()

def serviceStep (s : CollectionStep) : ClusterRun s.Ans := service (LockScript.step s)

/-- One turn of the loop over the machines. -/
def consume (batchSize : ℤ) (connectionId : UUID) (observedAt : Timestamp) (vm : VirtualMachine)
    (s : List VirtualMachine × UpsertResult) :
    ClusterRun (List VirtualMachine × UpsertResult) := do
  if batchSize ≤ (s.1 ++ [vm]).length then
    let stored ← serviceStep (CollectionStep.upsert connectionId (s.1 ++ [vm]) observedAt)
    pure ([],addCounts s.2 stored)
  else pure (s.1 ++ [vm],s.2)

def generatorExit : Raised := .other "GeneratorExit" ""

def storeMachines (batchSize : ℤ) (connectionId : UUID) (observedAt : Timestamp) :
    ClusterRun (CollectSummary ⊕ UpsertResult) :=
  Script.tryCatch
    (do
      let s ← Generator.drive (consume batchSize connectionId observedAt) generatorExit
        listVirtualMachines ([],⟨0,0,0⟩)
      if s.1 = [] then pure (.inr s.2)
      else do
        let stored ← serviceStep (CollectionStep.upsert connectionId s.1 observedAt)
        pure (.inr (addCounts s.2 stored)))
    fun
      | .authentication message => do
        serviceStep (CollectionStep.markFailure .run connectionId message .credentialError)
        pure (.inl (CollectService.failure connectionId message))
      | e => throw e

def collect (batchSize : ℤ) (conn : Connection) : ClusterRun CollectSummary := do
  let observedAt ← serviceStep .now
  serviceStep (.buildReader conn)
  match ← Script.attempt (startSession .main) with
  | .error e => service (signInFailed conn.connectionId e)
  | .ok () =>
    match ← Script.tryFinally (storeMachines batchSize conn.connectionId observedAt)
        (closeSession .main) with
    | .inl summary => pure summary
    | .inr counts => service (conclude conn.connectionId observedAt counts)

/-- What is seen of the sessions from outside: they open, they close, and a call of theirs is
answered with a rejected sign-in. -/
inductive SessionEvent
  | opened (session : SessionRef)
  | closed (session : SessionRef)
  | rejected (session : SessionRef)
  deriving DecidableEq, Repr

def SessionEvent.act (sessions : List SessionRef) : SessionEvent → List SessionRef
  | .opened s => s::sessions
  | .closed s => sessions.erase s
  | .rejected _ => sessions

def openSessions (log : List SessionEvent) : List SessionRef := log.foldl SessionEvent.act []

def openNodes (log : List SessionEvent) : List SessionRef := (openSessions log).filter (·.isNode)

structure SessionWorld where
  issued : ℕ := 0
  log : List SessionEvent := []

def rejection (session : SessionRef) {α : Type} : Except Raised α → List SessionEvent
  | .error (.authentication _) => [.rejected session]
  | _ => []

def opening (session : SessionRef) : Except Raised Unit → List SessionEvent
  | .ok _ => [.opened session]
  | r => rejection session r

namespace SessionWorld

def add (w : SessionWorld) (events : List SessionEvent) : SessionWorld :=
  ⟨w.issued + 1,w.log ++ events⟩

/-- The answers are given; `closePool` forgets its pool whether or not closing it raises. -/
def exec (answer : ℕ → (o : RunOp) → Except Raised o.Res) :
    (o : RunOp) → SessionWorld → Except Raised o.Res × SessionWorld
  | .service o, w => (answer w.issued (.service o),w.add [])
  | .reader (.openPool s), w =>
    (answer w.issued (.reader (.openPool s)),
      w.add (opening s (answer w.issued (.reader (.openPool s)))))
  | .reader (.closePool s), w =>
    if s ∈ openSessions w.log then (answer w.issued (.reader (.closePool s)),w.add [.closed s])
    else (.ok (),w.add [])
  | .reader (.listVms s), w =>
    (answer w.issued (.reader (.listVms s)),
      w.add (rejection s (answer w.issued (.reader (.listVms s)))))
  | .reader .clusterNodes, w =>
    (answer w.issued (.reader .clusterNodes),
      w.add (rejection .main (answer w.issued (.reader .clusterNodes))))
  | .reader (.disposeWsman s), w => (answer w.issued (.reader (.disposeWsman s)),w.add [])
  | .reader (.record o), w => (answer w.issued (.reader (.record o)),w.add [])

end SessionWorld

/-- A node's session opens when no other node's is open, and none opens after a rejection. -/
structure Orderly (log : List SessionEvent) : Prop where
  alone : ∀ before after i node, log = before ++ .opened (.node i node)::after →
    openNodes before = []
  stopped : ∀ before after s, log = before ++ .rejected s::after → ∀ s', .opened s' ∉ after

/-- An orderly log that leaves these sessions open; `calm` if no sign-in was rejected. -/
structure Standing (sessions : List SessionRef) (calm : Bool) (log : List SessionEvent) : Prop where
  orderly : Orderly log
  sessions : openSessions log = sessions
  calm : calm = true → ∀ s, .rejected s ∉ log

section
variable {sessions : List SessionRef} {calm : Bool} {log : List SessionEvent} {s : SessionRef}

theorem openSessions_append (log : List SessionEvent) (e : SessionEvent) :
    openSessions (log ++ [e]) = e.act (openSessions log) := List.foldl_concat ..

theorem append_singleton_cases {α : Type} {log before after : List α} {e x : α}
    (h : log ++ [e] = before ++ x::after) :
    (after = [] ∧ x = e ∧ before = log) ∨ ∃ rest, after = rest ++ [e] ∧ log = before ++ x::rest := by
  rcases List.eq_nil_or_concat after with rfl | ⟨rest,last,rfl⟩
  · obtain ⟨rfl,hx⟩ := List.append_inj' h rfl
    cases hx
    exact .inl ⟨rfl,rfl,rfl⟩
  · rw [List.concat_eq_append] at h ⊢
    rw [← List.cons_append,← List.append_assoc] at h
    obtain ⟨rfl,hlast⟩ := List.append_inj' h rfl
    cases hlast
    exact .inr ⟨rest,rfl,rfl⟩

theorem Orderly.nil : Orderly [] := by
  constructor
  · intro before after i node h
    cases before <;> cases h
  · intro before after s h
    cases before <;> cases h

theorem Orderly.append {e : SessionEvent} (h : Orderly log)
    (hopened : ∀ s, e = .opened s → openNodes log = [] ∧ ∀ s', .rejected s' ∉ log) :
    Orderly (log ++ [e]) := by
  constructor
  · intro before after i node hlog
    rcases append_singleton_cases hlog with ⟨_,hx,rfl⟩ | ⟨rest,_,hrest⟩
    · exact (hopened _ hx.symm).1
    · exact h.alone before rest i node hrest
  · intro before after s' hlog s'' hmem
    rcases append_singleton_cases hlog with ⟨rfl,_,_⟩ | ⟨rest,rfl,hrest⟩
    · cases hmem
    · rcases List.mem_append.mp hmem with hmem | hmem
      · exact h.stopped before rest s' hrest s'' hmem
      · refine (hopened s'' (List.mem_singleton.mp hmem).symm).2 s' ?_
        rw [hrest]
        exact List.mem_append_right _ List.mem_cons_self

theorem Standing.opened (h : Standing sessions true log) (hnodes : openNodes log = []) :
    Standing (s::sessions) true (log ++ [.opened s]) := by
  refine ⟨h.orderly.append fun _ _ => ⟨hnodes,h.calm rfl⟩,?_,fun _ s' hmem => ?_⟩
  · rw [openSessions_append,h.sessions]
    rfl
  · rcases List.mem_append.mp hmem with hmem | hmem
    · exact h.calm rfl s' hmem
    · cases List.mem_singleton.mp hmem

theorem Standing.closed (h : Standing (s::sessions) calm log) :
    Standing sessions calm (log ++ [.closed s]) := by
  refine ⟨h.orderly.append fun _ he => by (cases he),?_,fun hc s' hmem => ?_⟩
  · rw [openSessions_append,h.sessions]
    exact List.erase_cons_head ..
  · rcases List.mem_append.mp hmem with hmem | hmem
    · exact h.calm hc s' hmem
    · cases List.mem_singleton.mp hmem

theorem Standing.rejected (h : Standing sessions calm log) :
    Standing sessions false (log ++ [.rejected s]) := by
  refine ⟨h.orderly.append fun _ he => by (cases he),?_,fun hc => by cases hc⟩
  rw [openSessions_append,h.sessions]
  rfl

theorem Standing.weaken (h : Standing sessions calm log) : Standing sessions false log :=
  ⟨h.orderly,h.sessions,fun hc => by cases hc⟩

end

/-- The sign-in was rejected. -/
def IsRejection {α : Type} (x : Except Raised α) : Prop := ∃ message, x = .error (.authentication message)

/-- These sessions are open, and no sign-in was rejected except by the answer. -/
def Leaves {α : Type} (sessions : List SessionRef) (x : Except Raised α) (w : SessionWorld) : Prop :=
  Standing sessions true w.log ∨ (Standing sessions false w.log ∧ IsRejection x)

section
variable {answer : ℕ → (o : RunOp) → Except Raised o.Res} {w : SessionWorld}
  {sessions : List SessionRef} {s : SessionRef}

theorem Leaves.standing {α : Type} {x : Except Raised α} (h : Leaves sessions x w) :
    Standing sessions false w.log := h.elim Standing.weaken And.left

theorem meets_service {α : Type} (p : Collection α) :
    (service p).meets (SessionWorld.exec answer) w fun _ u => u.log = w.log := by
  induction p generalizing w with
  | ret a => rfl
  | raise e => rfl
  | call o next ih =>
    have h := ih (answer w.issued (.service o)) (w:=w.add [])
    exact Eq.trans h (List.append_nil w.log)

theorem meets_service_standing {α : Type} (p : Collection α) {calm : Bool}
    (h : Standing sessions calm w.log) :
    (service p).meets (SessionWorld.exec answer) w fun _ u => Standing sessions calm u.log := by
  refine Script.meets_mono (meets_service p) fun x u hu => ?_
  rw [hu]
  exact h

theorem meets_quiet {o : ReaderOp}
    (ho : (SessionWorld.exec answer (.reader o) w).2 = w.add []) :
    (reader o).meets (SessionWorld.exec answer) w fun _ u => u.log = w.log := by
  refine Script.meets_perform ?_
  rw [ho]
  exact List.append_nil w.log

theorem meets_disposeWsman :
    (disposeWsman s).meets (SessionWorld.exec answer) w fun x u => x = .ok () ∧ u.log = w.log :=
  Script.meets_tryCatch (R:=fun _ u => u.log = w.log) (meets_quiet rfl) (fun _ _ h => ⟨rfl,h⟩)
    fun _ _ h => ⟨rfl,h⟩

theorem leaves_rejection {α : Type} (h : Standing sessions true w.log) (x : Except Raised α) :
    Leaves sessions x (w.add (rejection s x)) := by
  have hsame : Standing sessions true (w.add []).log := by
    rw [SessionWorld.add,List.append_nil]
    exact h
  cases x with
  | ok a => exact .inl hsame
  | error e =>
    cases e with
    | authentication message => exact .inr ⟨h.rejected,message,rfl⟩
    | _ => exact .inl hsame

theorem meets_startSession (h : Standing sessions true w.log) (hnodes : openNodes w.log = []) :
    (startSession s).meets (SessionWorld.exec answer) w fun x u =>
      (x = .ok () ∧ Standing (s::sessions) true u.log) ∨
        (∃ e, x = .error e) ∧ Leaves sessions x u := by
  refine Script.meets_tryCatch (R:=fun x u => (x = .ok () ∧ Standing (s::sessions) true u.log) ∨
    (∃ e, x = .error e) ∧ Leaves sessions x u) (Script.meets_perform ?_) (fun _ _ h => h) ?_
  · cases hanswer : answer w.issued (.reader (.openPool s)) with
    | ok u =>
      refine .inl ⟨hanswer,?_⟩
      simp only [SessionWorld.exec,hanswer,opening]
      exact h.opened hnodes
    | error e =>
      refine .inr ⟨⟨e,hanswer⟩,?_⟩
      simp only [SessionWorld.exec,hanswer,opening]
      exact leaves_rejection h _
  · rintro e u (⟨he,_⟩ | ⟨_,hleaves⟩)
    · cases he
    · refine Script.meets_bind (meets_disposeWsman (w:=u)) ?_ ?_
      · rintro _ v ⟨_,hlog⟩
        refine Script.meets_throw (.inr ⟨⟨e,rfl⟩,?_⟩)
        unfold Leaves at hleaves ⊢
        rw [hlog]
        exact hleaves
      · rintro e' v ⟨he',_⟩
        cases he'

theorem Leaves.congr {α : Type} {x : Except Raised α} {u : SessionWorld}
    (h : Leaves sessions x w) (hlog : u.log = w.log) : Leaves sessions x u := by
  unfold Leaves at h ⊢
  rw [hlog]
  exact h

theorem Leaves.of_error {α β : Type} {e : Raised}
    (h : Leaves sessions (.error e : Except Raised α) w) :
    Leaves sessions (.error e : Except Raised β) w :=
  h.imp_right fun ⟨hstanding,message,he⟩ => ⟨hstanding,message,congrArg _ (Except.error.inj he)⟩

theorem Leaves.calm {α : Type} {x : Except Raised α} (h : Leaves sessions x w)
    (hx : ¬ IsRejection x) : Standing sessions true w.log := h.resolve_right fun hr => hx hr.2

theorem meets_closeSession_opened {calm : Bool} (h : Standing (s::sessions) calm w.log) :
    (closeSession s).meets (SessionWorld.exec answer) w fun x u =>
      x = .ok () ∧ Standing sessions calm u.log := by
  have hopen : s ∈ openSessions w.log := by
    rw [h.sessions]
    exact List.mem_cons_self
  refine Script.meets_bind (R:=fun x u => x = .ok () ∧ Standing sessions calm u.log)
    (Script.meets_tryCatch (R:=fun _ u => Standing sessions calm u.log) (Script.meets_perform ?_)
      (fun _ _ h => ⟨rfl,h⟩) fun _ _ h => ⟨rfl,h⟩) ?_ ?_
  · simp only [SessionWorld.exec,if_pos hopen]
    exact h.closed
  · rintro _ u ⟨_,hu⟩
    refine Script.meets_mono (meets_disposeWsman (w:=u)) fun x v hv => ⟨hv.1,?_⟩
    rw [hv.2]
    exact hu
  · rintro e u ⟨he,_⟩
    cases he

theorem meets_closeSession_unopened (h : s ∉ openSessions w.log) :
    (closeSession s).meets (SessionWorld.exec answer) w fun x u => x = .ok () ∧ u.log = w.log := by
  refine Script.meets_bind (R:=fun x u => x = .ok () ∧ u.log = w.log)
    (Script.meets_tryCatch (R:=fun _ u => u.log = w.log) (meets_quiet ?_)
      (fun _ _ h => ⟨rfl,h⟩) fun _ _ h => ⟨rfl,h⟩) ?_ ?_
  · simp only [SessionWorld.exec,if_neg h]
  · rintro _ u ⟨_,hu⟩
    exact Script.meets_mono (meets_disposeWsman (w:=u)) fun x v hv => ⟨hv.1,hv.2.trans hu⟩
  · rintro e u ⟨he,_⟩
    cases he

/-- The session of a node is closed again, whatever its calls raise. -/
theorem meets_queryNode {i : ℕ} {node : String} (h : Standing [.main] true w.log) :
    (queryNode (.node i node)).meets (SessionWorld.exec answer) w (Leaves [.main]) := by
  have hnodes : openNodes w.log = [] := by
    rw [openNodes,h.sessions]
    rfl
  have hbody : (do
      startSession (.node i node)
      let rows ← reader (.listVms (.node i node))
      pure (.inl rows) : ClusterRun (List Mapped ⊕ String)).meets (SessionWorld.exec answer) w
        fun x u => Leaves [.node i node,.main] x u ∨ Leaves [.main] x u := by
    refine Script.meets_bind (meets_startSession h hnodes) ?_ ?_
    · rintro _ u (⟨_,hu⟩ | ⟨⟨e,he⟩,_⟩)
      · refine Script.meets_bind (R:=Leaves [.node i node,.main])
          (Script.meets_perform (leaves_rejection hu _)) ?_ fun e v hv => .inl hv.of_error
        rintro rows v hv
        exact Script.meets_pure (.inl (.inl (hv.calm fun ⟨message,h⟩ => by cases h)))
      · cases he
    · rintro e u (⟨he,_⟩ | ⟨_,hu⟩)
      · cases he
      · exact .inr hu.of_error
  refine Script.meets_tryFinally (R:=fun x u =>
    Leaves [.node i node,.main] x u ∨ Leaves [.main] x u) ?_ ?_
  · refine Script.meets_tryCatch hbody (fun _ _ h => h) fun e u hu => ?_
    have hcalm : ∀ message, (∀ m, e ≠ .authentication m) →
        Leaves [.node i node,.main] (.ok (.inr message) : Except Raised (List Mapped ⊕ String)) u ∨
          Leaves [.main] (.ok (.inr message) : Except Raised (List Mapped ⊕ String)) u := by
      intro message he
      have hnot : ¬ IsRejection (.error e : Except Raised (List Mapped ⊕ String)) :=
        fun ⟨m,h⟩ => he m (Except.error.inj h)
      exact hu.imp (fun h => .inl (h.calm hnot)) fun h => .inl (h.calm hnot)
    cases e with
    | permission message => exact Script.meets_pure (hcalm message fun m h => by cases h)
    | portal typeName message => exact Script.meets_pure (hcalm message fun m h => by cases h)
    | authentication message => exact Script.meets_throw hu
    | other typeName text => exact Script.meets_throw hu
  · rintro x u (hu | hu)
    · rcases hu with hu | ⟨hu,hx⟩
      · refine Script.meets_mono (meets_closeSession_opened hu) ?_
        rintro _ v ⟨rfl,hv⟩
        exact .inl hv
      · refine Script.meets_mono (meets_closeSession_opened hu) ?_
        rintro _ v ⟨rfl,hv⟩
        exact .inr ⟨hv,hx⟩
    · have hclosed : SessionRef.node i node ∉ openSessions u.log := by
        rw [hu.standing.sessions]
        simp
      refine Script.meets_mono (meets_closeSession_unopened hclosed) ?_
      rintro _ v ⟨rfl,hv⟩
      exact hu.congr hv

theorem meets_record (outcome : CollectionOutcome) (h : Standing sessions true w.log) :
    (reader (.record outcome)).meets (SessionWorld.exec answer) w fun _ u =>
      Standing sessions true u.log := by
  refine Script.meets_mono (meets_quiet rfl) fun x u hu => ?_
  rw [hu]
  exact h

theorem meets_resolveNodes (h : Standing [.main] true w.log) :
    resolveNodes.meets (SessionWorld.exec answer) w (Leaves [.main]) := by
  have hrecord : ∀ (outcome : CollectionOutcome) (u : SessionWorld), Standing [.main] true u.log →
      (do
        reader (.record outcome)
        pure none : ClusterRun (Option (List (String × String)))).meets (SessionWorld.exec answer) u
          (Leaves [.main]) := by
    intro outcome u hu
    exact Script.meets_bind (meets_record outcome hu) (fun _ v hv => Script.meets_pure (.inl hv))
      fun e v hv => .inl hv
  refine Script.meets_tryCatch (R:=Leaves [.main]) ?_ (fun _ _ h => h) fun e u hu => ?_
  · refine Script.meets_bind (R:=Leaves [.main]) (Script.meets_perform (leaves_rejection h _)) ?_
      fun e v hv => hv.of_error
    intro nodes u hu
    have hcalm := hu.calm fun ⟨message,h⟩ => by cases h
    cases HyperVHost.resolveNodes (.ok nodes) with
    | ok named => exact Script.meets_pure (.inl hcalm)
    | error e => exact Script.meets_throw (.inl hcalm)
  · cases e with
    | permission message =>
      exact hrecord _ u (hu.calm fun ⟨m,h⟩ => by cases h)
    | portal typeName message =>
      exact hrecord _ u (hu.calm fun ⟨m,h⟩ => by cases h)
    | authentication message => exact Script.meets_throw hu
    | other typeName text => exact Script.meets_throw hu

variable {σ : Type} {body : VirtualMachine → σ → ClusterRun σ} {exit : Raised}

theorem meets_yieldRows {Q : Except Raised σ → SessionWorld → Prop}
    (hbody : ∀ vm t u, (body vm t).meets (SessionWorld.exec answer) u fun _ v => v.log = u.log)
    {k : ℕ → Listings Unit}
    (hk : ∀ total t u, u.log = w.log → (Generator.drive body exit (k total) t).meets
      (SessionWorld.exec answer) u Q)
    (herror : ∀ e u, u.log = w.log → Q (.error e) u) (rows : List Mapped) (total : ℕ) (t : σ)
    {u : SessionWorld} (hu : u.log = w.log) :
    (Generator.drive body exit (yieldRows rows total >>= k) t).meets (SessionWorld.exec answer) u
      Q := by
  induction rows generalizing total t u with
  | nil => exact hk total t u hu
  | cons row rows ih =>
    cases row with
    | error e => exact herror e u hu
    | ok vm =>
      rw [yieldRows,bind_assoc,Generator.drive_yield]
      exact Script.meets_bind (hbody vm t u) (fun t' v hv => ih (total+1) t' (hv.trans hu))
        fun e v hv => herror e v (hv.trans hu)

/-- One node after the other: every session is closed again before the next one is opened. -/
theorem meets_visitNodes
    (hbody : ∀ vm t u, (body vm t).meets (SessionWorld.exec answer) u fun _ v => v.log = u.log)
    (i : ℕ) (nodes : List (String × String)) (total : ℕ) (failedNodes : List (String × String))
    (t : σ) (h : Standing [.main] true w.log) :
    (Generator.drive body exit (visitNodes i nodes total failedNodes) t).meets
      (SessionWorld.exec answer) w (Leaves [.main]) := by
  induction nodes generalizing i total failedNodes t w with
  | nil =>
    rw [visitNodes,← bind_pure (Generator.lift _),Generator.drive_lift]
    refine Script.meets_bind (meets_record _ h) (fun _ u hu => Script.meets_pure (.inl hu))
      fun e u hu => .inl hu
  | cons n nodes ih =>
    obtain ⟨node,state⟩ := n
    unfold visitNodes
    split
    · exact ih _ _ _ _ h
    · rw [Generator.drive_lift]
      refine Script.meets_bind (meets_queryNode h) (fun answered u hu => ?_) fun e u hu => hu.of_error
      have hcalm := hu.calm fun ⟨message,h⟩ => by cases h
      cases answered with
      | inr message => exact ih _ _ _ _ hcalm
      | inl rows =>
        refine meets_yieldRows (w:=u) hbody (fun total t v hv => ih _ _ _ _ ?_)
          (fun e v hv => .inl ?_) rows total t rfl
        · rw [hv]
          exact hcalm
        · rw [hv]
          exact hcalm

theorem meets_listVirtualMachines
    (hbody : ∀ vm t u, (body vm t).meets (SessionWorld.exec answer) u fun _ v => v.log = u.log)
    (t : σ) (h : Standing [.main] true w.log) :
    (Generator.drive body exit listVirtualMachines t).meets (SessionWorld.exec answer) w
      (Leaves [.main]) := by
  rw [listVirtualMachines,Generator.drive_lift]
  refine Script.meets_bind (meets_resolveNodes h) (fun named u hu => ?_) fun e u hu => hu.of_error
  have hcalm := hu.calm fun ⟨message,h⟩ => by cases h
  cases named with
  | none => exact Script.meets_pure (.inl hcalm)
  | some nodes => exact meets_visitNodes hbody 0 nodes 0 [] t hcalm

variable {batchSize : ℤ} {connectionId : UUID} {observedAt : Timestamp} {conn : Connection}

theorem meets_consume (vm : VirtualMachine) (t : List VirtualMachine × UpsertResult)
    (u : SessionWorld) : (consume batchSize connectionId observedAt vm t).meets
      (SessionWorld.exec answer) u fun _ v => v.log = u.log := by
  unfold consume
  split
  · exact Script.meets_bind (meets_service _) (fun _ v hv => hv) fun _ v hv => hv
  · rfl

theorem meets_storeMachines (h : Standing [.main] true w.log) :
    (storeMachines batchSize connectionId observedAt).meets (SessionWorld.exec answer) w
      fun _ u => Standing [.main] false u.log := by
  have hstore : ∀ {α β : Type} (p : Collection α) (f : α → β) (u : SessionWorld),
      Standing [.main] false u.log → (service p >>= fun a => pure (f a)).meets
        (SessionWorld.exec answer) u fun _ v => Standing [.main] false v.log :=
    fun p f u hu => Script.meets_bind (meets_service_standing p hu) (fun _ v hv => hv) fun _ v hv => hv
  refine Script.meets_tryCatch (R:=fun _ u => Standing [.main] false u.log) ?_ (fun _ _ h => h) ?_
  · refine Script.meets_bind (meets_listVirtualMachines (fun vm t u => meets_consume vm t u) _ h)
      (fun t u hu => ?_) fun e u hu => hu.standing
    split
    · exact Script.meets_pure hu.standing
    · exact hstore _ _ u hu.standing
  · intro e u hu
    cases e with
    | authentication message => exact hstore _ _ u hu
    | _ => exact Script.meets_throw hu

/-- At the end nothing is open, whatever has been raised. -/
theorem meets_collect (h : Standing [] true w.log) :
    (collect batchSize conn).meets (SessionWorld.exec answer) w fun _ u =>
      Standing [] false u.log := by
  refine Script.meets_bind (meets_service_standing _ h) ?_ fun e u hu => hu.weaken
  intro observedAt w₁ h₁
  refine Script.meets_bind (meets_service_standing _ h₁) ?_ fun e u hu => hu.weaken
  intro _ w₂ h₂
  have hnodes : openNodes w₂.log = [] := by
    rw [openNodes,h₂.sessions]
    rfl
  refine Script.meets_bind (R:=fun x u => (x = .ok (.ok ()) ∧ Standing [.main] true u.log) ∨
    (∃ e, x = .ok (.error e)) ∧ Standing [] false u.log) (Script.meets_attempt ?_) ?_ ?_
  · refine Script.meets_mono (meets_startSession h₂ hnodes) fun x u hu => ?_
    rcases hu with ⟨rfl,hu⟩ | ⟨⟨e,rfl⟩,hu⟩
    · exact .inl ⟨rfl,hu⟩
    · exact .inr ⟨⟨e,rfl⟩,hu.standing⟩
  · rintro signedIn w₃ (⟨hsignedIn,h₃⟩ | ⟨⟨e,he⟩,h₃⟩)
    · cases hsignedIn
      have hclosed : (Script.tryFinally (storeMachines batchSize conn.connectionId observedAt)
          (closeSession .main)).meets (SessionWorld.exec answer) w₃ fun _ u =>
            Standing [] false u.log :=
        Script.meets_tryFinally (meets_storeMachines h₃) fun x u hu =>
          Script.meets_mono (meets_closeSession_opened hu) fun _ v hv => hv.2
      refine Script.meets_bind hclosed (fun stored u hu => ?_) fun e u hu => hu
      cases stored with
      | inl summary => exact Script.meets_pure hu
      | inr counts => exact meets_service_standing _ hu
    · cases he
      exact meets_service_standing _ h₃
  · rintro e u (⟨he,_⟩ | ⟨⟨e',he⟩,_⟩)
    · cases he
    · cases he

end

theorem Orderly.of_append {log later : List SessionEvent} (h : Orderly (log ++ later)) :
    Orderly log := by
  constructor
  · intro before after i node heq
    exact h.alone before (after ++ later) i node (by rw [heq,List.append_assoc]; rfl)
  · intro before after s heq s' hmem
    refine h.stopped before (after ++ later) s (by rw [heq,List.append_assoc]; rfl) s' ?_
    exact List.mem_append_left _ hmem

/-- In an orderly log there is at most one node's session open at any time. -/
theorem Orderly.openNodes_le_one {log : List SessionEvent} (h : Orderly log) :
    (openNodes log).length ≤ 1 := by
  induction log using List.reverseRecOn with
  | nil => exact Nat.zero_le 1
  | append_singleton log e ih =>
    have hlog : Orderly log := h.of_append
    rw [openNodes,openSessions_append]
    cases e with
    | opened s =>
      cases s with
      | main => exact ih hlog
      | node i node =>
        have hnodes : openNodes log = [] := h.alone log [] i node rfl
        rw [SessionEvent.act,List.filter_cons_of_pos rfl]
        rw [openNodes] at hnodes
        rw [hnodes]
        exact Nat.le_refl 1
    | closed s =>
      have hsub : (((openSessions log).erase s).filter (·.isNode)).Sublist (openNodes log) :=
        List.erase_sublist.filter _
      exact hsub.length_le.trans (ih hlog)
    | rejected s => exact ih hlog

/-- What a listing has yielded and recorded. -/
structure Listed where
  vms : List VirtualMachine := []
  outcomes : List CollectionOutcome := []

section
variable (nodes : Except Raised (List (Option String × Option String)))
  (opens : ℕ → String → Except Raised Unit) (rows : ℕ → String → Except Raised (List Mapped))

/-- The generator alone, with the answers of the cluster and of its nodes. -/
def listingExec : (o : GenOp RunOp VirtualMachine) → Listed → Except Raised (o.Res RunOp.Res) × Listed
  | .yield vm, l => (.ok (),{ l with vms := l.vms ++ [vm] })
  | .call (.reader (.record outcome)), l => (.ok (),{ l with outcomes := l.outcomes ++ [outcome] })
  | .call (.reader .clusterNodes), l => (nodes,l)
  | .call (.reader (.openPool (.node i node))), l => (opens i node,l)
  | .call (.reader (.listVms (.node i node))), l => (rows i node,l)
  | .call (.reader (.openPool .main)), l => (.ok (),l)
  | .call (.reader (.listVms .main)), l => (.ok [],l)
  | .call (.reader (.closePool _)), l => (.ok (),l)
  | .call (.reader (.disposeWsman _)), l => (.ok (),l)
  | .call (.service _), l => (.error generatorExit,l)

def hostAnswer (i : ℕ) (node : String) : HyperVHost.HostAnswer :=
  match opens i node with
  | .error e => .error e
  | .ok _ => rows i node

def outcomeOf : HyperVHost.HostAnswer → Except Raised (List Mapped ⊕ String)
  | .ok rows => .ok (.inl rows)
  | .error (.permission message) => .ok (.inr message)
  | .error (.portal _ message) => .ok (.inr message)
  | .error e => .error e

variable {nodes opens rows}

theorem run_queryNode (i : ℕ) (node : String) (l : Listed) :
    (Generator.lift (queryNode (.node i node)) : Listings (List Mapped ⊕ String)).run
      (listingExec nodes opens rows) l = (outcomeOf (hostAnswer opens rows i node),l) := by
  rw [Generator.run_lift]
  have hdispose : ∀ l, (disposeWsman (.node i node)).run
      (fun o => listingExec nodes opens rows (.call o)) l = (.ok (),l) := fun _ => rfl
  have hclose : ∀ l, (closeSession (.node i node)).run
      (fun o => listingExec nodes opens rows (.call o)) l = (.ok (),l) := fun _ => rfl
  have hrows : ∀ l, (reader (.listVms (.node i node))).run
      (fun o => listingExec nodes opens rows (.call o)) l = (rows i node,l) :=
    fun l => Script.run_perform _ _ l
  have hstart : ∀ l, (startSession (.node i node)).run
      (fun o => listingExec nodes opens rows (.call o)) l = (opens i node,l) := by
    intro l
    have hopen : (reader (.openPool (.node i node))).run
        (fun o => listingExec nodes opens rows (.call o)) l = (opens i node,l) :=
      Script.run_perform _ _ l
    rw [startSession,Script.run_tryCatch,hopen]
    cases opens i node with
    | ok u => rfl
    | error e => simp only [Script.run_bind,hdispose,Script.run_throw]
  rw [queryNode,Script.tryFinally,Script.run_bind,Script.run_tryCatch,Script.run_tryCatch,
    Script.run_bind,hstart,hostAnswer]
  cases opens i node with
  | error e => cases e <;> simp only [Script.run_pure,Script.run_throw,Script.run_bind,hclose,outcomeOf]
  | ok u =>
    simp only [Script.run_bind,hrows]
    cases rows i node with
    | ok rows => simp only [Script.run_pure,hclose,outcomeOf]
    | error e =>
      cases e <;> simp only [Script.run_pure,Script.run_throw,hclose,outcomeOf]

def endingOr {α : Type} (a : α) : Option Raised → Except Raised α
  | none => .ok a
  | some e => .error e

theorem run_yieldRows (mapped : List Mapped) (total : ℕ) (l : Listed) :
    (yieldRows mapped total).run (listingExec nodes opens rows) l =
      (endingOr (total + (takeMapped mapped).1.length) (takeMapped mapped).2,
        { l with vms := l.vms ++ (takeMapped mapped).1 }) := by
  induction mapped generalizing total l with
  | nil => simp [yieldRows,takeMapped,endingOr]
  | cons row mapped ih =>
    cases row with
    | error e => simp [yieldRows,takeMapped,endingOr]
    | ok vm =>
      rw [yieldRows,Script.run_bind,Generator.yield,Script.run_perform]
      simp only [listingExec,ih,takeMapped,List.length_cons,List.append_assoc,List.cons_append,
        List.nil_append,Nat.add_assoc,Nat.add_comm 1]

/-- A visit with sessions lists what a visit with answers does, and records it at its end. -/
theorem run_visitNodes (i : ℕ) (named : List (String × String)) (failedNodes : List (String × String))
    (l : Listed) :
    (visitNodes i named l.vms.length failedNodes).run (listingExec nodes opens rows) l =
      let visited := HyperVHost.visitNodes (hostAnswer opens rows) i named l.vms failedNodes
      (endingOr () visited.ending,⟨visited.vms,l.outcomes ++
        if visited.ending = none then [clusterOutcome visited.vms.length visited.failedNodes]
        else []⟩) := by
  induction named generalizing i failedNodes l with
  | nil =>
    rw [visitNodes,Generator.run_lift,reader,Script.run_perform]
    simp [listingExec,HyperVHost.visitNodes,endingOr]
  | cons n named ih =>
    obtain ⟨node,state⟩ := n
    unfold visitNodes HyperVHost.visitNodes
    by_cases hup : state.toLower = "up"
    · rw [if_neg (not_not.mpr hup),if_neg (not_not.mpr hup),Script.run_bind,run_queryNode]
      cases hostAnswer opens rows i node with
      | error e =>
        cases e with
        | permission message => exact ih (i+1) _ l
        | portal typeName message => exact ih (i+1) _ l
        | authentication message => simp [outcomeOf,endingOr]
        | other typeName text => simp [outcomeOf,endingOr]
      | ok mapped =>
        simp only [outcomeOf,Script.run_bind,run_yieldRows]
        rcases takeMapped mapped with ⟨vms,unmapped⟩
        cases unmapped with
        | some e => simp [endingOr]
        | none =>
          have hnext := ih (i+1) failedNodes { l with vms := l.vms ++ vms }
          rw [List.length_append] at hnext
          exact hnext
    · rw [if_pos hup,if_pos hup]
      exact ih (i+1) _ l

theorem run_resolveNodes_ok {named : List (String × String)} (l : Listed)
    (h : HyperVHost.resolveNodes nodes = .ok named) :
    resolveNodes.run (fun o => listingExec nodes opens rows (.call o)) l = (.ok (some named),l) := by
  have hasked : (reader .clusterNodes).run (fun o => listingExec nodes opens rows (.call o)) l =
      (nodes,l) := Script.run_perform _ _ l
  rw [resolveNodes,Script.run_tryCatch,Script.run_bind,hasked]
  cases nodes with
  | error e => cases h
  | ok raw => simp only [h,Script.run_pure]

/-- An error of the query is raised, or recorded with nothing listed. -/
theorem run_listVirtualMachines_refused {e : Raised}
    (h : HyperVHost.resolveNodes nodes = .error e) :
    listVirtualMachines.run (listingExec nodes opens rows) {} =
      (endingOr () (refused [] e).listing.ending,
        ⟨(refused [] e).listing.vms,(refused [] e).outcomes⟩) := by
  have hasked : (reader .clusterNodes).run (fun o => listingExec nodes opens rows (.call o)) {} =
      (nodes,{}) := Script.run_perform _ _ _
  have hrecord : ∀ outcome, (do
      reader (.record outcome)
      pure none : ClusterRun (Option (List (String × String)))).run
        (fun o => listingExec nodes opens rows (.call o)) {} = (.ok none,⟨[],[outcome]⟩) :=
    fun _ => rfl
  rw [listVirtualMachines,Script.run_bind,Generator.run_lift,resolveNodes,Script.run_tryCatch,
    Script.run_bind,hasked]
  cases nodes with
  | error e' =>
    obtain rfl := Except.error.inj h
    cases e' <;> simp only [hrecord,Script.run_throw,Script.run_pure,refused,Report.raised,
      Report.ended,endingOr]
  | ok raw =>
    simp only [h,Script.run_throw]
    cases e <;> simp only [hrecord,Script.run_throw,Script.run_pure,refused,Report.raised,
      Report.ended,endingOr]

/-- The generator yields, records and raises what the reader reports for the answers. -/
theorem run_listVirtualMachines :
    listVirtualMachines.run (listingExec nodes opens rows) {} =
      let report := HyperVHost.listCluster nodes (hostAnswer opens rows)
      (endingOr () report.listing.ending,⟨report.listing.vms,report.outcomes⟩) := by
  unfold HyperVHost.listCluster
  cases h : HyperVHost.resolveNodes nodes with
  | error e => exact run_listVirtualMachines_refused h
  | ok named =>
    rw [listVirtualMachines,Script.run_bind,Generator.run_lift,run_resolveNodes_ok {} h]
    refine (run_visitNodes 0 named [] {}).trans ?_
    simp only [List.nil_append]
    cases (HyperVHost.visitNodes (hostAnswer opens rows) 0 named [] []).ending with
    | none => rfl
    | some e => simp [Report.raised]

end

end ClusterSessions

open ClusterSessions

/-- Whatever the calls of a cluster collection answer or raise: a node's session opens when no
other node's is open, at most one is open at any time, none opens after a rejected sign-in, and at
the end none is open, the reader's own included. -/
theorem cluster_sessions_disciplined (batchSize : ℤ) (conn : Connection)
    (answer : ℕ → (o : RunOp) → Except Raised o.Res) :
    let log := ((collect batchSize conn).run (SessionWorld.exec answer) {}).2.log
    (∀ before after i node, log = before ++ .opened (.node i node)::after → openNodes before = []) ∧
    (∀ before, before <+: log → (openNodes before).length ≤ 1) ∧
    (∀ before after s, log = before ++ .rejected s::after → ∀ s', .opened s' ∉ after) ∧
    openSessions log = [] := by
  intro log
  have hstart : Standing [] true ({} : SessionWorld).log :=
    ⟨.nil,rfl,fun _ s h => by cases h⟩
  have hend : Standing [] false log := meets_collect hstart
  refine ⟨hend.orderly.alone,?_,hend.orderly.stopped,hend.sessions⟩
  rintro before ⟨rest,hrest⟩
  exact Orderly.openNodes_le_one (hrest ▸ hend.orderly : Orderly (before ++ rest)).of_append

end WzonePortal
