import WzonePortal.CollectionLock
import WzonePortal.PartialFailures
import WzonePortal.CredentialErrors

/-! The status that a failed collection stores. The sign-in tells the portal's errors apart by
their class; a listing puts them into an outcome, which has no class, and only a rejected sign-in
is raised again. -/
namespace WzonePortal

open ConnectionRepository VirtualMachineRepository CollectService CollectRoute LockScript
  InventoryReaders

/-- The errors of the domain, which an adapter may raise. -/
inductive DomainError
  | authentication (message : String)
  | permission (message : String)
  | portal (typeName message : String)
  deriving DecidableEq, Repr

namespace DomainError

def raised : DomainError → Raised
  | .authentication message => .authentication message
  | .permission message => .permission message
  | .portal typeName message => .portal typeName message

def IsAuthentication : DomainError → Prop
  | .authentication _ => True
  | _ => False

def IsPermission : DomainError → Prop
  | .permission _ => True
  | _ => False

/-- Each class of errors has a status of its own. -/
def Classified (e : DomainError) (status : Option ConnectionStatus) : Prop :=
  (status = some .credentialError ↔ e.IsAuthentication) ∧
    (status = some .permissionError ↔ e.IsPermission) ∧
    (status = some .unreachable ↔ ¬ e.IsAuthentication ∧ ¬ e.IsPermission)

end DomainError

/-- `translate_error` passes the domain's errors on; what becomes of the others is left open. -/
def asDomain (foreign : String → String → DomainError) : Raised → Raised
  | .other typeName text => (foreign typeName text).raised
  | e => e

/-- Where an adapter with one session raises. Behind the query there is only the mapping of the
rows for Hyper-V and SCVMM; vCenter may break off after any number of machines. -/
inductive FailurePoint
  | start
  | vcenter (vms : List VirtualMachine) (exc : Raised)
  | host
  | scvmm

/-- The reader of the run lists what these answers give. -/
structure ListsAs (env : Surroundings) (foreign : String → String → DomainError)
    (answers : Answers) : Prop where
  start : ∀ n conn, env.fault n (.startSession conn) = none
  listing : env.listing = (answers.report (asDomain foreign)).listing
  outcomes : env.outcomes = (answers.report (asDomain foreign)).outcomes

/-- The adapter of the run raises this error at this point. -/
def RaisesAt (env : Surroundings) (foreign : String → String → DomainError) (e : DomainError) :
    FailurePoint → Prop
  | .start => ∀ n conn, env.fault n (.startSession conn) = some e.raised
  | .vcenter vms exc =>
    asDomain foreign exc = e.raised ∧ ListsAs env foreign (.vcenter (vms.map .ok) (some exc))
  | .host => ListsAs env foreign (.host (.error e.raised))
  | .scvmm => ListsAs env foreign (.scvmm (.error e.raised))

/-- The status that is stored. -/
def statusAt (e : DomainError) : FailurePoint → ConnectionStatus
  | .start => match e with
    | .authentication _ => .credentialError
    | .permission _ => .permissionError
    | .portal _ _ => .unreachable
  | _ => match e with
    | .authentication _ => .credentialError
    | _ => .unreachable

theorem classified_statusAt_iff (e : DomainError) (point : FailurePoint) :
    e.Classified (some (statusAt e point)) ↔ ¬ (point ≠ .start ∧ e.IsPermission) := by
  cases point <;> cases e <;>
    simp [DomainError.Classified,statusAt,DomainError.IsAuthentication,DomainError.IsPermission]

/-- A listing that fails with `e`: the sign-in's rejection is raised, and any other error is in
the one outcome. -/
structure FailedListing (e : DomainError) (listing : Listing) (outcomes : List CollectionOutcome) :
    Prop where
  authentication : e.IsAuthentication → ∃ message, listing.ending = some (.authentication message)
  other : ¬ e.IsAuthentication → listing.ending = none ∧
    ∃ outcome, outcomes = [outcome] ∧ outcome.failed = true

section
variable {env : Surroundings} {foreign : String → String → DomainError} {e : DomainError}

theorem failedListing_refused (vms : List VirtualMachine) (e : DomainError) :
    FailedListing e (refused vms e.raised).listing (refused vms e.raised).outcomes := by
  cases e with
  | authentication message => exact ⟨fun _ => ⟨message,rfl⟩,fun h => absurd trivial h⟩
  | permission message => exact ⟨fun h => h.elim,fun _ => ⟨rfl,_,rfl,rfl⟩⟩
  | portal typeName message => exact ⟨fun h => h.elim,fun _ => ⟨rfl,_,rfl,rfl⟩⟩

theorem failedListing_vcenter (vms : List VirtualMachine) {exc : Raised}
    (hexc : asDomain foreign exc = e.raised) :
    FailedListing e
      (VCenter.listVirtualMachines (asDomain foreign) (vms.map .ok) (some exc)).listing
      (VCenter.listVirtualMachines (asDomain foreign) (vms.map .ok) (some exc)).outcomes := by
  have hmapped : takeMapped (vms.map .ok) = (vms,none) := by
    induction vms with
    | nil => rfl
    | cons vm vms ih => rw [List.map_cons,takeMapped,ih]
  simp only [VCenter.listVirtualMachines,hmapped,Option.none_or]
  cases exc with
  | authentication message =>
    cases e with
    | authentication m => exact ⟨fun _ => ⟨message,rfl⟩,fun h => absurd trivial h⟩
    | permission m => cases hexc
    | portal typeName m => cases hexc
  | _ =>
    simp only [hexc]
    cases e with
    | authentication m => exact ⟨fun _ => ⟨m,rfl⟩,fun h => absurd trivial h⟩
    | permission m => exact ⟨fun h => h.elim,fun _ => ⟨rfl,_,rfl,rfl⟩⟩
    | portal typeName m => exact ⟨fun h => h.elim,fun _ => ⟨rfl,_,rfl,rfl⟩⟩

theorem failedListing_of_raisesAt {point : FailurePoint} (hpoint : point ≠ .start)
    (h : RaisesAt env foreign e point) :
    (∀ n conn, env.fault n (.startSession conn) = none) ∧
      FailedListing e env.listing env.outcomes := by
  cases point with
  | start => exact absurd rfl hpoint
  | vcenter vms exc =>
    refine ⟨h.2.start,?_⟩
    rw [h.2.listing,h.2.outcomes]
    exact failedListing_vcenter vms h.1
  | host =>
    refine ⟨h.start,?_⟩
    rw [h.listing,h.outcomes]
    exact failedListing_refused [] e
  | scvmm =>
    refine ⟨h.start,?_⟩
    rw [h.listing,h.outcomes]
    exact failedListing_refused [] e

variable {conn : Connection} {start w : World} {t : Timestamp}

theorem storedStatus_markFailure {c : UUID} {db : Database}
    (h : (db.connections.find? c).isSome) (now : Timestamp) (error : String)
    (status : ConnectionStatus) :
    storedStatus c (ConnectionRepository.markFailure now c error status db) = some status := by
  obtain ⟨row,hrow⟩ := Option.isSome_iff_exists.mp h
  simp only [storedStatus,ConnectionRepository.markFailure,Table.find?_modify,if_pos,hrow,
    Option.map_some]
  rfl

theorem collected_status {α : Type} {final : α → Prop} {status : ConnectionStatus}
    (hrow : (start.committed.connections.find? conn.connectionId).isSome)
    (h : InRun conn.connectionId start w) (error : String) {f : Unit → Collection α}
    (hf : ∀ w', InRun conn.connectionId start w' →
      storedStatus conn.connectionId (w'.working .run) = some status →
      (f ()).meets (World.exec env) w' (Collected conn
        (fun db => storedStatus conn.connectionId db = some status) start final)) :
    (step (CollectionStep.markFailure .run conn.connectionId error status) >>= f).meets
      (World.exec env) w (Collected conn
        (fun db => storedStatus conn.connectionId db = some status) start final) :=
  collected_markFailure h error status
    (fun now _ hdb => storedStatus_markFailure (by rw [hdb.exists_]; exact hrow) now error status) hf

theorem meets_signInFailed_status
    (hrow : (start.committed.connections.find? conn.connectionId).isSome)
    (h : InRun conn.connectionId start w) (e : DomainError) :
    (signInFailed conn.connectionId e.raised).meets (World.exec env) w (Collected conn
      (fun db => storedStatus conn.connectionId db = some (statusAt e .start)) start
      fun _ => True) := by
  cases e with
  | authentication message =>
    refine collected_status hrow h message fun w₁ h₁ hstatus => ?_
    refine Script.meets_bind (R:=fun _ u => InRun conn.connectionId start u ∧
      storedStatus conn.connectionId (u.working .run) = some .credentialError)
      (meets_idle rfl rfl fun _ => ⟨h₁.tick,hstatus⟩) ?_ fun e u hu => collected_error hu.1
    exact fun _ u hu => collected_pure hu.1 fun _ => hu.2
  | permission message =>
    exact collected_status hrow h message fun u hu hstatus => collected_pure hu fun _ => hstatus
  | portal typeName message =>
    exact collected_status hrow h message fun u hu hstatus => collected_pure hu fun _ => hstatus

theorem storeBatches_not_ok {batchSize : ℤ} {c : UUID} {e : Raised}
    (vms batch : List VirtualMachine) (counts : UpsertResult) :
    (storeBatches batchSize c t (some e) vms batch counts).meets (World.exec env) w fun x _ =>
      ∀ counts', x ≠ .ok counts' := by
  have herror : ∀ e' : Raised, ∀ counts', (.error e' : Except Raised UpsertResult) ≠ .ok counts' :=
    fun e' counts' h => by cases h
  induction vms generalizing batch counts w with
  | nil => exact herror e
  | cons vm vms ih =>
    unfold storeBatches
    split
    · exact Script.meets_bind (R:=fun _ _ => True) trivial (fun stored u _ => ih _ _)
        fun e' u _ => herror e'
    · exact ih _ _

/-- A listing that is broken off by a rejected sign-in is never concluded. -/
theorem meets_storeMachines_rejected {message : String}
    (hrow : (start.committed.connections.find? conn.connectionId).isSome)
    (hending : env.listing.ending = some (.authentication message))
    (batchSize : ℤ) (h : InRun conn.connectionId start w) :
    (storeMachines batchSize conn.connectionId t).meets (World.exec env) w fun x u =>
      Collected conn (fun db => storedStatus conn.connectionId db = some .credentialError) start
        (fun _ => True) x u ∧ ∀ counts, x ≠ .ok (.inr counts) := by
  refine Script.meets_tryCatch (R:=fun x u => InRun conn.connectionId start u ∧ ∀ a, x ≠ .ok a) ?_
    (fun a u hu => absurd rfl (hu.2 a)) ?_
  · refine Script.meets_bind (R:=fun x u => InRun conn.connectionId start u ∧
      ∀ listing, x = .ok listing → listing = env.listing)
      (Script.meets_perform ⟨h.exec trivial,fun listing hlisting => ?_⟩) ?_
      fun e u hu => ⟨hu.1,fun a ha => by cases ha⟩
    · simp only [World.exec] at hlisting
      split at hlisting
      · cases hlisting
      · exact (Except.ok.inj hlisting).symm
    · rintro listing u ⟨hu,hlisting⟩
      rw [hlisting listing rfl,hending]
      refine Script.meets_bind (R:=fun x v => InRun conn.connectionId start v ∧
        ∀ counts, x ≠ .ok counts) ⟨?_,storeBatches_not_ok _ _ _⟩
        (fun counts v hv => absurd rfl (hv.2 counts)) fun e v hv => ⟨hv.1,fun a ha => by cases ha⟩
      exact (issues_storeBatches batchSize conn t _ _ _ _).run (fun o u ho hu => hu.exec ho) hu
  · rintro e u ⟨hu,_⟩
    cases e with
    | authentication m =>
      have hsummary : (step (CollectionStep.markFailure .run conn.connectionId m .credentialError) >>=
          fun _ => pure (.inl (CollectService.failure conn.connectionId m)) :
          Collection (CollectSummary ⊕ UpsertResult)).meets (World.exec env) u fun x _ =>
            ∀ counts, x ≠ .ok (.inr counts) := by
        refine Script.meets_bind (R:=fun _ _ => True) trivial (fun _ v _ => ?_) fun e v _ => ?_
        · exact Script.meets_pure fun counts hcounts => by cases hcounts
        · exact fun counts hcounts => by cases hcounts
      exact ⟨collected_status hrow hu m fun v hv hstatus => collected_pure hv fun _ => hstatus,
        hsummary⟩
    | _ => exact Script.meets_throw ⟨collected_error hu,fun counts hcounts => by cases hcounts⟩

theorem meets_conclude_failed {outcome : CollectionOutcome}
    (hrow : (start.committed.connections.find? conn.connectionId).isSome)
    (hout : env.outcomes = [outcome]) (hfailed : outcome.failed = true)
    (h : InRun conn.connectionId start w) (counts : UpsertResult) :
    (conclude conn.connectionId t counts).meets (World.exec env) w (Collected conn
      (fun db => storedStatus conn.connectionId db = some .unreachable) start fun _ => True) := by
  refine collected_then (s:=.log .run) rfl h fun _ w₁ h₁ => ?_
  refine collected_answer (s:=.getOutcomes) trivial h₁ rfl fun w₂ h₂ => ?_
  rw [hout]
  simp only [List.head?_cons,Option.filter_some,hfailed,if_pos]
  exact collected_status hrow h₂ _ fun w' hw' hstatus => collected_pure hw' fun _ => hstatus

theorem meets_closed_rejected {message : String}
    (hrow : (start.committed.connections.find? conn.connectionId).isSome)
    (hending : env.listing.ending = some (.authentication message)) (batchSize : ℤ)
    (h : InRun conn.connectionId start w) :
    (Script.tryFinally (storeMachines batchSize conn.connectionId t)
      (step CollectionStep.closeReader)).meets (World.exec env) w fun x u =>
        Collected conn (fun db => storedStatus conn.connectionId db = some .credentialError) start
          (fun _ => True) x u ∧ ∀ counts, x ≠ .ok (.inr counts) := by
  refine Script.meets_tryFinally (meets_storeMachines_rejected hrow hending batchSize h)
    fun x w₁ h₁ => meets_idle rfl rfl fun y => ⟨⟨h₁.1.1.tick,fun a ha _ => ?_⟩,fun counts hcounts => ?_⟩
  · cases y with
    | error e => cases ha
    | ok u => exact h₁.1.2 a ha trivial
  · cases y with
    | error e => cases hcounts
    | ok u => exact h₁.2 counts hcounts

theorem statusAt_listing {e : DomainError} {point : FailurePoint} (hpoint : point ≠ .start) :
    (e.IsAuthentication → statusAt e point = .credentialError) ∧
      (¬ e.IsAuthentication → statusAt e point = .unreachable) := by
  cases point with
  | start => exact absurd rfl hpoint
  | _ => cases e <;> simp [statusAt,DomainError.IsAuthentication]

theorem meets_collect_status {e : DomainError} {point : FailurePoint} (hdriver : env.DriverErrors)
    (hrow : (start.committed.connections.find? conn.connectionId).isSome)
    (hraises : RaisesAt env foreign e point) (batchSize : ℤ)
    (h : InRun conn.connectionId start w) :
    (collect batchSize conn).meets (World.exec env) w (Collected conn
      (fun db => storedStatus conn.connectionId db = some (statusAt e point)) start
      fun _ => True) := by
  refine collected_answer (s:=.now) trivial h rfl fun w₁ h₁ => ?_
  refine collected_then (s:=.buildReader conn) rfl h₁ fun _ w₂ h₂ => ?_
  by_cases hpoint : point = .start
  · subst hpoint
    have hfault : env.fault w₂.issued (.startSession conn) = some e.raised := hraises _ _
    refine Script.meets_bind (R:=fun x u => x = .ok (.error e.raised) ∧
      InRun conn.connectionId start u)
      (Script.meets_attempt (Script.meets_perform ⟨?_,h₂.exec rfl⟩)) ?_ fun e u hu =>
        collected_error hu.2
    · simp only [World.exec,hfault]
    · rintro signedIn u ⟨hsignedIn,hu⟩
      cases hsignedIn
      exact meets_signInFailed_status hrow hu e
  · obtain ⟨hstart,hfailed⟩ := failedListing_of_raisesAt hpoint hraises
    obtain ⟨hcredential,hunreachable⟩ := statusAt_listing (e:=e) hpoint
    refine Script.meets_bind (R:=fun x u => x = .ok (.ok ()) ∧ InRun conn.connectionId start u)
      (Script.meets_attempt (Script.meets_perform ⟨?_,h₂.exec rfl⟩)) ?_ fun e u hu =>
        collected_error hu.2
    · simp only [World.exec,World.perform,hstart]
    · rintro signedIn w₃ ⟨hsignedIn,h₃⟩
      cases hsignedIn
      by_cases hauth : e.IsAuthentication
      · obtain ⟨message,hending⟩ := hfailed.authentication hauth
        rw [hcredential hauth]
        refine Script.meets_bind (meets_closed_rejected hrow hending batchSize h₃) ?_
          fun e u hu => collected_error hu.1.1
        rintro stored u ⟨hu,hright⟩
        cases stored with
        | inl summary => exact collected_pure hu.1 fun _ => hu.2 _ rfl trivial
        | inr counts => exact absurd rfl (hright counts)
      · obtain ⟨hending,outcome,hout,hof⟩ := hfailed.other hauth
        rw [hunreachable hauth]
        refine Script.meets_bind (meets_closed_ended hdriver hending batchSize h₃) ?_
          fun e u hu => collected_error hu.1
        rintro stored u ⟨hu,hleft⟩
        cases stored with
        | inl summary => exact absurd rfl (hleft summary)
        | inr counts => exact meets_conclude_failed hrow hout hof hu counts

end

/-- A collection that is committed has stored the status of the class of its error, wherever the
adapter has raised it, except for a missing permission while listing. -/
theorem status_by_class_iff (env : Surroundings) (hdriver : env.DriverErrors)
    (foreign : String → String → DomainError) (e : DomainError) (point : FailurePoint)
    (hraises : RaisesAt env foreign e point) (batchSize : ℤ) (conn : Connection) (start : World)
    (hrow : (start.committed.connections.find? conn.connectionId).isSome)
    (hcommitted : ((collectAndCommit batchSize conn).run (World.exec env)
      (start.setWorking .run start.committed)).1 = .ok ()) :
    e.Classified (storedStatus conn.connectionId ((collectAndCommit batchSize conn).run
      (World.exec env) (start.setWorking .run start.committed)).2.committed) ↔
      ¬ (point ≠ .start ∧ e.IsPermission) := by
  have hstored := (meets_collectAndCommit (meets_collect_status hdriver hrow hraises batchSize
    (InRun.opened conn.connectionId start))).2 hcommitted
  rw [hstored]
  exact classified_statusAt_iff e point

def noPermission : DomainError := .permission "조회 권한이 부족합니다."

def startDenied : Surroundings :=
  { calm with fault := fun _ s => match s with
      | .startSession _ => some noPermission.raised
      | _ => none }

theorem startDenied_driverErrors : startDenied.DriverErrors := by
  refine ⟨fun n s message hs h => ?_,fun e message h => by cases h⟩
  cases s with
  | startSession conn => exact hs conn rfl
  | _ => cases h

theorem status_by_class_start : noPermission.Classified (storedStatus 7
    ((collectAndCommit 500 CollectionLock.someConnection).run (World.exec startDenied)
      ((World.fresh {7} emptyStore).setWorking .run emptyStore)).2.committed) :=
  (status_by_class_iff startDenied startDenied_driverErrors (fun _ => .portal "CollectionError")
    noPermission .start (fun _ _ => rfl) 500 CollectionLock.someConnection (World.fresh {7} emptyStore) rfl
    rfl).mpr fun h => h.1 rfl

def listingDenied : Surroundings :=
  { calm with outcomes := [record 0 true (some "조회 권한이 부족합니다.")] }

/-- A permission that is missing while listing is stored as an unreachable connection. -/
theorem denied_listing_unreachable :
    RaisesAt listingDenied (fun _ => .portal "CollectionError") noPermission
        (.vcenter [] noPermission.raised) ∧
      storedStatus 7 ((collectAndCommit 500 CollectionLock.someConnection).run (World.exec listingDenied)
        ((World.fresh {7} emptyStore).setWorking .run emptyStore)).2.committed =
          some .unreachable :=
  ⟨⟨rfl,⟨fun _ _ => rfl,rfl,rfl⟩⟩,rfl⟩

end WzonePortal
