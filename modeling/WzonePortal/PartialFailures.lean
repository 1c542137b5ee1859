import WzonePortal.CollectionRuns
import WzonePortal.InventoryReaders

/-! Where an error in a reader's outcome can be seen afterwards. The service looks at `failed`
alone: without it the run counts as a success, and a success clears the last error. -/
namespace WzonePortal

open ConnectionRepository VirtualMachineRepository CollectService CollectRoute LockScript
  InventoryReaders

def Contains (text part : String) : Prop := ∃ before after, text = before ++ part ++ after

/-- The row of the connection has an error text with the message in it. -/
def Shows (c : UUID) (message : String) (db : Database) : Prop :=
  ∃ row text, db.connections.find? c = some row ∧ row.lastError = some text ∧ Contains text message

theorem contains_self (text : String) : Contains text text := ⟨"","",by simp⟩

theorem contains_empty (text : String) : Contains text "" := ⟨text,"",by simp⟩

/-- What may happen until the next collection of `c` starts: requests that do not delete the
connection, and collections of other connections, in any order. -/
inductive Meanwhile (c : UUID) (db : Database) : Database → Prop
  | refl : Meanwhile c db db
  | request {α : Type} {db' : Database} (dbms : Dbms) (p : Service α)
      (hp : p.Issues fun o => o ≠ .write (.deleteConnection c)) :
      Meanwhile c db db' → Meanwhile c db (serve dbms p db').2
  | start {db' : Database} (env : Surroundings) (running : Finset UUID) {d : UUID} (hd : d ≠ c) :
      Meanwhile c db db' →
        Meanwhile c db ((startCollection d).run (World.exec env) (World.fresh running db')).2.committed
  | run {db' : Database} (env : Surroundings) (running : Finset UUID) (batchSize : ℤ)
      (maskText : String → String) {d : UUID} (hd : d ≠ c) :
      Meanwhile c db db' →
        Meanwhile c db ((runCollection batchSize maskText d).run (World.exec env)
          (World.fresh running db')).2.committed

def StaysShown (c : UUID) (message : String) (db : Database) : Prop :=
  ∀ db', Meanwhile c db db' → Shows c message db'

section
variable {c : UUID} {row : ConnectionRow} {db db' : Database} {dbms : Dbms}

/-- No write but its own deletion changes the row of a connection. -/
theorem write_keeps_connection {w : Write} (hrow : db.connections.find? c = some row)
    (hw : w ≠ .deleteConnection c) (h : w.apply dbms db = .ok db') :
    db'.connections.find? c = some row := by
  cases w with
  | insertUser r =>
    obtain ⟨_,users,_,rfl⟩ := Write.apply_insertUser h
    exact hrow
  | patchUser userId p =>
    obtain ⟨_,rfl⟩ := Write.apply_patchUser h
    exact hrow
  | replaceScopes userId ids grantedBy at_ =>
    obtain ⟨_,scopes,_,rfl⟩ := Write.apply_replaceScopes h
    exact hrow
  | insertAudit r =>
    obtain ⟨_,rfl⟩ := Write.apply_insertAudit h
    exact hrow
  | insertConnection r =>
    obtain ⟨connections,hinsert,rfl⟩ := Write.apply_insertConnection h
    have hne : r.connectionId ≠ c := by
      rintro rfl
      refine (Table.insert_eq_some.mp hinsert).1 (List.mem_map.mpr ?_)
      exact ⟨row,((Table.find?_eq_some _ _ _).mp hrow).1,Table.find?_key hrow⟩
    rw [Table.find?_insert hinsert,if_neg hne]
    exact hrow
  | deleteConnection d =>
    have hne : d ≠ c := fun he => hw (by rw [he])
    cases Write.apply_deleteConnection h
    obtain ⟨hmem,hkey⟩ := (Table.find?_eq_some _ _ _).mp hrow
    refine (Table.find?_eq_some _ _ _).mpr ⟨(Table.mem_deleteWhere _ _ _).mpr ⟨hmem,?_⟩,hkey⟩
    have hother : row.connectionId ≠ d := fun he => hne (he.symm.trans hkey)
    simpa using hother

/-- The session of a request has the row, committed and in its working copy. -/
def SessionHas (c : UUID) (row : ConnectionRow) (s : Session) : Prop :=
  s.committed.connections.find? c = some row ∧ s.working.connections.find? c = some row

theorem sessionHas_exec {o : Stmt} {s : Session} (ho : o ≠ .write (.deleteConnection c))
    (h : SessionHas c row s) : SessionHas c row (Session.exec dbms o s).2 := by
  cases o with
  | query q =>
    simp only [Session.exec]
    split
    · exact h
    · split
      · exact h
      · exact ⟨h.1,h.1⟩
  | write w =>
    simp only [Session.exec]
    split
    · exact h
    · split
      · rename_i hdb
        exact ⟨h.1,write_keeps_connection h.2 (fun he => ho (by rw [he])) hdb⟩
      · exact ⟨h.1,h.1⟩
  | commit =>
    simp only [Session.exec]
    split
    · exact h
    · exact ⟨h.2,h.2⟩
  | rollback => exact ⟨h.1,h.1⟩

theorem serve_keeps_connection {α : Type} {p : Service α}
    (hp : p.Issues fun o => o ≠ .write (.deleteConnection c))
    (hrow : db.connections.find? c = some row) :
    (serve dbms p db).2.connections.find? c = some row := by
  have hall : (getDb p).Issues fun o => o ≠ .write (.deleteConnection c) := by
    refine Script.Issues.tryCatch (hp.bind fun r => ?_) fun e => ?_
    · refine Script.Issues.bind (Script.issues_perform ?_) fun _ => Script.issues_pure _
      simp
    · refine Script.Issues.bind (Script.issues_perform ?_) fun _ => Script.issues_throw _
      simp
  have hstep : ∀ (o : Stmt) (s : Session), o ≠ .write (.deleteConnection c) → SessionHas c row s →
      SessionHas c row (Session.exec dbms o s).2 := fun o s ho hs => sessionHas_exec ho hs
  exact (hall.run hstep (s:=Session.fresh db) ⟨hrow,hrow⟩).1

end

/-- Statements that leave the row of `c` alone. -/
def Outside (c : UUID) : LockOp UUID CollectionStep → Prop
  | .step (.markAttempt d) => d ≠ c
  | .step (.markSuccess d _) => d ≠ c
  | .step (.markFailure _ d _ _) => d ≠ c
  | _ => True

/-- Every copy of the database has the row. -/
structure Untouched (c : UUID) (row : ConnectionRow) (w : World) : Prop where
  committed : w.committed.connections.find? c = some row
  working : ∀ part, (w.working part).connections.find? c = some row

section
variable {c d : UUID} {row : ConnectionRow} {w : World} {env : Surroundings}

theorem Untouched.setWorking (h : Untouched c row w) {db : Database}
    (hdb : db.connections.find? c = some row) (part : Part) :
    Untouched c row (w.setWorking part db) := by
  refine ⟨h.committed,fun p => ?_⟩
  by_cases hp : p = part
  · subst hp
    rw [World.setWorking_self]
    exact hdb
  · rw [World.setWorking_other _ hp]
    exact h.working p

theorem Untouched.modify (h : Untouched c row w) (hd : d ≠ c) (part : Part)
    {f : ConnectionRow → ConnectionRow} (hf : ∀ r, (f r).connectionId = r.connectionId) :
    Untouched c row (w.setWorking part
      { w.working part with connections := (w.working part).connections.modify d f hf }) := by
  refine h.setWorking ?_ part
  rw [Table.find?_modify,if_neg hd.symm]
  exact h.working part

theorem Untouched.upsert (h : Untouched c row w) {uuid4 : ℕ → UUID} {t : Timestamp}
    {vms : List VirtualMachine} {stored : UpsertResult × Database}
    (hstored : upsertVirtualMachines uuid4 (w.working .run) d vms t = .ok stored) :
    Untouched c row (w.setWorking .run stored.2) := by
  refine h.setWorking ?_ .run
  rw [(keepsMachines_upsert hstored).1]
  exact h.working .run

theorem Untouched.perform {s : CollectionStep} (hs : Outside c (.step s)) (h : Untouched c row w) :
    Untouched c row (World.perform env s w).2 := by
  cases s with
  | openSession part => exact h.setWorking h.committed part
  | closeSession part => exact h.setWorking h.committed part
  | rollback part => exact h.setWorking h.committed part
  | commit part => exact ⟨h.working part,h.working⟩
  | markAttempt d => exact h.modify hs .request (attempted_connectionId _)
  | markSuccess d at_ => exact h.modify hs .run (succeeded_connectionId _ at_)
  | markFailure part d error status => exact h.modify hs part (failed_connectionId _ error status)
  | upsert d batch observedAt =>
    simp only [World.perform]
    split
    · rename_i hstored
      exact h.upsert hstored
    · exact h.setWorking h.committed .run
  | startSession conn => exact ⟨h.committed,h.working⟩
  | _ => exact h

theorem Untouched.disturbed {s : CollectionStep} (h : Untouched c row w) :
    Untouched c row (World.disturbed env s w) := by
  cases s with
  | upsert d batch observedAt =>
    simp only [World.disturbed]
    split
    · rename_i hstored
      exact h.upsert hstored
    · exact h
  | startSession conn => exact ⟨h.committed,h.working⟩
  | _ => exact h

theorem Untouched.exec {o : LockOp UUID CollectionStep} (ho : Outside c o)
    (h : Untouched c row w) : Untouched c row (World.exec env o w).2 := by
  cases o with
  | enter d =>
    simp only [World.exec]
    split
    · exact h
    · exact ⟨h.committed,h.working⟩
  | discard d => exact ⟨h.committed,h.working⟩
  | step s =>
    simp only [World.exec]
    split
    · exact ⟨h.disturbed.committed,h.disturbed.working⟩
    · exact ⟨(h.perform ho).committed,(h.perform ho).working⟩

theorem untouched_run {α : Type} {p : Collection α} (hp : p.Issues (Outside c))
    (h : Untouched c row w) : Untouched c row (p.run (World.exec env) w).2 :=
  hp.run (fun _ _ ho hw => hw.exec ho) h

theorem issues_startCollection (hd : d ≠ c) : (startCollection d).Issues (Outside c) := by
  refine issues_then trivial fun _ => ?_
  refine Script.Issues.bind (Script.issues_perform trivial) fun taken => ?_
  split
  · trivial
  · refine issues_then trivial fun _ => Script.Issues.bind ?_ fun _ => trivial
    refine Script.Issues.tryCatch ?_ fun e => ?_
    · refine issues_then trivial fun _ => Script.Issues.tryFinally ?_ (issues_step trivial)
      refine issues_then trivial fun found => (Script.issues_require _ _).bind fun _ => ?_
      exact issues_then hd fun _ => issues_step trivial
    · exact Script.Issues.bind (Script.issues_perform trivial) fun _ => trivial

theorem outside_of_inner {conn : Connection} (hd : conn.connectionId ≠ c)
    {o : LockOp UUID CollectionStep} (h : Inner conn o) : Outside c o := by
  cases o with
  | enter e => trivial
  | discard e => trivial
  | step s =>
    cases s with
    | markSuccess e at_ =>
      cases h
      exact hd
    | markFailure part e error status =>
      obtain ⟨_,rfl⟩ := h
      exact hd
    | markAttempt e => exact h.elim
    | _ => trivial

theorem outside_of_handling (hd : d ≠ c) {o : LockOp UUID CollectionStep} (h : Handling d o) :
    Outside c o := by
  cases o with
  | enter e => trivial
  | discard e => trivial
  | step s =>
    cases s with
    | markFailure part e error status =>
      obtain ⟨_,rfl⟩ := h
      exact hd
    | markAttempt e => exact h.elim
    | markSuccess e at_ => exact h.elim
    | _ => trivial

theorem untouched_collectOnce (hd : d ≠ c) (batchSize : ℤ) (maskText : String → String)
    (h : Untouched c row w) :
    (collectOnce batchSize maskText d).meets (World.exec env) w fun _ u => Untouched c row u := by
  refine Script.meets_bind (R:=fun _ u => Untouched c row u) (Script.meets_perform (h.exec trivial))
    (fun _ w₁ h₁ => ?_) fun _ u hu => hu
  refine Script.meets_tryFinally (R:=fun _ u => Untouched c row u) ?_
    fun _ u hu => Script.meets_perform (hu.exec trivial)
  refine Script.meets_bind (R:=fun x u => Untouched c row u ∧
    ∀ conn, x = .ok (.ok (some conn)) → conn.connectionId = d)
    (Script.meets_attempt (Script.meets_perform ⟨h₁.exec trivial,fun conn hconn => ?_⟩)) ?_
    fun _ u hu => hu.1
  · simp only [World.exec] at hconn
    split at hconn
    · cases hconn
    · exact (loadWithPassword_eq_ok (Except.ok.inj hconn)).2 conn rfl
  · rintro answer w₂ ⟨h₂,hid⟩
    have hrecord : ∀ secrets e, (unexpected maskText d secrets e).Issues (Outside c) :=
      fun secrets e => (issues_unexpected maskText d secrets e).mono fun _ => outside_of_handling hd
    cases answer with
    | error e => exact untouched_run (hrecord [] e) h₂
    | ok loaded =>
      cases loaded with
      | none => exact h₂
      | some conn =>
        have hconn : conn.connectionId ≠ c := by
          rw [hid conn rfl]
          exact hd
        refine untouched_run (Script.Issues.tryCatch ?_ (hrecord _)) h₂
        refine Script.Issues.bind ((issues_collect batchSize conn).mono fun _ ho =>
          outside_of_inner hconn ho) fun _ => ?_
        exact issues_then trivial fun _ => issues_step trivial

theorem untouched_runCollection (hd : d ≠ c) (batchSize : ℤ) (maskText : String → String)
    (h : Untouched c row w) :
    (runCollection batchSize maskText d).meets (World.exec env) w fun _ u => Untouched c row u := by
  refine Script.meets_bind (R:=fun _ u => Untouched c row u) (Script.meets_perform (h.exec trivial))
    (fun _ w₁ h₁ => ?_) fun _ u hu => hu
  exact Script.meets_tryFinally (untouched_collectOnce hd batchSize maskText h₁)
    fun _ u hu => Script.meets_perform (hu.exec trivial)

theorem untouched_fresh {running : Finset UUID} {db : Database}
    (h : db.connections.find? c = some row) : Untouched c row (World.fresh running db) :=
  ⟨h,fun _ => h⟩

end

theorem meanwhile_keeps_connection {c : UUID} {row : ConnectionRow} {db db' : Database}
    (hrow : db.connections.find? c = some row) (h : Meanwhile c db db') :
    db'.connections.find? c = some row := by
  induction h with
  | refl => exact hrow
  | request dbms p hp _ ih => exact serve_keeps_connection hp ih
  | start env running hd _ ih =>
    exact (untouched_run (issues_startCollection hd) (untouched_fresh ih)).committed
  | run env running batchSize maskText hd _ ih =>
    exact (untouched_runCollection hd batchSize maskText (untouched_fresh ih)).committed

theorem staysShown_iff {c : UUID} {message : String} {db : Database} :
    StaysShown c message db ↔ Shows c message db := by
  refine ⟨fun h => h db .refl,?_⟩
  rintro ⟨row,text,hrow,herror,hcontains⟩ db' h
  exact ⟨row,text,meanwhile_keeps_connection hrow h,herror,hcontains⟩

/-- A rejected sign-in is reported by the sign-in and by the listing, not by the database. -/
structure Surroundings.DriverErrors (env : Surroundings) : Prop where
  fault : ∀ n s message, (∀ conn, s ≠ .startSession conn) →
    env.fault n s ≠ some (.authentication message)
  refusal : ∀ e message, env.refusal e ≠ .authentication message

/-- The connection has this as its last error. -/
def Noted (c : UUID) (error : Option String) (db : Database) : Prop :=
  ∃ row, db.connections.find? c = some row ∧ row.lastError = error

def keptError (outcome : CollectionOutcome) : Option String :=
  if outcome.failed then some (errorOr "수집에 실패했습니다." outcome.error) else none

section
variable {env : Surroundings} {conn : Connection} {start w : World} {t : Timestamp}
  {outcome : CollectionOutcome}

theorem upsert_not_authentication (hdriver : env.DriverErrors) (c : UUID)
    (batch : List VirtualMachine) (message : String) :
    (World.exec env (.step (.upsert c batch t)) w).1 ≠ .error (.authentication message) := by
  simp only [World.exec]
  split
  · rename_i e he
    intro h
    cases h
    refine hdriver.fault _ _ message (fun conn h => ?_) he
    cases h
  · simp only [World.perform]
    split
    · intro h
      cases h
    · intro h
      exact hdriver.refusal _ message (Except.error.inj h)

theorem storeBatches_not_authentication (hdriver : env.DriverErrors) (batchSize : ℤ) (c : UUID)
    (vms batch : List VirtualMachine) (counts : UpsertResult) :
    (storeBatches batchSize c t none vms batch counts).meets (World.exec env) w fun x _ =>
      ∀ message, x ≠ .error (.authentication message) := by
  have hupsert : ∀ (batch : List VirtualMachine) (w : World),
      (step (CollectionStep.upsert c batch t) : Collection UpsertResult).meets (World.exec env) w
        fun x _ => ∀ message, x ≠ .error (.authentication message) := fun batch w =>
    Script.meets_perform fun message => upsert_not_authentication hdriver c batch message
  have herror : ∀ (β : Type) (e : Raised), (∀ message, (.error e : Except Raised UpsertResult) ≠
      .error (.authentication message)) → ∀ message,
      (.error e : Except Raised β) ≠ .error (.authentication message) := by
    intro β e he message h
    cases h
    exact he message rfl
  induction vms generalizing batch counts w with
  | nil =>
    unfold storeBatches
    split
    · contradiction
    · split
      · intro message h
        cases h
      · refine Script.meets_bind (hupsert _ w) (fun stored u _ message h => ?_)
          fun e u he => herror _ e he
        cases h
  | cons vm vms ih =>
    unfold storeBatches
    split
    · exact Script.meets_bind (hupsert _ w) (fun stored u _ => ih _ _) fun e u he => herror _ e he
    · exact ih _ _

/-- A listing that comes to its end leaves nothing for the early return. -/
theorem meets_storeMachines_ended (hdriver : env.DriverErrors) (hending : env.listing.ending = none)
    (batchSize : ℤ) (h : InRun conn.connectionId start w) :
    (storeMachines batchSize conn.connectionId t).meets (World.exec env) w fun x u =>
      InRun conn.connectionId start u ∧ ∀ summary, x ≠ .ok (.inl summary) := by
  refine Script.meets_tryCatch (R:=fun x u => (InRun conn.connectionId start u ∧
    ∀ summary, x ≠ .ok (.inl summary)) ∧ ∀ message, x ≠ .error (.authentication message)) ?_
    (fun a u hu => hu.1) ?_
  · refine Script.meets_bind (R:=fun x u => InRun conn.connectionId start u ∧
      (∀ listing, x = .ok listing → listing = env.listing) ∧
      ∀ message, x ≠ .error (.authentication message)) (Script.meets_perform ?_) ?_ ?_
    · refine ⟨h.exec trivial,?_,?_⟩
      · intro listing hlisting
        simp only [World.exec] at hlisting
        split at hlisting
        · cases hlisting
        · cases hlisting
          rfl
      · intro message
        simp only [World.exec]
        split
        · rename_i e he
          intro heq
          cases heq
          refine hdriver.fault _ _ message (fun conn h => ?_) he
          cases h
        · intro heq
          cases heq
    · rintro listing u ⟨hu,hlisting,_⟩
      rw [hlisting listing rfl,hending]
      have hstep : ∀ o u, Inner conn o → InRun conn.connectionId start u →
          InRun conn.connectionId start (World.exec env o u).2 := fun o u ho hu => hu.exec ho
      have hrun := (issues_storeBatches batchSize conn t none env.listing.vms [] ⟨0,0,0⟩).run hstep hu
      refine Script.meets_bind (R:=fun x u => InRun conn.connectionId start u ∧
        ∀ message, x ≠ .error (.authentication message))
        ⟨hrun,storeBatches_not_authentication hdriver batchSize _ _ _ _⟩ ?_ ?_
      · rintro counts u ⟨hu,_⟩
        refine Script.meets_pure ⟨⟨hu,fun summary h => ?_⟩,fun message h => ?_⟩ <;> cases h
      · rintro e u ⟨hu,he⟩
        refine ⟨⟨hu,fun summary h => ?_⟩,fun message h => ?_⟩
        · cases h
        · cases h
          exact he message rfl
    · rintro e u ⟨hu,_,he⟩
      refine ⟨⟨hu,fun summary h => ?_⟩,fun message h => ?_⟩
      · cases h
      · cases h
        exact he message rfl
  · rintro e u ⟨⟨hu,_⟩,he⟩
    cases e with
    | authentication message => exact absurd rfl (he message)
    | permission message => exact Script.meets_throw ⟨hu,fun summary h => by cases h⟩
    | portal typeName message => exact Script.meets_throw ⟨hu,fun summary h => by cases h⟩
    | other typeName text => exact Script.meets_throw ⟨hu,fun summary h => by cases h⟩

theorem noted_modify {c : UUID} {db : Database} (h : (db.connections.find? c).isSome)
    (f : ConnectionRow → ConnectionRow) (hf : ∀ r, (f r).connectionId = r.connectionId)
    {error : Option String} (herror : ∀ r, (f r).lastError = error) :
    Noted c error { db with connections := db.connections.modify c f hf } := by
  obtain ⟨row,hrow⟩ := Option.isSome_iff_exists.mp h
  refine ⟨f row,?_,herror row⟩
  rw [Table.find?_modify,if_pos rfl,hrow,Option.map_some]

theorem meets_conclude_outcome (hrow : (start.committed.connections.find? conn.connectionId).isSome)
    (hout : env.outcomes = [outcome]) (h : InRun conn.connectionId start w)
    (counts : UpsertResult) :
    (conclude conn.connectionId t counts).meets (World.exec env) w
      (Collected conn (Noted conn.connectionId (keptError outcome)) start fun _ => True) := by
  have hexists : ∀ db, Changed conn.connectionId start.committed db →
      (db.connections.find? conn.connectionId).isSome := fun db hdb => by
    rw [hdb.exists_]
    exact hrow
  refine collected_then (s:=.log .run) rfl h fun _ w₁ h₁ => ?_
  refine collected_answer (s:=.getOutcomes) trivial h₁ rfl fun w₂ h₂ => ?_
  rw [hout]
  by_cases hfailed : outcome.failed = true
  · simp only [List.head?_cons,Option.filter_some,hfailed,if_pos]
    refine collected_markFailure h₂ _ _ (fun now db hdb => ?_)
      fun w' hw' hnoted => collected_pure hw' fun _ => hnoted
    refine noted_modify (hexists db hdb) _ _ fun r => ?_
    rw [keptError,if_pos hfailed]
    rfl
  · simp only [List.head?_cons,Option.filter_some,if_neg hfailed]
    refine collected_markSuccess h₂ (fun now db hdb => ?_)
      fun w' hw' hnoted => collected_pure hw' fun _ => hnoted
    refine noted_modify (hexists db hdb) _ _ fun r => ?_
    rw [keptError,if_neg hfailed]
    rfl

theorem exec_calm {s : CollectionStep} (hfault : env.fault w.issued s = none) :
    World.exec env (.step s) w = ((World.perform env s w).1,(World.perform env s w).2.tick) := by
  simp only [World.exec,hfault]

theorem meets_calm_then {s : CollectionStep} (hfault : env.fault w.issued s = none) {a : s.Ans}
    (ha : (World.perform env s w).1 = .ok a) {α : Type} {f : s.Ans → Collection α}
    {Q : Except Raised α → World → Prop}
    (h : (f a).meets (World.exec env) (World.perform env s w).2.tick Q) :
    (step s >>= f).meets (World.exec env) w Q := by
  refine Script.meets_bind (R:=fun x u => x = .ok a ∧ u = (World.perform env s w).2.tick)
    (Script.meets_perform ?_) ?_ ?_
  · rw [exec_calm hfault]
    exact ⟨ha,rfl⟩
  · rintro b u ⟨hb,rfl⟩
    cases hb
    exact h
  · rintro e u ⟨he,_⟩
    cases he

theorem meets_closed_ended (hdriver : env.DriverErrors) (hending : env.listing.ending = none)
    (batchSize : ℤ) (h : InRun conn.connectionId start w) :
    (Script.tryFinally (storeMachines batchSize conn.connectionId t)
      (step CollectionStep.closeReader)).meets (World.exec env) w fun x u =>
        InRun conn.connectionId start u ∧ ∀ summary, x ≠ .ok (.inl summary) := by
  refine Script.meets_tryFinally (meets_storeMachines_ended hdriver hending batchSize h)
    fun x w₁ h₁ => meets_idle rfl rfl fun y => ⟨h₁.1.tick,fun summary hsummary => ?_⟩
  cases y with
  | error e => cases hsummary
  | ok u => exact h₁.2 summary hsummary

/-- A collection that reaches the listing keeps of the outcome what the service keeps. -/
theorem meets_collect_outcome (hdriver : env.DriverErrors)
    (hreach : ∀ n < 5, ∀ s, env.fault n s = none) (hissued : w.issued = 2)
    (hrow : (start.committed.connections.find? conn.connectionId).isSome)
    (hending : env.listing.ending = none) (hout : env.outcomes = [outcome]) (batchSize : ℤ)
    (h : InRun conn.connectionId start w) :
    (collect batchSize conn).meets (World.exec env) w
      (Collected conn (Noted conn.connectionId (keptError outcome)) start fun _ => True) := by
  refine meets_calm_then (s:=.now) (hreach _ (by omega) _) rfl ?_
  refine meets_calm_then (s:=.buildReader conn) (hreach _ (by
    change w.issued + 1 < 5
    omega) _) rfl ?_
  have hw : InRun conn.connectionId start w.tick.tick := h.tick.tick
  refine Script.meets_bind (R:=fun x u => x = .ok (.ok ()) ∧ InRun conn.connectionId start u)
    (Script.meets_attempt (Script.meets_perform ⟨?_,hw.exec rfl⟩)) ?_ ?_
  · have hfault : env.fault (w.issued+1+1) (.startSession conn) = none := hreach _ (by omega) _
    simp only [World.exec,World.tick,World.perform,hfault]
  · rintro _ w₃ ⟨hok,h₃⟩
    cases hok
    refine Script.meets_bind (R:=fun x u => InRun conn.connectionId start u ∧
      ∀ summary, x ≠ .ok (.inl summary)) (meets_closed_ended hdriver hending batchSize h₃) ?_
      fun e u hu => collected_error hu.1
    rintro stored w₅ ⟨h₅,hright⟩
    cases stored with
    | inl summary => exact absurd rfl (hright summary)
    | inr counts => exact meets_conclude_outcome hrow hout h₅ counts
  · rintro e u ⟨he,_⟩
    cases he

theorem meets_collectOnce_loaded (henv : env.SparesRecorder)
    (hreach : ∀ n < 5, ∀ s, env.fault n s = none) (batchSize : ℤ) (maskText : String → String)
    {c : UUID} {running : Finset UUID} {db : Database} {row : ConnectionRow} {password : String}
    (hrow : db.connections.find? c = some row)
    (hdecrypt : env.decrypt row.passwordEncrypted = .ok password) {Q : Database → Prop}
    (h : (Script.tryCatch
        (collectAndCommit batchSize { toDomain row with password := password })
        (unexpected maskText c [password])).meets (World.exec env)
      ((World.fresh running db).setWorking .run db).tick.tick fun x u => x = .ok () ∧ Q u.committed) :
    (collectOnce batchSize maskText c).meets (World.exec env) (World.fresh running db) fun _ u =>
      Q u.committed := by
  refine meets_calm_then (s:=.openSession .run) (hreach 0 (by omega) _) rfl ?_
  refine Script.meets_tryFinally (R:=fun x u => x = .ok () ∧ Q u.committed) ?_ ?_
  · refine Script.meets_bind
      (R:=fun x u => x = .ok (.ok (some { toDomain row with password := password })) ∧
        u = ((World.fresh running db).setWorking .run db).tick.tick)
      (Script.meets_attempt (Script.meets_perform ?_)) ?_ ?_
    · have hload : World.exec env (.step (.loadWithPassword c))
          ((World.fresh running db).setWorking .run db).tick =
          (.ok (some { toDomain row with password := password }),
            ((World.fresh running db).setWorking .run db).tick.tick) := by
        rw [exec_calm (hreach 1 (by omega) _)]
        simp only [World.perform,World.tick,World.setWorking_self,
          ConnectionRepository.loadWithPassword,hrow,hdecrypt]
      exact ⟨congrArg (fun r => Except.ok r.1) hload,congrArg Prod.snd hload⟩
    · rintro _ u ⟨hx,rfl⟩
      cases hx
      exact h
    · rintro e u ⟨he,_⟩
      cases he
  · rintro _ u ⟨rfl,hQ⟩
    exact meets_spared henv (s:=.closeSession .run) rfl hQ

end

/-- The reader of the run has come to an outcome with an error. -/
structure Reports (env : Surroundings) (translateError : Raised → Raised) (answers : Answers)
    (outcome : CollectionOutcome) (message : String) : Prop where
  listing : env.listing = (answers.report translateError).listing
  outcomes : env.outcomes = (answers.report translateError).outcomes
  single : (answers.report translateError).outcomes = [outcome]
  error : outcome.error = some message

theorem contains_errorOr (default message : String) :
    Contains (errorOr default (some message)) message := by
  by_cases h : message = ""
  · rw [h]
    exact contains_empty _
  · simp only [errorOr,if_neg h]
    exact contains_self message

theorem shows_of_noted {c : UUID} {db : Database} {text message : String}
    (h : Noted c (some text) db) : Shows c message db ↔ Contains text message := by
  obtain ⟨row,hrow,herror⟩ := h
  constructor
  · rintro ⟨row',text',hrow',herror',hcontains⟩
    cases hrow.symm.trans hrow'
    cases herror.symm.trans herror'
    exact hcontains
  · exact fun hcontains => ⟨row,text,hrow,herror,hcontains⟩

theorem not_shows_of_noted {c : UUID} {db : Database} {message : String} (h : Noted c none db) :
    ¬ Shows c message db := by
  rintro ⟨row',text,hrow',herror',_⟩
  obtain ⟨row,hrow,herror⟩ := h
  cases hrow.symm.trans hrow'
  cases herror.symm.trans herror'

theorem Recorded.noted {c : UUID} {message : String} {before w : World}
    (h : Recorded c message before w) (hrow : (before.committed.connections.find? c).isSome) :
    Noted c (some message) w.committed := by
  obtain ⟨now,hcommitted⟩ := h.committed
  rw [hcommitted]
  exact noted_modify hrow _ _ fun _ => rfl

/-- After a run whose reader reports an error, the error stays in the connection's row exactly
if the answers fail as a whole and nothing is raised in the transaction; of an exception that is
raised there, exactly if its recorded text contains the error. -/
theorem partial_failure_shown_iff (env : Surroundings) (henv : env.SparesRecorder)
    (hdriver : env.DriverErrors) (hreach : ∀ n < 5, ∀ s, env.fault n s = none) (batchSize : ℤ)
    (maskText : String → String) (c : UUID) (running : Finset UUID) (db : Database)
    (row : ConnectionRow) (password : String) (hrow : db.connections.find? c = some row)
    (hdecrypt : env.decrypt row.passwordEncrypted = .ok password)
    (translateError : Raised → Raised) (answers : Answers) (outcome : CollectionOutcome)
    (message : String) (hreports : Reports env translateError answers outcome message) :
    StaysShown c message ((collectOnce batchSize maskText c).run (World.exec env)
        (World.fresh running db)).2.committed ↔
      match ((collectAndCommit batchSize { toDomain row with password := password }).run
          (World.exec env) ((World.fresh running db).setWorking .run db).tick.tick).1 with
      | .ok _ => answers.FailsWhole
      | .error e => Contains (unexpectedMessage maskText [password] e) message := by
  have hid : row.connectionId = c := Table.find?_key hrow
  obtain ⟨hending,hfailed⟩ := report_outcome hreports.single hreports.error
  have hexists : (db.connections.find? c).isSome := by
    rw [hrow]
    rfl
  subst hid
  have hcollect : (collect batchSize { toDomain row with password := password }).meets
      (World.exec env) ((World.fresh running db).setWorking .run db).tick.tick
      (Collected { toDomain row with password := password }
        (Noted row.connectionId (keptError outcome)) (World.fresh running db) fun _ => True) :=
    meets_collect_outcome hdriver hreach rfl hexists (by rw [hreports.listing]; exact hending)
      (hreports.outcomes.trans hreports.single) batchSize
      (InRun.opened row.connectionId (World.fresh running db)).tick.tick
  have hbody := meets_collectAndCommit hcollect
  rw [staysShown_iff]
  refine meets_collectOnce_loaded henv hreach batchSize maskText hrow hdecrypt (Q:=fun db' =>
    Shows row.connectionId message db' ↔ _) ?_
  unfold Script.meets at hbody ⊢
  rw [Script.run_tryCatch]
  generalize (collectAndCommit batchSize { toDomain row with password := password }).run
    (World.exec env) ((World.fresh running db).setWorking .run db).tick.tick = r at hbody ⊢
  obtain ⟨x,w⟩ := r
  obtain ⟨hran,hnoted⟩ := hbody
  cases x with
  | ok u =>
    refine ⟨rfl,?_⟩
    have hkept := hnoted rfl
    by_cases hf : outcome.failed = true
    · rw [keptError,if_pos hf,hreports.error] at hkept
      exact ⟨fun _ => hfailed.mp hf,fun _ => (shows_of_noted hkept).mpr (contains_errorOr _ _)⟩
    · rw [keptError,if_neg hf] at hkept
      exact ⟨fun h => absurd h (not_shows_of_noted hkept),fun h => absurd (hfailed.mpr h) hf⟩
  | error e =>
    have hrecord := meets_unexpected (c:=row.connectionId) (w:=w) henv maskText [password] e
    obtain ⟨hok,hrecorded⟩ := hrecord
    exact ⟨hok,shows_of_noted (hrecorded.noted (hran.changed.exists_.trans hexists))⟩

def refusedQuery : Surroundings :=
  { calm with outcomes := [record 0 true (some "WinRM 응답 없음")] }

theorem refusedQuery_sparesRecorder : refusedQuery.SparesRecorder := fun _ _ _ => rfl

theorem refusedQuery_driverErrors : refusedQuery.DriverErrors := by
  refine ⟨fun n s message _ h => ?_,fun e message h => ?_⟩ <;> cases h

theorem partial_failure_shown_iff_refused :
    StaysShown 7 "WinRM 응답 없음" ((collectOnce 500 id 7).run (World.exec refusedQuery)
      (World.fresh {7} emptyStore)).2.committed :=
  (partial_failure_shown_iff refusedQuery refusedQuery_sparesRecorder refusedQuery_driverErrors
    (fun _ _ _ => rfl) 500 id 7 {7} emptyStore _ _ rfl rfl id
    (.scvmm (.error (.portal "CollectionError" "WinRM 응답 없음"))) _ _ ⟨rfl,rfl,rfl,rfl⟩).mpr
    ⟨_,rfl⟩

def oneExcluded : Surroundings :=
  { calm with outcomes := [record 0 false (some (Scvmm.excludedText 1))] }

/-- The outcome carries an error, and the run has left none. -/
theorem excluded_machine_not_shown :
    Reports oneExcluded id (.scvmm (.ok [none])) (record 0 false (some (Scvmm.excludedText 1)))
      "VM GUID(VMId)가 없는 VM 1건 제외" ∧
    ¬ StaysShown 7 "VM GUID(VMId)가 없는 VM 1건 제외" ((collectOnce 500 id 7).run
      (World.exec oneExcluded) (World.fresh {7} emptyStore)).2.committed := by
  refine ⟨⟨rfl,rfl,rfl,rfl⟩,fun h => ?_⟩
  obtain ⟨row,text,hrow,herror,_⟩ := h _ .refl
  cases hrow
  cases herror

end WzonePortal
