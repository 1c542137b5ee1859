import WzonePortal.LoginTransaction
import WzonePortal.VmObservations

/-! Sequential histories of everything that writes to the database: requests, logins and
collections, each a transaction of its own. -/
namespace WzonePortal

open VirtualMachineRepository

inductive PortalEvent
  | request (call : Call)
  | login (attempt : LoginAttempt)
  | collect (call : UpsertCall)

/-- The committed database after an event; a collection that raises is rolled back. -/
def PortalEvent.run (dbms : Dbms) (env : Env) (db : Database) : PortalEvent → Database
  | .request call => (call.serve dbms env db).2
  | .login attempt => (attempt.serve dbms env db).2
  | .collect call => match call.run db with
    | .ok after => after.2
    | .error _ => db

def portalAfter (dbms : Dbms) (env : Env) (events : List PortalEvent) (db : Database) :
    Database :=
  events.foldl (PortalEvent.run dbms env) db

/-- The machines of a collection carry its connection, as the readers build them. -/
def PortalEvent.Carried : PortalEvent → Prop
  | .collect call => call.Carried
  | _ => True

/-- What every event of a history preserves holds after the history. -/
theorem portal_invariant {dbms : Dbms} {env : Env} (P : Database → Prop)
    {events : List PortalEvent} (hstep : ∀ e ∈ events, ∀ db, P db → P (e.run dbms env db))
    {db : Database} (h : P db) : P (portalAfter dbms env events db) := by
  induction events generalizing db with
  | nil => exact h
  | cons e events ih =>
    exact ih (fun x hx => hstep x (List.mem_cons_of_mem _ hx)) (hstep e List.mem_cons_self db h)

section
variable {dbms : Dbms} {env : Env} {call : Call} {attempt : LoginAttempt} {db db' : Database}

/-- A request either leaves the database alone or applies its writes and adds a row. -/
theorem Call.serve_cases (P : Database → Prop) (h : P db)
    (hwrites : ∀ d w, call.request.decide env call.ctx db = .ok d →
      Write.applyAll dbms d.writes db = .ok w →
        ∀ row, dbms.acceptsAudit row = true → P (w.addAudit row)) :
    P (call.serve dbms env db).2 := by
  rcases hs : call.serve dbms env db with ⟨x,after⟩
  cases x with
  | error e =>
    rw [serve_failed hs]
    exact h
  | ok r =>
    obtain ⟨d,w,hd,hw,haudit,_,rfl⟩ := serve_ok hs
    exact hwrites d w hd hw _ haudit

/-- So does a login. -/
theorem LoginAttempt.serve_cases (P : Database → Prop) (h : P db)
    (hwrites : ∀ row w, attempt.lookup env db = .ok (some row) →
      Write.applyAll dbms (attempt.writes env row) db = .ok w →
        ∀ event, dbms.acceptsAudit event = true → P (w.addAudit event)) :
    P (attempt.serve dbms env db).2 := by
  by_cases hf : ∃ row, attempt.lookup env db = .ok (some row)
  · obtain ⟨row,hrow⟩ := hf
    cases hr : attempt.rejection env row with
    | some e =>
      rw [login_rejected hrow hr]
      exact h
    | none =>
      obtain ⟨r,hserve⟩ := login_accepted dbms hrow hr
      rw [hserve]
      cases hw : Write.applyAll dbms (attempt.writes env row) db with
      | error e => exact h
      | ok w =>
        simp only
        split
        · rename_i haudit
          exact hwrites row w hrow hw _ haudit
        · exact h
  · obtain ⟨e,hserve⟩ := @login_unknown dbms db env attempt fun row hrow => hf ⟨row,hrow⟩
    rw [hserve]
    exact h

theorem collect_cases {call : UpsertCall} (P : Database → Prop) (h : P db)
    (hrun : ∀ result db', call.run db = .ok (result,db') → P db') :
    P ((PortalEvent.collect call).run dbms env db) := by
  cases hr : call.run db with
  | error e =>
    simp only [PortalEvent.run,hr]
    exact h
  | ok after =>
    simp only [PortalEvent.run,hr]
    exact hrun after.1 after.2 hr

end

namespace VirtualMachineRepository

section
variable {db db' : Database} {id c : UUID} {vm : VirtualMachine} {t : Timestamp}
  {uuid4 : ℕ → UUID} {s s' : UpsertState} {vms : List VirtualMachine}

theorem insertVm_users (h : insertVm db id vm t = .ok db') : db'.users = db.users := by
  obtain ⟨_,_,h⟩ := bind_eq_ok.mp h
  split at h
  · cases h
  · cases h
    rfl

theorem updateVm_users {changed : Bool × Database} (h : updateVm db id vm t = .ok changed) :
    changed.2.users = db.users := by
  unfold updateVm at h
  split at h
  · cases h
    rfl
  · obtain ⟨_,_,h⟩ := bind_eq_ok.mp h
    cases h
    rfl

theorem syncIdentities_users {keys : List IdentityKey}
    (h : syncIdentities db id keys c = .ok db') : db'.users = db.users := by
  unfold syncIdentities at h
  split at h
  · cases h
  · simp only at h
    split at h
    · cases h
    · cases h
      rfl

theorem upsertOne_users (h : upsertOne uuid4 c t s vm = .ok s') : s'.db.users = s.db.users := by
  rcases upsertOne_cases h with hi | ⟨m,changed,hu⟩
  · obtain ⟨mid,hinsert,hsync⟩ := hi.stored
    exact (syncIdentities_users hsync).trans (insertVm_users hinsert)
  · exact (syncIdentities_users hu.stored).trans (updateVm_users hu.updated)

theorem upsertAll_users (h : upsertAll uuid4 c t vms s = .ok s') : s'.db.users = s.db.users := by
  induction vms generalizing s with
  | nil =>
    cases h
    rfl
  | cons vm vms ih =>
    obtain ⟨mid,hone,hrest⟩ := bind_eq_ok.mp h
    exact (ih hrest).trans (upsertOne_users hone)

theorem UpsertCall.run_users {call : UpsertCall} {result : UpsertResult}
    (h : call.run db = .ok (result,db')) : db'.users = db.users := by
  obtain ⟨s,hs,he⟩ := bind_eq_ok.mp h
  cases he
  exact upsertAll_users hs

end
end VirtualMachineRepository
end WzonePortal
