import WzonePortal.Script
import WzonePortal.Schema

/-! One request, one session, one transaction. Statements act on the session's working
copy; only a commit makes them visible to the next request. A statement that the database
refuses rolls the whole transaction back and leaves the session unusable until `rollback`. -/
namespace WzonePortal

inductive Stmt
  | query (q : Query)
  | write (w : Write)
  | commit
  | rollback
  deriving DecidableEq, Repr

@[reducible] def Stmt.Res : Stmt → Type
  | .query q => q.Res
  | .write _ => Unit
  | .commit => Unit
  | .rollback => Unit

abbrev Service : Type → Type := Script Stmt.Res Exc

def ask (q : Query) : Service q.Res := @Script.perform Stmt Stmt.Res Exc (.query q)
def flush (w : Write) : Service Unit := @Script.perform Stmt Stmt.Res Exc (.write w)
def commit : Service Unit := @Script.perform Stmt Stmt.Res Exc .commit
def rollback : Service Unit := @Script.perform Stmt Stmt.Res Exc .rollback

def liftExcept {α : Type} : Except Exc α → Service α
  | .ok a => .ret a
  | .error e => .raise e

structure Session where
  committed : Database
  working : Database
  inactive : Bool

namespace Session

def fresh (db : Database) : Session := ⟨db,db,false⟩

/-- A refused statement undoes the transaction and deactivates the session. -/
def fail (s : Session) : Session := ⟨s.committed,s.committed,true⟩

def exec (dbms : Dbms) : (o : Stmt) → Session → Except Exc o.Res × Session
  | .query q, s =>
    if s.inactive then (.error .pendingRollback,s)
    else match q.eval s.working with
      | .ok r => (.ok r,s)
      | .error e => (.error e,s.fail)
  | .write w, s =>
    if s.inactive then (.error .pendingRollback,s)
    else match w.apply dbms s.working with
      | .ok db => (.ok (),{ s with working := db })
      | .error e => (.error e,s.fail)
  | .commit, s =>
    if s.inactive then (.error .pendingRollback,s) else (.ok (),{ s with committed := s.working })
  | .rollback, s => (.ok (),fresh s.committed)

variable {dbms : Dbms} {c w : Database} {α β : Type}

theorem run_ask (q : Query) :
    (ask q).run (exec dbms) ⟨c,w,false⟩ =
      match q.eval w with
      | .ok r => (.ok r,⟨c,w,false⟩)
      | .error e => (.error e,⟨c,c,true⟩) := by
  rw [ask,Script.run_perform]
  simp only [exec,Bool.false_eq_true,if_false]
  cases q.eval w <;> rfl

theorem run_flush (x : Write) :
    (flush x).run (exec dbms) ⟨c,w,false⟩ =
      match x.apply dbms w with
      | .ok db => (.ok (),⟨c,db,false⟩)
      | .error e => (.error e,⟨c,c,true⟩) := by
  rw [flush,Script.run_perform]
  simp only [exec,Bool.false_eq_true,if_false]
  cases x.apply dbms w <;> rfl

@[simp] theorem run_commit : commit.run (exec dbms) ⟨c,w,false⟩ = (.ok (),⟨w,w,false⟩) := by
  rw [commit,Script.run_perform]; rfl

@[simp] theorem run_commit_inactive :
    commit.run (exec dbms) ⟨c,w,true⟩ = (.error .pendingRollback,⟨c,w,true⟩) := by
  rw [commit,Script.run_perform]; rfl

@[simp] theorem run_rollback (s : Session) :
    rollback.run (exec dbms) s = (.ok (),fresh s.committed) := by
  rw [rollback,Script.run_perform]; rfl

@[simp] theorem run_liftExcept (x : Except Exc α) (s : Session) :
    (liftExcept x).run (exec dbms) s = (x,s) := by
  cases x <;> rfl

end Session

/-- The request transaction: commit after the handler, roll back and re-raise on an
exception of the handler or of the commit itself. -/
def getDb {α : Type} (handler : Service α) : Service α :=
  Script.tryCatch (do
    let r ← handler
    commit
    pure r)
  (fun e => do
    rollback
    throw e)

/-- Serve one request on the committed database; closing the session drops the rest. -/
def serve {α : Type} (dbms : Dbms) (handler : Service α) (db : Database) :
    Except Exc α × Database :=
  let r := (getDb handler).run (Session.exec dbms) (Session.fresh db)
  (r.1,r.2.committed)

end WzonePortal
