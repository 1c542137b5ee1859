import WzonePortal.AccountRefinement
import WzonePortal.Interleaving

/-! Requests that overlap in time, at the isolation level READ COMMITTED. A SELECT sees what
is committed when it runs and the transaction's own changes; a user row that the session has
loaded is not read again; an UPDATE carries the changed columns only; a commit makes all
changes of the transaction visible at once. -/
namespace WzonePortal

/-- The session of one request: the loaded user rows with the values assigned to them, the
same rows as the database returned them, the counts it was given, and what it has flushed. -/
structure Transaction where
  rows : List UserRow := []
  read : List UserRow := []
  counted : List (Option UUID × ℕ) := []
  pending : List Write := []
  inactive : Bool := false

namespace Transaction

def find? (tx : Transaction) (userId : UUID) : Option UserRow :=
  tx.rows.find? fun r => r.userId = userId

/-- A refused statement undoes the transaction and deactivates the session. -/
def fail : Transaction := { inactive := true }

/-- The answer that needs no statement. The session's map of loaded rows is weak, so a row that
nothing refers to any more may be read again; that run is the one in which the first read comes as
much later, as long as what was checked on the earlier reading still holds there. -/
def cached (tx : Transaction) : (q : Query) → Option q.Res
  | .userById userId => (tx.find? userId).map some
  | .userByUsername _ => none
  | .countActiveAdmins _ => none
  | .scopesOf _ => none
  | .connectionById _ => none
  | .connectionByTarget _ _ => none
  | .countActiveVms _ => none

/-- A row that is loaded already keeps the session's values. -/
def resolve (tx : Transaction) : (q : Query) → q.Res → q.Res
  | .userByUsername _, found => Option.map (fun r => (tx.find? r.userId).getD r) found
  | .userById _, found => found
  | .countActiveAdmins _, n => n
  | .scopesOf _, ids => ids
  | .connectionById _, found => found
  | .connectionByTarget _ _, found => found
  | .countActiveVms _, n => n

def load (tx : Transaction) (row : UserRow) : Transaction :=
  if (tx.find? row.userId).isSome then tx
  else { tx with rows := row::tx.rows, read := row::tx.read }

def remember (tx : Transaction) : (q : Query) → q.Res → Transaction
  | .userById _, found => Option.elim found tx tx.load
  | .userByUsername _, found => Option.elim found tx tx.load
  | .countActiveAdmins exclude, n => { tx with counted := (exclude,n)::tx.counted }
  | .scopesOf _, _ => tx
  | .connectionById _, _ => tx
  | .connectionByTarget _ _, _ => tx
  | .countActiveVms _, _ => tx

/-- The statement that the flush of a write sends. -/
def emitted (tx : Transaction) : Write → Write
  | .patchUser userId p => .patchUser userId ((tx.find? userId).elim p p.changedFrom)
  | w => w

/-- The session after the flush of a write. -/
def flushed (tx : Transaction) (w : Write) : Transaction :=
  { tx with
    pending := tx.pending ++ [tx.emitted w]
    rows := match w with
      | .patchUser userId p => tx.rows.map fun r => if r.userId = userId then p.apply r else r
      | .insertUser row => row::tx.rows
      | _ => tx.rows }

end Transaction

namespace ReadCommitted

def execQuery (dbms : Dbms) (q : Query) (db : Database) (tx : Transaction) :
    Except Exc q.Res × Database × Transaction :=
  if tx.inactive then (.error .pendingRollback,db,tx)
  else match tx.cached q with
    | some r => (.ok r,db,tx)
    | none => match Write.applyAll dbms tx.pending db >>= q.eval with
      | .ok r => (.ok (tx.resolve q r),db,tx.remember q r)
      | .error e => (.error e,db,.fail)

def execWrite (dbms : Dbms) (w : Write) (db : Database) (tx : Transaction) :
    Except Exc Unit × Database × Transaction :=
  if tx.inactive then (.error .pendingRollback,db,tx)
  else match Write.applyAll dbms (tx.pending ++ [tx.emitted w]) db with
    | .ok _ => (.ok (),db,tx.flushed w)
    | .error e => (.error e,db,.fail)

def execCommit (dbms : Dbms) (db : Database) (tx : Transaction) :
    Except Exc Unit × Database × Transaction :=
  if tx.inactive then (.error .pendingRollback,db,tx)
  else match Write.applyAll dbms tx.pending db with
    | .ok db' => (.ok (),db',{ tx with pending := [] })
    | .error e => (.error e,db,.fail)

def exec (dbms : Dbms) : Exec Stmt.Res Exc Database Transaction
  | .query q => execQuery dbms q
  | .write w => execWrite dbms w
  | .commit => execCommit dbms
  | .rollback => fun db _ => (.ok (),db,{})

/-- Requests in progress over one database. -/
abbrev Requests (ι : Type) := System ι Stmt.Res Exc Response Database Transaction

def start {ι : Type} (env : Env) (calls : ι → Call) (db : Database) : Requests ι where
  shared := db
  processes := fun i => ⟨getDb ((calls i).request.handler env (calls i).ctx),{}⟩

def committing {ι : Type} (i : ι) (sys : Requests ι) : Bool :=
  match (sys.processes i).script with
  | .call .commit _ => !(sys.processes i).state.inactive
  | _ => false

section
variable {dbms : Dbms} {C : Stmt → Transaction → Prop} {tx : Transaction} {db db' : Database}

theorem exec_query {q : Query} {r : q.Res} (hactive : tx.inactive = false)
    (hpending : tx.pending = []) (hcached : tx.cached q = none) (heval : q.eval db = .ok r) :
    exec dbms (.query q) db tx = (.ok (tx.resolve q r),db,tx.remember q r) := by
  have hread : (Write.applyAll dbms tx.pending db >>= q.eval) = .ok r := by
    rw [hpending]
    exact heval
  simp only [exec,execQuery,hactive,hcached,hread,Bool.false_eq_true,if_false]

theorem exec_cached {q : Query} {r : q.Res} (hactive : tx.inactive = false)
    (hcached : tx.cached q = some r) (db : Database) :
    exec dbms (.query q) db tx = (.ok r,db,tx) := by
  simp only [exec,execQuery,hactive,hcached,Bool.false_eq_true,if_false]

theorem exec_write {w : Write} (hactive : tx.inactive = false)
    (hall : (Write.applyAll dbms (tx.pending ++ [tx.emitted w]) db).isOk = true) :
    exec dbms (.write w) db tx = (.ok (),db,tx.flushed w) := by
  simp only [exec,execWrite,hactive,Bool.false_eq_true,if_false]
  cases h : Write.applyAll dbms (tx.pending ++ [tx.emitted w]) db with
  | ok db' => rfl
  | error e => rw [h] at hall; cases hall

theorem exec_commit (hactive : tx.inactive = false)
    (hall : Write.applyAll dbms tx.pending db = .ok db') :
    exec dbms .commit db tx = (.ok (),db',{ tx with pending := [] }) := by
  simp only [exec,execCommit,hactive,hall]
  rfl

/-- Only a commit changes what the others see. -/
theorem exec_shared {o : Stmt} (ho : o ≠ .commit) (db : Database) :
    (exec dbms o db tx).2.1 = db := by
  cases o with
  | query q =>
    simp only [exec,execQuery]
    split
    · rfl
    · split
      · rfl
      · split <;> rfl
  | write w =>
    simp only [exec,execWrite]
    split
    · rfl
    · split <;> rfl
  | commit => exact absurd rfl ho
  | rollback => rfl

theorem wp_flush {w : Write} {Q : Except Exc Unit → Transaction → Prop} (hC : C (.write w) tx)
    (hactive : tx.inactive = false) (hok : Q (.ok ()) (tx.flushed w))
    (herror : ∀ e, Q (.error e) .fail) : (flush w).wp (exec dbms) C Q tx := by
  refine Script.wp_perform hC fun db => ?_
  simp only [exec,execWrite,hactive,Bool.false_eq_true,if_false]
  cases Write.applyAll dbms (tx.pending ++ [tx.emitted w]) db with
  | ok db' => exact hok
  | error e => exact herror e

end
end ReadCommitted
end WzonePortal
