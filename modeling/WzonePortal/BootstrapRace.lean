import WzonePortal.FirstWins
import WzonePortal.ReadCommitted
import WzonePortal.StartupHistory

/-! Several worker processes that start at once on an empty user table. Each counts the users
and inserts the administrator in a later statement, so that more than one can come to insert;
the unique name lets one of them commit, and the others take its error for an answer. -/
namespace WzonePortal

/-- The statements of a startup: those of a session, and the count of the users. -/
inductive WorkerStmt
  | countUsers
  | session (o : Stmt)

@[reducible] def WorkerStmt.Res : WorkerStmt → Type
  | .countUsers => ℕ
  | .session o => o.Res

def inSession {α : Type} : Service α → Script WorkerStmt.Res Exc α
  | .ret a => .ret a
  | .raise e => .raise e
  | .call o next => .call (.session o) fun r => inSession (next r)

/-- `ensure_bootstrap_admin`: the session is closed on every way out. -/
def ensureBootstrapAdminOnce (env : Env) (ctx : Context) (settings : BootstrapSettings) :
    Script WorkerStmt.Res Exc Unit :=
  Script.tryFinally (do
      let userCount ← (Script.perform WorkerStmt.countUsers : Script WorkerStmt.Res Exc ℕ)
      inSession (ensureBootstrapAdmin env ctx settings userCount))
    (inSession rollback)

section
variable {α : Type} {n : ℕ} {p : Service α}

theorem atMost_inSession (h : p.AtMost n) : (inSession p).AtMost n := by
  induction p generalizing n with
  | ret a => exact Script.atMost_ret a
  | raise e => exact Script.atMost_raise e
  | call o next ih =>
    obtain ⟨m,rfl,hnext⟩ := Script.atMost_call.mp h
    exact Script.atMost_call.mpr ⟨m,rfl,fun r => ih r (hnext r)⟩

theorem atMost_ensureBootstrapAdmin (env : Env) (ctx : Context) (settings : BootstrapSettings)
    (userCount : ℕ) : (ensureBootstrapAdmin env ctx settings userCount).AtMost 3 := by
  unfold ensureBootstrapAdmin
  split_ifs with hcount
  · trivial
  · split
    · split_ifs with hempty
      · trivial
      · refine Script.AtMost.tryCatch (m:=2) (n:=1) ?_ fun e => ?_
        · refine Script.AtMost.bind (m:=0) (n:=2) ?_ fun hash => ?_
          · cases hashPassword env ctx _ <;> trivial
          · exact Script.AtMost.bind (m:=1) (n:=1) (Script.atMost_perform _)
              fun _ => Script.atMost_perform _
        · cases e <;> first | trivial | exact Script.atMost_perform _
    · trivial

theorem atMost_ensureBootstrapAdminOnce (env : Env) (ctx : Context)
    (settings : BootstrapSettings) :
    (ensureBootstrapAdminOnce env ctx settings).AtMost 6 := by
  have hcount : (Script.perform WorkerStmt.countUsers : Script WorkerStmt.Res Exc ℕ).AtMost 1 :=
    Script.atMost_perform _
  have hrollback : (inSession rollback).AtMost 1 := atMost_inSession (Script.atMost_perform _)
  exact (hcount.bind fun userCount =>
    atMost_inSession (atMost_ensureBootstrapAdmin env ctx settings userCount)).tryFinally hrollback

end

namespace Startup

def execCount (dbms : Dbms) (db : Database) (tx : Transaction) :
    Except Exc ℕ × Database × Transaction :=
  if tx.inactive then (.error .pendingRollback,db,tx)
  else match Write.applyAll dbms tx.pending db with
    | .ok mid => (.ok mid.users.rows.length,db,tx)
    | .error e => (.error e,db,.fail)

def exec (dbms : Dbms) : Exec WorkerStmt.Res Exc Database Transaction
  | .countUsers => execCount dbms
  | .session o => ReadCommitted.exec dbms o

/-- Startups in progress over one database. -/
abbrev Workers (ι : Type) := System ι WorkerStmt.Res Exc Unit Database Transaction

abbrev Worker : Type := Process WorkerStmt.Res Exc Unit Transaction

def start {ι : Type} (env : Env) (contexts : ι → Context) (settings : BootstrapSettings)
    (db : Database) : Workers ι where
  shared := db
  processes := fun i => ⟨ensureBootstrapAdminOnce env (contexts i) settings,{}⟩

def insertedName : Write → Option String
  | .insertUser row => some row.username
  | _ => none

def nextName (p : Worker) : Option String :=
  match p.script with
  | .call (.session (.write w)) _ => insertedName w
  | _ => none

/-- The insert of a name waits for another transaction that has inserted it. -/
def Blocked {ι : Type} (i : ι) (sys : Workers ι) : Prop :=
  ∃ j, j ≠ i ∧ ∃ name ∈ nextName (sys.processes i),
    name ∈ (sys.processes j).state.pending.filterMap insertedName

instance {ι : Type} [Fintype ι] [DecidableEq ι] (i : ι) (sys : Workers ι) :
    Decidable (Blocked i sys) :=
  inferInstanceAs (Decidable (∃ j, j ≠ i ∧ ∃ name ∈ nextName (sys.processes i), _))

/-- What a worker does that has counted no user. -/
def createAdmin (row : UserRow) : Service Unit :=
  Script.tryCatch (do
      flush (.insertUser row)
      commit)
    (fun e => match e with
      | .integrityError => rollback
      | e => throw e)

def commitAdmin : Service Unit :=
  Script.tryCatch commit fun e => match e with
    | .integrityError => rollback
    | e => throw e

def closing {α : Type} (p : Service α) : Script WorkerStmt.Res Exc α :=
  Script.tryFinally (inSession p) (inSession rollback)

/-- A worker that has not inserted yet. -/
inductive Waiting (env : Env) (ctx : Context) (settings : BootstrapSettings) (row : UserRow) :
    Worker → Prop
  | arrived : Waiting env ctx settings row ⟨ensureBootstrapAdminOnce env ctx settings,{}⟩
  | counted : Waiting env ctx settings row ⟨closing (createAdmin row),{}⟩

/-- A worker whose insert is not committed. -/
inductive Inside (row : UserRow) : Worker → Prop
  | inserted (tx : Transaction) (hactive : tx.inactive = false)
    (hpending : tx.pending = [.insertUser row]) : Inside row ⟨closing commitAdmin,tx⟩

/-- A worker that has nothing left to write. -/
inductive Ending : Worker → Prop
  | refused (tx : Transaction) (hpending : tx.pending = []) : Ending ⟨closing rollback,tx⟩
  | closing (tx : Transaction) (hpending : tx.pending = []) : Ending ⟨closing (pure ()),tx⟩
  | ended (tx : Transaction) (hpending : tx.pending = []) : Ending ⟨.ret (),tx⟩

section
variable {dbms : Dbms} {env : Env} {ctx : Context} {settings : BootstrapSettings}
  {db db' s : Database} {row : UserRow} {p : Worker}

theorem create_of_present (h : settings.present = true) (hfits : settings.Fits env)
    (hhash : ∀ plain salt, storable (env.hashpw plain salt) = true) :
    ∃ username password, settings.adminUsername = some username ∧
      settings.adminPassword = some password ∧ ∀ ctx : Context,
      (bootstrapRow env ctx username (env.hashpw password ctx.salt)).storable = true ∧
      ensureBootstrapAdmin env ctx settings 0 =
        createAdmin (bootstrapRow env ctx username (env.hashpw password ctx.salt)) := by
  obtain ⟨username,password,hu,hp,hne,hne'⟩ := present_cases h
  obtain ⟨hlength,hstorable⟩ := (hfits h).1 username hu
  refine ⟨username,password,hu,hp,fun ctx => ⟨?_,?_⟩⟩
  · simp [UserRow.storable,bootstrapRow,UserRepository.newRow,hlength,hstorable,hhash]
    decide
  · rw [ensureBootstrapAdmin,if_neg (by simp),hu,hp]
    simp only [hne,hne',or_self,if_false,hashPassword,(hfits h).2 password hp]
    rfl

theorem Ending.step (h : Ending p) (s : Database) :
    (p.step (exec dbms) s).1 = s ∧ Ending (p.step (exec dbms) s).2 := by
  cases h with
  | refused tx hpending => exact ⟨rfl,.closing _ rfl⟩
  | closing tx hpending => exact ⟨rfl,.ended _ rfl⟩
  | ended tx hpending => exact ⟨rfl,.ended _ hpending⟩

theorem step_arrived (s : Database) :
    (⟨ensureBootstrapAdminOnce env ctx settings,{}⟩ : Worker).step (exec dbms) s =
      (s,⟨closing (ensureBootstrapAdmin env ctx settings s.users.rows.length),{}⟩) := rfl

theorem step_insert (hinsert : (Write.insertUser row).apply dbms s = .ok db') :
    (⟨closing (createAdmin row),{}⟩ : Worker).step (exec dbms) s =
      (s,⟨closing commitAdmin,({} : Transaction).flushed (.insertUser row)⟩) := by
  have hexec : exec dbms (.session (.write (.insertUser row))) s {} =
      (.ok (),s,({} : Transaction).flushed (.insertUser row)) :=
    ReadCommitted.exec_write rfl (by
      simp [Transaction.emitted,Write.applyAll,hinsert,Except.isOk,Except.toBool])
  exact Process.step_answered rfl hexec

theorem step_refused
    (hinsert : (Write.insertUser row).apply dbms s = .error .integrityError) :
    (⟨closing (createAdmin row),{}⟩ : Worker).step (exec dbms) s =
      (s,⟨closing rollback,.fail⟩) := by
  have hexec : exec dbms (.session (.write (.insertUser row))) s {} =
      (.error .integrityError,s,.fail) := by
    simp [exec,ReadCommitted.exec,ReadCommitted.execWrite,Transaction.emitted,Write.applyAll,
      hinsert]
  exact Process.step_answered rfl hexec

theorem Inside.step (h : Inside row p) (hinsert : (Write.insertUser row).apply dbms s = .ok db') :
    (p.step (exec dbms) s).1 = db' ∧ Ending (p.step (exec dbms) s).2 := by
  cases h with
  | inserted tx hactive hpending =>
    have hall : Write.applyAll dbms tx.pending s = .ok db' := by
      rw [hpending,Write.applyAll,hinsert]
      rfl
    have hexec : exec dbms (.session .commit) s tx = (.ok (),db',{ tx with pending := [] }) :=
      ReadCommitted.exec_commit hactive hall
    have hstep : (⟨closing commitAdmin,tx⟩ : Worker).step (exec dbms) s =
        (db',⟨closing (pure ()),{ tx with pending := [] }⟩) := Process.step_answered rfl hexec
    rw [hstep]
    exact ⟨rfl,.closing _ rfl⟩

theorem Waiting.pending (h : Waiting env ctx settings row p) : p.state.pending = [] := by
  cases h <;> rfl

theorem Ending.pending (h : Ending p) : p.state.pending = [] := by
  cases h <;> assumption

theorem Waiting.not_ended (h : Waiting env ctx settings row p) : p.script.ended = false := by
  cases h <;> rfl

theorem Inside.not_ended (h : Inside row p) : p.script.ended = false := by
  cases h
  rfl

theorem Ending.done (h : Ending p) (hended : p.script.ended = true) : p.script = .ret () := by
  cases h with
  | ended tx hpending => rfl
  | _ => cases hended

theorem Inside.nextName (h : Inside row p) : nextName p = none := by
  cases h
  rfl

theorem Inside.inserted_mem (h : Inside row p) :
    row.username ∈ p.state.pending.filterMap insertedName := by
  cases h with
  | inserted tx hactive hpending => simp [hpending,insertedName]

theorem nextName_create (row : UserRow) (tx : Transaction) :
    nextName ⟨closing (createAdmin row),tx⟩ = some row.username := rfl

theorem apply_insert (hempty : db.users.rows = []) (hstorable : row.storable = true) :
    ∃ db', (Write.insertUser row).apply dbms db = .ok db' ∧ db'.users.rows = [row] := by
  obtain ⟨users,hinsert,hrows⟩ := Table.insert_isSome (t := db.users) (r := row)
    (by simp [hempty])
  refine ⟨{ db with users := users },?_,by simp [hrows,hempty]⟩
  simp only [Write.apply,hstorable,hempty,hinsert,Bool.not_true,Bool.false_eq_true,if_false,
    List.any_nil]

theorem apply_taken {winner : UserRow} (hrows : db.users.rows = [winner])
    (hname : winner.username = row.username) (hstorable : row.storable = true) :
    (Write.insertUser row).apply dbms db = .error .integrityError := by
  simp [Write.apply,hstorable,hrows,hname]

end

section
variable {ι : Type} {dbms : Dbms} {env : Env} {contexts : ι → Context}
  {settings : BootstrapSettings} {db : Database} {rows : ι → UserRow} {after : ι → Database}
  {name : String}

/-- The race of the workers for the administrator. -/
def race (hname : ∀ i, (rows i).username = name) (hstorable : ∀ i, (rows i).storable = true)
    (hcreate : ∀ i, ensureBootstrapAdmin env (contexts i) settings 0 = createAdmin (rows i))
    (hempty : db.users.rows = [])
    (hinsert : ∀ i, (Write.insertUser (rows i)).apply dbms db = .ok (after i))
    (hrows : ∀ i, (after i).users.rows = [rows i]) : System.Race ι Unit (exec dbms) where
  Free s := s = db
  Won w s := s = after w
  Waiting i := Waiting env (contexts i) settings (rows i)
  Checking p := nextName p = some name
  Inside i := Inside (rows i)
  Winner _ := Ending
  Loser _ _ := Ending
  waiting_free i p s hs h := by
    subst hs
    cases h with
    | arrived =>
      rw [step_arrived,hempty,List.length_nil,hcreate i]
      exact ⟨rfl,.inl .counted⟩
    | counted =>
      rw [step_insert (hinsert i)]
      exact ⟨rfl,.inr ⟨by rw [nextName_create,hname i],.inserted _ rfl rfl⟩⟩
  waiting_won w i p s hs h := by
    subst hs
    cases h with
    | arrived =>
      rw [step_arrived,hrows w]
      exact ⟨rfl,.inr (.closing _ rfl)⟩
    | counted =>
      rw [step_refused (apply_taken (hrows w) (by rw [hname,hname]) (hstorable i))]
      exact ⟨rfl,.inr (.refused _ rfl)⟩
  inside_free i p s hs h := by
    subst hs
    exact .inr (h.step (hinsert i))
  winner_won w p s hs h := by
    rw [(h.step s).1]
    exact ⟨hs,(h.step s).2⟩
  loser_won w i p s hs h := by
    rw [(h.step s).1]
    exact ⟨hs,(h.step s).2⟩

/-- In a race somebody who has not ended can go on. -/
theorem unblocked_of_reached {r : System.Race ι Unit (exec dbms)} {sys : Workers ι}
    (hwaiting : ∀ i p, r.Waiting i p → p.state.pending = [])
    (hinside : ∀ i p, r.Inside i p → nextName p = none ∧ p.script.ended = false)
    (hwinner : ∀ i p, r.Winner i p → p.state.pending = [])
    (hloser : ∀ w i p, r.Loser w i p → p.state.pending = [])
    (h : r.Reached sys) (i : ι) (hended : (sys.processes i).script.ended = false) :
    ∃ j, (sys.processes j).script.ended = false ∧ ¬ Blocked j sys := by
  have hidle : (∀ j, (sys.processes j).state.pending = []) → ¬ Blocked i sys := by
    rintro hpending ⟨j,_,name,_,hname⟩
    rw [hpending j] at hname
    cases hname
  cases h with
  | free _ inside each =>
    cases inside with
    | none =>
      refine ⟨i,hended,hidle fun j => ?_⟩
      rcases each j with ⟨hj,_⟩ | ⟨_,hj⟩
      · cases hj
      · exact hwaiting j _ hj
    | some k =>
      rcases each k with ⟨_,hk⟩ | ⟨hk,_⟩
      · obtain ⟨hnext,hactive⟩ := hinside k _ hk
        refine ⟨k,hactive,?_⟩
        rintro ⟨_,_,name,hname,_⟩
        rw [hnext] at hname
        cases hname
      · exact absurd rfl hk
  | won w _ winner others =>
    refine ⟨i,hended,hidle fun j => ?_⟩
    by_cases hj : j = w
    · rw [hj]
      exact hwinner w _ winner
    · exact (others j hj).elim (hwaiting j _) (hloser w j _)

end

/-- Any number of workers that start at once on an empty user table, with the same fitting
settings: a worker is never stuck and none raises, and when all have ended the table holds the
administrator of one of them and nobody else. -/
theorem one_bootstrap_admin {ι : Type} [DecidableEq ι] [Nonempty ι] (env : Env) (dbms : Dbms)
    (hhash : ∀ plain salt, storable (env.hashpw plain salt) = true) (contexts : ι → Context)
    (settings : BootstrapSettings) (hpresent : settings.present = true)
    (hfits : settings.Fits env) (db : Database) (hempty : db.users.rows = []) (schedule : List ι)
    (hwaits : (start env contexts settings db).Along (exec dbms)
      (fun i sys => ¬ Blocked i sys) schedule) :
    let sys := (start env contexts settings db).run (exec dbms) schedule
    (∀ i, (sys.processes i).script.ended = true → (sys.processes i).script = .ret ()) ∧
    (∀ i, (sys.processes i).script.ended = false →
      ∃ j, (sys.processes j).script.ended = false ∧ ¬ Blocked j sys) ∧
    (∀ i, 6 ≤ schedule.count i → (sys.processes i).script.ended = true) ∧
    ((∀ i, (sys.processes i).script.ended = true) →
      ∃ row, sys.shared.users.rows = [row] ∧ row.role = .admin ∧ row.status = .active) := by
  obtain ⟨username,password,_,_,hworker⟩ := create_of_present hpresent hfits hhash
  have hcreate := fun i => (hworker (contexts i)).2
  have hstorable := fun i => (hworker (contexts i)).1
  have hname : ∀ i, (bootstrapRow env (contexts i) username
      (env.hashpw password (contexts i).salt)).username = AuthService.normalize env username :=
    fun _ => rfl
  choose after hinsert hrows using fun i => @apply_insert dbms db _ hempty (hstorable i)
  let r := race hname hstorable hcreate hempty hinsert hrows
  have hstart : r.Reached (start env contexts settings db) :=
    .free rfl none fun i => .inr ⟨by simp,.arrived⟩
  have hreached := System.Race.Reached.run (r:=r) (fun i sys hfree hchecking j hj hinside =>
    hfree ⟨j,hj,_,hchecking,by
      rw [← hname j]
      exact Inside.inserted_mem hinside⟩) hstart hwaits
  have hwon : ∀ i, (((start env contexts settings db).run (exec dbms)
      schedule).processes i).script.ended = true → _ := fun i hi =>
    hreached.won_of_ended (fun _ _ h => Waiting.not_ended h) (fun _ _ h => Inside.not_ended h) hi
  intro sys
  refine ⟨fun i hi => ?_,fun i hi => ?_,fun i hi => ?_,fun hended => ?_⟩
  · obtain ⟨w,_,winner,others⟩ := hwon i hi
    by_cases hw : i = w
    · subst hw
      exact Ending.done winner hi
    · exact Ending.done (others i hw hi) hi
  · exact unblocked_of_reached (fun _ _ h => Waiting.pending h)
      (fun _ _ h => ⟨Inside.nextName h,Inside.not_ended h⟩) (fun _ _ h => Ending.pending h)
      (fun _ _ _ h => Ending.pending h) hreached i hi
  · exact System.run_ended schedule
      (atMost_ensureBootstrapAdminOnce env (contexts i) settings) hi
  · obtain ⟨i⟩ := ‹Nonempty ι›
    obtain ⟨w,hafter,_⟩ := hwon i (hended i)
    have hshared : sys.shared = after w := hafter
    rw [hshared,hrows w]
    exact ⟨_,rfl,rfl,rfl⟩

def twoWorkers (i : Bool) : Context := contextOf 0 (if i then 5 else 6) 10

/-- Two workers count before either inserts; the second insert waits for the first commit. -/
theorem one_bootstrap_admin_two_workers :
    let schedule := [false,true,false,false,true,true,true,false]
    let sys := (start plainEnv twoWorkers rootSettings migratedDatabase).run (exec .lenient)
      schedule
    (∀ i, (sys.processes i).script.ended = true → (sys.processes i).script = .ret ()) ∧
    (∀ i, (sys.processes i).script.ended = false →
      ∃ j, (sys.processes j).script.ended = false ∧ ¬ Blocked j sys) ∧
    (∀ i, 6 ≤ schedule.count i → (sys.processes i).script.ended = true) ∧
    ((∀ i, (sys.processes i).script.ended = true) →
      ∃ row, sys.shared.users.rows = [row] ∧ row.role = .admin ∧ row.status = .active) :=
  one_bootstrap_admin plainEnv .lenient plainEnv_hashpw_storable twoWorkers rootSettings rfl
    (lateSettings_fit (.startup (contextOf 0 3 20) rootSettings) (by simp [lateSettings]))
    migratedDatabase rfl [false,true,false,false,true,true,true,false] (by decide)

end Startup
end WzonePortal
