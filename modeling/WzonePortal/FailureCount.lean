import WzonePortal.LoginDisclosure
import WzonePortal.TransactionRules
import WzonePortal.Linearization

/-! Concurrent wrong passwords on one account, each call in a transaction that commits. The
counter is read, increased and written back; while a commit that writes the counter or the
lock finds what its transaction has read, no failure is lost. -/
namespace WzonePortal

open UserRepository AuthService ReadCommitted

/-- The part of an account that failed logins change. -/
structure Failures where
  count : ℤ
  lockedUntil : Option Timestamp
  deriving DecidableEq, Repr

namespace Failures

def isLocked (f : Failures) (now : Timestamp) : Bool :=
  match f.lockedUntil with
  | none => false
  | some until_ => now < until_

/-- One wrong password. -/
def attempt (settings : Settings) (now : Timestamp) (f : Failures) : Failures :=
  if f.isLocked now then f
  else if settings.maxFailedLoginAttempts ≤ f.count + 1 then ⟨0,some (now + settings.lockout)⟩
  else ⟨f.count + 1,f.lockedUntil⟩

end Failures

def UserRow.failures (r : UserRow) : Failures := ⟨r.failedLoginCount,r.lockedUntil⟩

def UserRow.withFailures (r : UserRow) (f : Failures) : UserRow :=
  { r with failedLoginCount := f.count, lockedUntil := f.lockedUntil }

/-- The caller commits what a call has flushed, whatever the call raises. -/
def keep {α : Type} (p : Service α) : Service Unit := do
  Script.tryCatch (do
    let _ ← p
    pure ()) fun _ => pure ()
  commit

def keptLogin (env : Env) (g : Guess) (username : String) : Service Unit :=
  keep (AuthService.login env g.ctx username g.password)

def refuse (env : Env) (g : Guess) (username reason : String) (e : Exc) :
    Service (String × AuthenticatedUser) := do
  auditFailure env g.ctx (normalize env username) reason
  throw e

/-- The failure of one call as the session has read the account, then as it is flushed. -/
def countFailure (env : Env) (g : Guess) (username : String) (row : UserRow) :
    Service (String × AuthenticatedUser) := do
  registerFailure g.ctx.now env.settings row.userId
  refuse env g username "invalid_credentials" (.authentication genericFailure)

def flushFailure (env : Env) (g : Guess) (username : String) (row : UserRow) :
    Service (String × AuthenticatedUser) := do
  flush (.patchUser row.userId (failurePatch g.ctx.now env.settings row))
  refuse env g username "invalid_credentials" (.authentication genericFailure)

section
variable {dbms : Dbms} {env : Env} {g : Guess} {username : String} {db : Database}
  {row : UserRow} {tx : Transaction}

theorem failures_withFailures (r : UserRow) (f : Failures) : (r.withFailures f).failures = f := rfl

theorem isLocked_withFailures (r : UserRow) (f : Failures) (now : Timestamp) :
    AuthService.isLocked (r.withFailures f) now = f.isLocked now := rfl

theorem failurePatch_apply {f : Failures} {now : Timestamp} (h : f.isLocked now = false)
    (settings : Settings) :
    (failurePatch now settings (row.withFailures f)).apply (row.withFailures f) =
      row.withFailures (f.attempt settings now) := by
  unfold failurePatch Failures.attempt
  simp only [h,Bool.false_eq_true,if_false]
  by_cases hlimit : settings.maxFailedLoginAttempts ≤ f.count + 1
  · have hrow : settings.maxFailedLoginAttempts ≤ (row.withFailures f).failedLoginCount + 1 := hlimit
    rw [if_pos hrow,if_pos hlimit]
    rfl
  · have hrow : ¬ settings.maxFailedLoginAttempts ≤ (row.withFailures f).failedLoginCount + 1 :=
      hlimit
    rw [if_neg hrow,if_neg hlimit]
    rfl

theorem step_keep {α : Type} {o : Stmt} {a : o.Res} {db' : Database} {tx' : Transaction}
    (h : exec dbms o db tx = (.ok a,db',tx')) (f : o.Res → Service α) :
    (⟨keep (Script.perform o >>= f),tx⟩ : Process Stmt.Res Exc Unit Transaction).step (exec dbms) db =
      (db',⟨keep (f a),tx'⟩) :=
  Process.step_answered rfl h

theorem step_lookup (hname : storable (normalize env username) = true)
    (hrow : (db.users.rows.find? fun r => r.username = normalize env username) = some row)
    (hwrong : (verifyPassword env g.ctx g.password row.passwordHash).1 = false) :
    (⟨keptLogin env g username,{}⟩ : Process Stmt.Res Exc Unit Transaction).step (exec dbms) db =
      (db,⟨keep (if AuthService.isLocked row g.ctx.now then
          refuse env g username "locked" (.authentication lockedMessage)
        else countFailure env g username row),{ rows := [row], read := [row] }⟩) := by
  have hexec : exec dbms (.query (.userByUsername (normalize env username))) db {} =
      (.ok (some row),db,{ rows := [row], read := [row] }) := by
    have heval : (Query.userByUsername (normalize env username)).eval db = .ok (some row) := by
      simp only [Query.eval,hname,if_true]
      exact congrArg Except.ok hrow
    exact exec_query rfl rfl rfl heval
  unfold keptLogin AuthService.login findRowByUsername ask
  rw [step_keep hexec]
  simp only [hwrong,Bool.not_false,if_true]
  rfl

theorem step_loaded (row : UserRow) (db : Database) :
    (⟨keep (countFailure env g username row),{ rows := [row], read := [row] }⟩ :
      Process Stmt.Res Exc Unit Transaction).step (exec dbms) db =
      (db,⟨keep (flushFailure env g username row),{ rows := [row], read := [row] }⟩) := by
  have hexec : exec dbms (.query (.userById row.userId)) db { rows := [row], read := [row] } =
      (.ok (some row),db,{ rows := [row], read := [row] }) := by
    have hcached : Transaction.cached { rows := [row], read := [row] } (.userById row.userId) =
        some (some row) := by
      simp [Transaction.cached,Transaction.find?]
    exact exec_cached rfl hcached db
  unfold countFailure registerFailure assign getRow ask
  simp only [bind_assoc]
  rw [step_keep hexec]
  rfl

theorem failurePatch_storable (now : Timestamp) (settings : Settings) (row q : UserRow) :
    ((failurePatch now settings row).changedFrom q).storable = true := by
  unfold failurePatch
  split <;> rfl

/-- The statement that counts the failure of a call which has read the row. -/
def failureUpdate (env : Env) (g : Guess) (row : UserRow) : Write :=
  .patchUser row.userId ((failurePatch g.ctx.now env.settings row).changedFrom row)

theorem step_flushed (row : UserRow) (db : Database) : ∃ tx' : Transaction,
    (⟨keep (flushFailure env g username row),{ rows := [row], read := [row] }⟩ :
      Process Stmt.Res Exc Unit Transaction).step (exec dbms) db =
      (db,⟨keep (refuse env g username "invalid_credentials" (.authentication genericFailure)),tx'⟩) ∧
    tx'.inactive = false ∧ tx'.read = [row] ∧ tx'.pending = [failureUpdate env g row] := by
  have hfind : Transaction.find? { rows := [row], read := [row] } row.userId = some row := by
    simp [Transaction.find?]
  have hpending := flushed_pending_patchUser hfind (failurePatch g.ctx.now env.settings row)
  have hexec : exec dbms (.write (.patchUser row.userId (failurePatch g.ctx.now env.settings row)))
      db { rows := [row], read := [row] } = (.ok (),db,Transaction.flushed
        { rows := [row], read := [row] } (.patchUser row.userId
          (failurePatch g.ctx.now env.settings row))) := exec_write rfl (by
    simp [emitted_patchUser hfind,Write.applyAll,Write.apply,failurePatch_storable,Except.isOk,
      Except.toBool])
  refine ⟨_,?_,rfl,rfl,hpending⟩
  unfold flushFailure flush
  rw [step_keep hexec]

theorem step_refused (hactive : tx.inactive = false) (happly : ∀ r : AuditEventRow,
      r.action = .login → (Write.applyAll dbms (tx.pending ++ [.insertAudit r]) db).isOk = true)
    (reason : String) (e : Exc) : ∃ r : AuditEventRow, r.action = .login ∧
    (⟨keep (refuse env g username reason e),tx⟩ : Process Stmt.Res Exc Unit Transaction).step
      (exec dbms) db = (db,⟨commit,tx.flushed (.insertAudit r)⟩) := by
  refine ⟨AuditRepository.eventRow g.ctx.now
    (failureEvent env g.ctx (normalize env username) reason),rfl,?_⟩
  exact Process.step_answered rfl (exec_write (w:=.insertAudit _) hactive (happly _ rfl))

theorem step_committed {db' : Database} (hactive : tx.inactive = false)
    (happly : Write.applyAll dbms tx.pending db = .ok db') :
    (⟨commit,tx⟩ : Process Stmt.Res Exc Unit Transaction).step (exec dbms) db =
      (db',⟨.ret (),{ tx with pending := [] }⟩) :=
  Process.step_answered rfl (exec_commit hactive happly)

end

def setsFailures (userId : UUID) (ws : List Write) : Bool :=
  ws.any fun
    | .patchUser u p => u = userId && (p.failedLoginCount.isSome || p.lockedUntil.isSome)
    | _ => false

/-- A commit that writes the counter or the lock of the user finds what it has read. -/
def FailuresUnstale {ι : Type} (dbms : Dbms) (userId : UUID) (i : ι) (sys : Open ι Unit) : Prop :=
  commits dbms i sys = true → setsFailures userId (sys.processes i).state.pending = true →
    ∀ row ∈ sys.shared.users.rows, row.userId = userId →
    ∀ r ∈ (sys.processes i).state.read, r.userId = userId → r.failures = row.failures

instance {ι : Type} (dbms : Dbms) (userId : UUID) (i : ι) (sys : Open ι Unit) :
    Decidable (FailuresUnstale dbms userId i sys) :=
  inferInstanceAs (Decidable (_ → _ → ∀ row ∈ sys.shared.users.rows, _ → ∀ r ∈
    (sys.processes i).state.read, _ → _))

/-- What a call has flushed before its audit row, and whether that has no effect. -/
inductive Flushed (env : Env) (g : Guess) (account : UserRow) : List UserRow → List Write → Bool → Prop
  | nothing (read : List UserRow) : Flushed env g account read [] true
  | counted (f : Failures) (hopen : f.isLocked g.ctx.now = false) :
    Flushed env g account [account.withFailures f] [failureUpdate env g (account.withFailures f)]
      (f.attempt env.settings g.ctx.now = f)

/-- The stages of a call, and whether it has taken effect. -/
inductive FailurePhase (env : Env) (username : String) (account : UserRow) (g : Guess) :
    Process Stmt.Res Exc Unit Transaction → Bool → Prop
  | waiting : FailurePhase env username account g ⟨keptLogin env g username,{}⟩ false
  | loaded (f : Failures) (hopen : f.isLocked g.ctx.now = false) :
    FailurePhase env username account g ⟨keep (countFailure env g username (account.withFailures f)),
      { rows := [account.withFailures f], read := [account.withFailures f] }⟩
      (f.attempt env.settings g.ctx.now = f)
  | flushing (f : Failures) (hopen : f.isLocked g.ctx.now = false) :
    FailurePhase env username account g ⟨keep (flushFailure env g username (account.withFailures f)),
      { rows := [account.withFailures f], read := [account.withFailures f] }⟩
      (f.attempt env.settings g.ctx.now = f)
  | recording (tx : Transaction) (taken : Bool) (reason : String) (e : Exc)
    (hactive : tx.inactive = false) (hflushed : Flushed env g account tx.read tx.pending taken) :
    FailurePhase env username account g ⟨keep (refuse env g username reason e),tx⟩ taken
  | committing (tx : Transaction) (taken : Bool) (ws : List Write) (r : AuditEventRow)
    (hactive : tx.inactive = false) (hflushed : Flushed env g account tx.read ws taken)
    (hpending : tx.pending = ws ++ [.insertAudit r]) (hr : r.action = .login) :
    FailurePhase env username account g ⟨commit,tx⟩ taken
  | done (tx : Transaction) : FailurePhase env username account g ⟨.ret (),tx⟩ true

/-- The account is stored with the given failures. -/
def StoredFailures (env : Env) (username : String) (account : UserRow) (db : Database)
    (f : Failures) : Prop :=
  (db.users.rows.find? fun r => r.username = normalize env username) = some (account.withFailures f)

section
variable {dbms : Dbms} {env : Env} {g : Guess} {username : String} {account : UserRow}
  {db : Database} {f : Failures}

theorem changedFrom_of_apply_eq {p : UserPatch} {row : UserRow} (h : p.apply row = row) :
    p.changedFrom row = {} := by
  have hnone : ∀ {α : Type} [DecidableEq α] {o : Option α} {a : α}, o.getD a = a →
      o.filter (· ≠ a) = none := by
    intro α _ o a ho
    cases o with
    | none => rfl
    | some b => simp [Option.filter,show b = a from ho]
  simp only [UserPatch.changedFrom,UserPatch.mk.injEq]
  exact ⟨hnone (congrArg UserRow.passwordHash h),hnone (congrArg UserRow.role h),
    hnone (congrArg UserRow.status h),hnone (congrArg UserRow.approvedBy h),
    hnone (congrArg UserRow.approvedAt h),hnone (congrArg UserRow.rejectReason h),
    hnone (congrArg UserRow.mustChangePassword h),hnone (congrArg UserRow.failedLoginCount h),
    hnone (congrArg UserRow.lockedUntil h),hnone (congrArg UserRow.lastLoginAt h),
    hnone (congrArg UserRow.updatedAt h)⟩

theorem failureUpdate_settled (hopen : f.isLocked g.ctx.now = false)
    (hsettled : f.attempt env.settings g.ctx.now = f) :
    failureUpdate env g (account.withFailures f) = .patchUser account.userId {} := by
  have h := @failurePatch_apply account f g.ctx.now hopen env.settings
  rw [hsettled] at h
  unfold failureUpdate
  rw [changedFrom_of_apply_eq h]
  rfl

theorem setsFailures_of_counted (hopen : f.isLocked g.ctx.now = false)
    (hne : f.attempt env.settings g.ctx.now ≠ f) (ws : List Write) :
    setsFailures account.userId (failureUpdate env g (account.withFailures f)::ws) = true := by
  by_contra hno
  simp only [setsFailures,List.any_cons,failureUpdate,Bool.not_eq_true,Bool.or_eq_false_iff,
    Bool.and_eq_false_iff] at hno
  have hnone := hno.1.resolve_left (by simp [UserRow.withFailures])
  have happly := UserPatch.changedFrom_apply
    (failurePatch g.ctx.now env.settings (account.withFailures f)) (account.withFailures f)
  rw [failurePatch_apply hopen] at happly
  apply hne
  rw [← failures_withFailures account (f.attempt env.settings g.ctx.now),← happly]
  simp only [Option.isSome_eq_false_iff,Option.isNone_iff_eq_none] at hnone
  simp only [UserRow.failures,UserPatch.apply,hnone,Option.getD_none]
  rfl

theorem storedFailures_addAudit (h : StoredFailures env username account db f) (r : AuditEventRow) :
    StoredFailures env username account (db.addAudit r) f := h

theorem storedFailures_counted (h : StoredFailures env username account db f)
    (hopen : f.isLocked g.ctx.now = false) :
    StoredFailures env username account (db.patchUser account.userId
      ((failurePatch g.ctx.now env.settings (account.withFailures f)).changedFrom
        (account.withFailures f))) (f.attempt env.settings g.ctx.now) := by
  have hpatch := lookup_patchUser h
    ((failurePatch g.ctx.now env.settings (account.withFailures f)).changedFrom
      (account.withFailures f))
  rw [UserPatch.changedFrom_apply,failurePatch_apply hopen] at hpatch
  exact hpatch

/-- What the commit of a call makes of the stored failures. -/
theorem flushed_commit (haudit : ∀ r, r.action = .login → dbms.acceptsAudit r = true)
    {read : List UserRow} {ws : List Write} {taken : Bool} (h : Flushed env g account read ws taken)
    (hrep : StoredFailures env username account db f) {r : AuditEventRow} (hr : r.action = .login)
    (hunstale : setsFailures account.userId (ws ++ [.insertAudit r]) = true →
      ∀ q ∈ read, q.userId = account.userId → q.failures = f) :
    ∃ db', Write.applyAll dbms (ws ++ [.insertAudit r]) db = .ok db' ∧
      StoredFailures env username account db'
        (if taken then f else f.attempt env.settings g.ctx.now) := by
  have ha := haudit r hr
  cases h with
  | nothing => exact ⟨db.addAudit r,by simp [Write.applyAll,Write.apply,ha],hrep⟩
  | counted q hopen =>
    refine ⟨(db.patchUser account.userId
      ((failurePatch g.ctx.now env.settings (account.withFailures q)).changedFrom
        (account.withFailures q))).addAudit r,?_,storedFailures_addAudit ?_ r⟩
    · simp [Write.applyAll,Write.apply,ha,failureUpdate,failurePatch_storable,UserRow.withFailures]
    · by_cases hsettled : q.attempt env.settings g.ctx.now = q
      · have hupdate := @failureUpdate_settled env g account q hopen hsettled
        unfold failureUpdate at hupdate
        rw [Write.patchUser.injEq] at hupdate
        rw [hupdate.2,decide_eq_true hsettled]
        exact lookup_patchUser hrep {}
      · have hq : q = f := by
          rw [← failures_withFailures account q]
          exact hunstale (setsFailures_of_counted hopen hsettled _) _ List.mem_cons_self rfl
        subst hq
        rw [decide_eq_false hsettled]
        exact storedFailures_counted hrep hopen

theorem flushed_audit_applies {read : List UserRow} {ws : List Write} {taken : Bool}
    (h : Flushed env g account read ws taken) {r : AuditEventRow} (hr : dbms.acceptsAudit r = true) :
    (Write.applyAll dbms (ws ++ [.insertAudit r]) db).isOk = true := by
  cases h with
  | nothing => simp [Write.applyAll,Write.apply,hr,Except.isOk,Except.toBool]
  | counted q hopen =>
    simp [Write.applyAll,Write.apply,hr,failureUpdate,failurePatch_storable,Except.isOk,Except.toBool]

/-- Every statement of a call has no effect on the stored failures, except the one at which
the call counts: its lookup if that finds nothing to change, its commit otherwise. -/
theorem failure_takesEffect {ι : Type} (calls : ι → Guess)
    (haudit : ∀ r, r.action = .login → dbms.acceptsAudit r = true)
    (hname : storable (normalize env username) = true)
    (hwrong : ∀ i, (verifyPassword env (calls i).ctx (calls i).password account.passwordHash).1 = false)
    (i : ι) (sys : Open ι Unit) (taken : Bool) (f : Failures)
    (hunstale : FailuresUnstale dbms account.userId i sys)
    (hrep : StoredFailures env username account sys.shared f)
    (hphase : FailurePhase env username account (calls i) (sys.processes i) taken) :
    System.TakesEffect (exec dbms) (Failures.attempt env.settings (calls i).ctx.now)
      (StoredFailures env username account) (FailurePhase env username account (calls i))
      (sys.processes i) sys.shared taken f := by
  unfold System.TakesEffect
  unfold FailuresUnstale commits at hunstale
  generalize sys.processes i = p at hphase hunstale ⊢
  cases hphase with
  | waiting =>
    rw [step_lookup hname hrep (hwrong i),isLocked_withFailures]
    by_cases hl : f.isLocked (calls i).ctx.now = true
    · rw [if_pos hl]
      have hsame : f.attempt env.settings (calls i).ctx.now = f := if_pos hl
      exact .inr ⟨rfl,.recording _ true _ _ rfl (.nothing _),by rw [hsame]; exact hrep⟩
    · rw [if_neg hl]
      have hopen : f.isLocked (calls i).ctx.now = false := by simpa using hl
      have hloaded := @FailurePhase.loaded env username account (calls i) f hopen
      by_cases hsettled : f.attempt env.settings (calls i).ctx.now = f
      · rw [decide_eq_true hsettled] at hloaded
        exact .inr ⟨rfl,hloaded,by rw [hsettled]; exact hrep⟩
      · rw [decide_eq_false hsettled] at hloaded
        exact .inl ⟨hloaded,hrep⟩
  | loaded q hopen =>
    rw [step_loaded]
    exact .inl ⟨.flushing q hopen,hrep⟩
  | flushing q hopen =>
    obtain ⟨tx,hstep,hactive,hread,hpending⟩ := @step_flushed dbms env (calls i) username
      (account.withFailures q) sys.shared
    rw [hstep]
    refine .inl ⟨.recording tx _ _ _ hactive ?_,hrep⟩
    rw [hread,hpending]
    exact .counted q hopen
  | recording tx _ reason e hactive hflushed =>
    obtain ⟨r,hr,hstep⟩ := @step_refused dbms env (calls i) username sys.shared tx hactive
      (fun r hr => flushed_audit_applies hflushed (haudit r hr)) reason e
    rw [hstep]
    exact .inl ⟨.committing _ _ tx.pending r hactive hflushed rfl hr,hrep⟩
  | committing tx _ ws r hactive hflushed hpending hr =>
    change (!tx.inactive && decide (tx.pending ≠ []) &&
      (Write.applyAll dbms tx.pending sys.shared).isOk) = true → setsFailures account.userId
      tx.pending = true → _ at hunstale
    rw [hactive,hpending,flushed_audit_applies hflushed (haudit r hr)] at hunstale
    have hread := fun hsets => hunstale (by simp) hsets (account.withFailures f)
      (List.mem_of_find?_eq_some hrep) rfl
    obtain ⟨db',happly,hstored⟩ := flushed_commit haudit hflushed hrep hr hread
    rw [← hpending] at happly
    rw [step_committed hactive happly]
    cases taken with
    | true => exact .inl ⟨.done _,hstored⟩
    | false => exact .inr ⟨rfl,.done _,hstored⟩
  | done tx => exact .inl ⟨.done tx,hrep⟩

theorem failurePhase_ended {p : Process Stmt.Res Exc Unit Transaction} {taken : Bool}
    (h : FailurePhase env username account g p taken) (hend : p.script = .ret ()) : taken = true := by
  cases h with
  | done tx => rfl
  | _ => cases hend

theorem storedFailures_kept (haudit : ∀ r, r.action = .login → dbms.acceptsAudit r = true)
    (hname : storable (normalize env username) = true)
    (hwrong : (verifyPassword env g.ctx g.password account.passwordHash).1 = false)
    (hrep : StoredFailures env username account db f) :
    StoredFailures env username account ((g.attempt username).kept dbms env db).2
      (f.attempt env.settings g.ctx.now) := by
  obtain ⟨r,hkept⟩ := kept_existing haudit hname hrep g hwrong
  rw [hkept,isLocked_withFailures]
  by_cases hl : f.isLocked g.ctx.now = true
  · rw [if_pos hl,Failures.attempt,if_pos hl]
    exact hrep
  · have hopen : f.isLocked g.ctx.now = false := by simpa using hl
    have hpatch := lookup_patchUser hrep (failurePatch g.ctx.now env.settings (account.withFailures f))
    rw [failurePatch_apply hopen] at hpatch
    rw [if_neg hl]
    exact hpatch

theorem storedFailures_find (h : StoredFailures env username account db f) :
    (db.users.find? account.userId).map UserRow.failures = some f := by
  have hfind := Table.find?_of_mem (List.mem_of_find?_eq_some h)
  change db.users.find? account.userId = _ at hfind
  rw [hfind]
  rfl

end

def keptDatabase (dbms : Dbms) (env : Env) (username : String) (guesses : List Guess)
    (db : Database) : Database :=
  guesses.foldl (fun db g => ((g.attempt username).kept dbms env db).2) db

theorem storedFailures_keptDatabase {dbms : Dbms} {env : Env} {username : String}
    {account : UserRow} (haudit : ∀ r, r.action = .login → dbms.acceptsAudit r = true)
    (hname : storable (normalize env username) = true) {guesses : List Guess}
    (hwrong : ∀ g ∈ guesses, (verifyPassword env g.ctx g.password account.passwordHash).1 = false)
    {db : Database} {f : Failures} (hrep : StoredFailures env username account db f) :
    StoredFailures env username account (keptDatabase dbms env username guesses db)
      (guesses.foldl (fun f g => f.attempt env.settings g.ctx.now) f) := by
  induction guesses generalizing db f with
  | nil => exact hrep
  | cons g rest ih =>
    exact ih (fun q hq => hwrong q (List.mem_cons_of_mem g hq))
      (storedFailures_kept haudit hname (hwrong g List.mem_cons_self) hrep)

/-- When concurrent calls with wrong passwords have all committed, the counter and the lock
are those of the same calls in some order one after another, if every commit that writes
them finds what its transaction has read. -/
theorem no_failure_lost {ι : Type} [DecidableEq ι] (env : Env) (dbms : Dbms) (calls : ι → Guess)
    (username : String) (db : Database) (account : UserRow) (schedule : List ι)
    (haudit : ∀ r, r.action = .login → dbms.acceptsAudit r = true)
    (hrow : (Query.userByUsername (normalize env username)).eval db = .ok (some account))
    (hwrong : ∀ i, (verifyPassword env (calls i).ctx (calls i).password account.passwordHash).1 = false)
    (hunstale : (openAll (fun i => keptLogin env (calls i) username) db).Along (exec dbms)
      (FailuresUnstale dbms account.userId) schedule)
    (hdone : ∀ i, (((openAll (fun i => keptLogin env (calls i) username) db).run (exec dbms)
      schedule).processes i).script = .ret ()) :
    ∃ order : List ι, order.Nodup ∧ (∀ i, i ∈ order) ∧ ∃ f : Failures,
      (((openAll (fun i => keptLogin env (calls i) username) db).run (exec dbms)
        schedule).shared.users.find? account.userId).map UserRow.failures = some f ∧
      ((keptDatabase dbms env username (order.map calls) db).users.find?
        account.userId).map UserRow.failures = some f := by
  have hname : storable (normalize env username) = true := by
    by_contra hn
    simp [Query.eval,hn] at hrow
  have hstored : StoredFailures env username account db account.failures := by
    simp only [Query.eval,hname,if_true] at hrow
    exact Except.ok.inj hrow
  have hstart : (openAll (fun i => keptLogin env (calls i) username) db).Linearized
      (fun i => Failures.attempt env.settings (calls i).ctx.now)
      (StoredFailures env username account) (fun i => FailurePhase env username account (calls i))
      account.failures [] :=
    ⟨List.nodup_nil,fun i => .waiting,hstored⟩
  obtain ⟨order,hfinal⟩ := System.Linearized.run
    (failure_takesEffect calls haudit hname hwrong) ⟨[],hstart⟩ hunstale
  have hsequential := @storedFailures_keptDatabase dbms env username account haudit hname
    (order.map calls) (by simpa using fun i _ => hwrong i) db account.failures hstored
  rw [List.foldl_map] at hsequential
  refine ⟨order,hfinal.nodup,fun i => ?_,_,storedFailures_find hfinal.rep,
    storedFailures_find hsequential⟩
  exact of_decide_eq_true (failurePhase_ended (hfinal.phase i) (hdone i))

/-- Two wrong passwords for `root`. -/
def twoGuesses : Bool → Guess
  | false => guessAt 20
  | true => guessAt 21

theorem no_failure_lost_root :
    ∃ order : List Bool, order.Nodup ∧ (∀ i, i ∈ order) ∧ ∃ f : Failures,
      (((openAll (fun i => keptLogin plainEnv (twoGuesses i) "root") rootDatabase).run (exec .lenient)
        (List.replicate 5 false ++ List.replicate 5 true)).shared.users.find?
          root.userId).map UserRow.failures = some f ∧
      ((keptDatabase .lenient plainEnv "root" (order.map twoGuesses) rootDatabase).users.find?
        root.userId).map UserRow.failures = some f :=
  no_failure_lost plainEnv .lenient twoGuesses "root" rootDatabase root
    (List.replicate 5 false ++ List.replicate 5 true) (fun _ _ => rfl) rfl (by decide) (by decide)
    (fun i => by cases i <;> rfl)

/-- Both calls read the counter before either of them commits: one failure is lost. -/
theorem concurrent_failure_lost :
    let sys := (openAll (fun i => keptLogin plainEnv (twoGuesses i) "root") rootDatabase).run
      (exec .lenient) (true::List.replicate 5 false ++ List.replicate 4 true)
    let failuresOf (db : Database) := (db.users.find? root.userId).map UserRow.failures
    (∀ i, (sys.processes i).script = .ret ()) ∧ failuresOf sys.shared = some ⟨1,none⟩ ∧
      ∀ order ∈ [[false,true],[true,false]], failuresOf (keptDatabase .lenient plainEnv "root"
        (order.map twoGuesses) rootDatabase) = some ⟨2,none⟩ := by
  refine ⟨fun i => by cases i <;> rfl,by decide,by decide⟩

end WzonePortal
