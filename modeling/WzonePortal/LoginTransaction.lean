import WzonePortal.AuditFailure

/-! Login as a request of its own transaction. Every rejection raises after its flushes, so
the request transaction takes back the failure counter, the lock and the audit row. -/
namespace WzonePortal

open UserRepository AuthService

structure LoginAttempt where
  ctx : Context
  username : String
  password : String

namespace LoginAttempt

/-- `POST /auth/login` as one request. -/
def serve (dbms : Dbms) (env : Env) (a : LoginAttempt) (db : Database) :
    Except Exc (String × UserResponse) × Database :=
  WzonePortal.serve dbms (Routes.login env a.ctx a.username a.password) db

def lookup (env : Env) (a : LoginAttempt) (db : Database) : Except Exc (Option UserRow) :=
  (Query.userByUsername (normalize env a.username)).eval db

def verdict (env : Env) (a : LoginAttempt) (row : UserRow) : Bool × Option String :=
  verifyPassword env a.ctx a.password row.passwordHash

def rejection (env : Env) (a : LoginAttempt) (row : UserRow) : Option Exc :=
  if isLocked row a.ctx.now then some (.authentication lockedMessage)
  else if (a.verdict env row).1 = false then some (.authentication genericFailure)
  else match statusMessage row.status with
    | some message => some (.authentication message)
    | none => none

def writes (env : Env) (a : LoginAttempt) (row : UserRow) : List Write :=
  match (a.verdict env row).2 with
  | some newHash =>
    [.patchUser row.userId (hashPatch a.ctx.now newHash row.mustChangePassword),
      .patchUser row.userId (resetPatch a.ctx.now)]
  | none => [.patchUser row.userId (resetPatch a.ctx.now)]

def auditRow (env : Env) (a : LoginAttempt) (row : UserRow) : AuditEventRow :=
  AuditRepository.eventRow a.ctx.now (selfEvent env a.ctx .login (toAuthenticated row))

end LoginAttempt

section
variable {dbms : Dbms} {c w : Database} {env : Env} {ctx : Context} {α β : Type}

theorem finish_auditFailure_throw (username reason : String) (e : Exc)
    (f : β → Service α) :
    finish dbms (auditFailure env ctx username reason >>= fun _ => throw e >>= f) ⟨c,w,false⟩ =
      (.error e,c) := by
  rw [auditFailure,finish_bind_of_ok (run_record ctx.now _),Script.throw_bind,finish_throw]
  split <;> rfl

/-- The failure counter's UPDATE carries no text, so the database takes it. -/
theorem run_registerFailure {row : UserRow} (hrow : w.users.find? row.userId = some row) :
    (registerFailure ctx.now env.settings row.userId).run (Session.exec dbms) ⟨c,w,false⟩ =
      (.ok (),⟨c,w.patchUser row.userId (failurePatch ctx.now env.settings row),false⟩) := by
  have hs : (failurePatch ctx.now env.settings row).storable = true := by
    unfold failurePatch
    split <;> rfl
  rw [registerFailure,run_assign hrow,Session.run_flush]
  simp [Write.apply,hs]

theorem finish_flush (x : Write) (f : Unit → Service α) :
    finish dbms (flush x >>= f) ⟨c,w,false⟩ = match x.apply dbms w with
      | .ok w' => finish dbms (f ()) ⟨c,w',false⟩
      | .error e => (.error e,c) := by
  have hrun := @Session.run_flush dbms c w x
  cases hx : x.apply dbms w with
  | ok w' => rw [hx] at hrun; exact finish_bind_of_ok hrun f
  | error e => rw [hx] at hrun; exact finish_bind_of_error hrun f

theorem finish_assign {userId : UUID} {row : UserRow} (h : w.users.find? userId = some row)
    (patch : UserRow → UserPatch) (f : Unit → Service α) :
    finish dbms (assign userId patch >>= f) ⟨c,w,false⟩ =
      finish dbms (flush (.patchUser userId (patch row)) >>= f) ⟨c,w,false⟩ := by
  unfold assign
  rw [bind_assoc,finish_bind_of_ok (run_getRow userId),h]

theorem finish_login_tail (event : AuditEvent) (token : String) (user : AuthenticatedUser) :
    ∃ r, finish dbms (AuditRepository.record ctx.now event >>= fun _ => commit >>= fun _ =>
        getRow user.userId >>= fun row =>
          if user.role = .admin then pure (token,toUserResponse user row none)
          else ScopeRepository.listForUser user.userId >>= fun ids =>
            pure (token,toUserResponse user row (some ids))) ⟨c,w,false⟩ =
      if dbms.acceptsAudit (AuditRepository.eventRow ctx.now event) then
        (.ok r,w.addAudit (AuditRepository.eventRow ctx.now event)) else (.error .pendingRollback,c) := by
  rw [finish_bind_of_ok (run_record ctx.now event)]
  by_cases ha : dbms.acceptsAudit (AuditRepository.eventRow ctx.now event) = true
  · simp only [ha,if_true]
    rw [finish_bind_of_ok Session.run_commit,finish_bind_of_ok (run_getRow _)]
    by_cases hadmin : user.role = .admin
    · rw [if_pos hadmin]
      exact ⟨_,rfl⟩
    · rw [if_neg hadmin,finish_bind_of_ok (run_listForUser _)]
      exact ⟨_,rfl⟩
  · simp only [ha,if_false,Bool.false_eq_true]
    exact ⟨⟨"",toUserResponse user none none⟩,finish_bind_of_error Session.run_commit_inactive _⟩

end

section
variable {dbms : Dbms} {db : Database} {env : Env} {a : LoginAttempt} {row : UserRow}

theorem lookup_mem (h : a.lookup env db = .ok (some row)) :
    db.users.find? row.userId = some row := by
  simp only [LoginAttempt.lookup,Query.eval] at h
  split at h
  · exact Table.find?_of_mem (List.mem_of_find?_eq_some (Except.ok.inj h))
  · cases h

theorem run_findRow (h : a.lookup env db = .ok (some row)) :
    (findRowByUsername (normalize env a.username)).run (Session.exec dbms) ⟨db,db,false⟩ =
      (.ok (some row),⟨db,db,false⟩) := by
  rw [findRowByUsername,Session.run_ask]
  unfold LoginAttempt.lookup at h
  rw [h]

theorem login_unknown (h : ∀ row, a.lookup env db ≠ .ok (some row)) :
    ∃ e, a.serve dbms env db = (.error e,db) := by
  have hrun := @Session.run_ask dbms db db (.userByUsername (normalize env a.username))
  unfold LoginAttempt.serve
  rw [serve_eq_finish]
  unfold Routes.login AuthService.login findRowByUsername
  simp only [bind_assoc,Session.fresh]
  cases hl : a.lookup env db with
  | error e =>
    unfold LoginAttempt.lookup at hl
    rw [hl] at hrun
    exact ⟨e,finish_bind_of_error hrun _⟩
  | ok found =>
    cases found with
    | some row => exact absurd hl (h row)
    | none =>
      unfold LoginAttempt.lookup at hl
      rw [hl] at hrun
      rw [finish_bind_of_ok hrun]
      simp only [bind_assoc]
      exact ⟨_,finish_auditFailure_throw _ _ _ _⟩

/-- A rejected attempt raises and leaves the committed database as it was: neither the
counter nor the lock nor the audit row survives. -/
theorem login_rejected (h : a.lookup env db = .ok (some row)) {e : Exc}
    (hr : a.rejection env row = some e) : a.serve dbms env db = (.error e,db) := by
  unfold LoginAttempt.serve
  rw [serve_eq_finish]
  unfold Routes.login AuthService.login
  simp only [bind_assoc,Session.fresh]
  rw [finish_bind_of_ok (run_findRow h)]
  unfold LoginAttempt.rejection LoginAttempt.verdict at hr
  by_cases hl : isLocked row a.ctx.now = true
  · simp only [hl,if_true,bind_assoc,Option.some.injEq] at hr ⊢
    rw [← hr]
    exact finish_auditFailure_throw _ _ _ _
  · simp only [hl,if_false,Bool.false_eq_true] at hr ⊢
    cases hv : (verifyPassword env a.ctx a.password row.passwordHash).1 with
    | false =>
      simp only [hv,Bool.not_false,if_true,Option.some.injEq,bind_assoc] at hr ⊢
      rw [← hr,finish_bind_of_ok (run_registerFailure (lookup_mem h))]
      exact finish_auditFailure_throw _ _ _ _
    | true =>
      simp only [hv,Bool.not_true,Bool.false_eq_true,if_false,Bool.true_eq_false] at hr ⊢
      cases hs : row.status <;>
        simp only [hs,statusMessage,Option.some.injEq,reduceCtorEq] at hr
      all_goals
        rw [← hr,if_pos (by decide)]
        simp only [statusMessage,bind_assoc]
        exact finish_auditFailure_throw _ _ _ _

theorem rejection_eq_none :
    a.rejection env row = none ↔ isLocked row a.ctx.now = false ∧
      (a.verdict env row).1 = true ∧ row.status = .active := by
  unfold LoginAttempt.rejection
  cases isLocked row a.ctx.now with
  | true => simp
  | false =>
    cases (a.verdict env row).1 with
    | false => simp
    | true => cases row.status <;> simp [statusMessage]

/-- An accepted attempt applies its writes and records a success. -/
theorem login_accepted (dbms : Dbms) (h : a.lookup env db = .ok (some row))
    (hr : a.rejection env row = none) :
    ∃ r, a.serve dbms env db = match Write.applyAll dbms (a.writes env row) db with
      | .error e => (.error e,db)
      | .ok w => if dbms.acceptsAudit (a.auditRow env row) then
          (.ok r,w.addAudit (a.auditRow env row)) else (.error .pendingRollback,db) := by
  obtain ⟨hl,hv,hs⟩ := rejection_eq_none.mp hr
  have hmem := lookup_mem h
  have hreset : (resetPatch a.ctx.now).storable = true := rfl
  unfold LoginAttempt.verdict at hv
  unfold LoginAttempt.serve LoginAttempt.writes LoginAttempt.verdict LoginAttempt.auditRow
  rw [serve_eq_finish]
  unfold Routes.login AuthService.login
  simp only [bind_assoc,Session.fresh]
  rw [finish_bind_of_ok (run_findRow h)]
  simp only [hl,hv,hs,Bool.not_true,Bool.false_eq_true,if_false,loginAllowed,List.mem_singleton,
    not_true_eq_false]
  cases (verifyPassword env a.ctx a.password row.passwordHash).2 with
  | none =>
    simp only [bind_assoc,pure_bind,resetFailures]
    rw [finish_assign hmem,finish_flush]
    simp only [Write.applyAll,Write.apply,hreset,if_true]
    exact finish_login_tail _ _ _
  | some newHash =>
    simp only [bind_assoc,pure_bind,resetFailures,updateHash]
    rw [finish_assign hmem,finish_flush]
    simp only [Write.applyAll,Write.apply,hreset,if_true]
    cases (hashPatch a.ctx.now newHash row.mustChangePassword).storable with
    | false => exact ⟨⟨"",toUserResponse (toAuthenticated row) none none⟩,rfl⟩
    | true =>
      simp only [if_true]
      rw [finish_assign (find?_patched hmem _),finish_flush]
      simp only [Write.apply,hreset,if_true]
      exact finish_login_tail _ _ _

/-- What the password check needs to let the attempt in. -/
def LoginAttempt.Accepted (env : Env) (a : LoginAttempt) (db : Database) : Prop :=
  ∃ row, a.lookup env db = .ok (some row) ∧ isLocked row a.ctx.now = false ∧
    (a.verdict env row).1 = true ∧ row.status ∈ loginAllowed

theorem login_not_accepted (dbms : Dbms) (h : ¬ a.Accepted env db) :
    ∃ e, a.serve dbms env db = (.error e,db) := by
  by_cases hf : ∃ row, a.lookup env db = .ok (some row)
  · obtain ⟨row,hrow⟩ := hf
    cases hr : a.rejection env row with
    | some e => exact ⟨e,login_rejected hrow hr⟩
    | none =>
      obtain ⟨hl,hv,hs⟩ := rejection_eq_none.mp hr
      exact absurd ⟨row,hrow,hl,hv,by simp [hs,loginAllowed]⟩ h
  · exact login_unknown fun row hrow => hf ⟨row,hrow⟩

theorem writes_isAudit : ∀ w ∈ a.writes env row, w.isAudit = false := by
  unfold LoginAttempt.writes
  split <;> simp [Write.isAudit]

theorem writes_applyAll (dbms : Dbms) (hhash : ∀ plain salt, storable (env.hashpw plain salt) = true) :
    ∃ w, Write.applyAll dbms (a.writes env row) db = .ok w := by
  have hreset : (resetPatch a.ctx.now).storable = true := rfl
  unfold LoginAttempt.writes
  cases hn : (a.verdict env row).2 with
  | none =>
    simp only [Write.applyAll,Write.apply,hreset,if_true]
    exact ⟨_,rfl⟩
  | some newHash =>
    have hnew : newHash = env.hashpw a.password a.ctx.salt := by
      unfold LoginAttempt.verdict verifyPassword at hn
      split at hn
      · cases hn
      · split at hn
        · cases hn
        · split at hn
          · exact (Option.some.inj hn).symm
          · cases hn
    have hpatch : (hashPatch a.ctx.now newHash row.mustChangePassword).storable = true := by
      simp [UserPatch.storable,hashPatch,hnew,hhash]
    simp only [Write.applyAll,Write.apply,hreset,hpatch,if_true]
    exact ⟨_,rfl⟩

theorem login_of_accepted (haudit : ∀ row, dbms.acceptsAudit row = true)
    (hhash : ∀ plain salt, storable (env.hashpw plain salt) = true) (h : a.Accepted env db) :
    ∃ r row, (a.serve dbms env db).1 = .ok r ∧
      (a.serve dbms env db).2.auditEvents = db.auditEvents ++ [row] ∧
      row.action = .login ∧ row.result = .success := by
  obtain ⟨row,hrow,hl,hv,hs⟩ := h
  have hnone : a.rejection env row = none :=
    rejection_eq_none.mpr ⟨hl,hv,by simpa [loginAllowed] using hs⟩
  obtain ⟨r,hr⟩ := login_accepted dbms hrow hnone
  obtain ⟨w,hw⟩ := @writes_applyAll db env a row dbms hhash
  rw [hw] at hr
  simp only [haudit,if_true] at hr
  have hevents : w.auditEvents = db.auditEvents := applyAll_plain_auditEvents writes_isAudit hw
  exact ⟨r,a.auditRow env row,by rw [hr],by rw [hr,Database.addAudit,hevents],rfl,rfl⟩

end

/-- One served attempt of a run. -/
structure LoginStep where
  before : Database
  attempt : LoginAttempt
  result : Except Exc (String × UserResponse)
  after : Database

def loginRun (dbms : Dbms) (env : Env) : List LoginAttempt → Database → List LoginStep
  | [], _ => []
  | a::rest, db =>
    ⟨db,a,(a.serve dbms env db).1,(a.serve dbms env db).2⟩::
      loginRun dbms env rest (a.serve dbms env db).2

theorem loginRun_step {dbms : Dbms} {env : Env} {attempts : List LoginAttempt} {db : Database}
    {s : LoginStep} (h : s ∈ loginRun dbms env attempts db) :
    s.attempt.serve dbms env s.before = (s.result,s.after) := by
  induction attempts generalizing db with
  | nil => cases h
  | cons a rest ih =>
    rcases List.mem_cons.mp h with rfl | hm
    · rfl
    · exact ih hm

namespace LoginStep

def succeeded (s : LoginStep) : Bool :=
  match s.result with
  | .ok _ => true
  | .error _ => false

/-- The committed audit table grew by one login row that tells how the request ended. -/
def Audited (s : LoginStep) : Prop :=
  ∃ row, s.after.auditEvents = s.before.auditEvents ++ [row] ∧ row.action = .login ∧
    row.result = if s.succeeded then .success else .failure

/-- The request compared the password with the stored hash, and it was wrong. -/
def comparesWrong (env : Env) (s : LoginStep) : Bool :=
  match s.attempt.lookup env s.before with
  | .ok (some row) => !isLocked row s.attempt.ctx.now && !(s.attempt.verdict env row).1
  | _ => false

/-- The committed row of the account is locked at time `t`. -/
def LockedAt (username : String) (t : Timestamp) (s : LoginStep) : Prop :=
  ∃ row, (s.after.users.rows.find? fun r => r.username = username) = some row ∧
    isLocked row t = true

end LoginStep

/-- In every run, the audit rows are complete exactly when every attempt is accepted. -/
theorem login_audited_iff_accepted (dbms : Dbms) (env : Env) (attempts : List LoginAttempt)
    (db : Database) (haudit : ∀ row, dbms.acceptsAudit row = true)
    (hhash : ∀ plain salt, storable (env.hashpw plain salt) = true) :
    (∀ s ∈ loginRun dbms env attempts db, s.Audited) ↔
      ∀ s ∈ loginRun dbms env attempts db, s.attempt.Accepted env s.before := by
  constructor
  · intro h s hs
    obtain ⟨row,hrow,_⟩ := h s hs
    by_contra hn
    obtain ⟨e,he⟩ := login_not_accepted dbms hn
    rw [loginRun_step hs] at he
    have hafter : s.after = s.before := congrArg Prod.snd he
    rw [hafter] at hrow
    simp at hrow
  · intro h s hs
    obtain ⟨r,row,hr,hevents,haction,hresult⟩ := login_of_accepted haudit hhash (h s hs)
    rw [loginRun_step hs] at hr hevents
    have hr : s.result = .ok r := hr
    exact ⟨row,hevents,haction,by rw [hresult]; simp [LoginStep.succeeded,hr]⟩

/-- An attempt of a fresh client at time `now`. -/
def attemptAt (now : Timestamp) (username password : String) : LoginAttempt :=
  ⟨contextOf 0 0 now,username,password⟩

theorem login_audited_iff_accepted_root :
    let run := loginRun .lenient plainEnv [attemptAt 20 "root" "secret-root"] rootDatabase
    (∀ s ∈ run, s.Audited) ↔ ∀ s ∈ run, s.attempt.Accepted plainEnv s.before :=
  login_audited_iff_accepted .lenient plainEnv [attemptAt 20 "root" "secret-root"] rootDatabase
    (fun _ => rfl) plainEnv_hashpw_storable

/-- One attempt for an unknown name leaves no audit row. -/
theorem unknown_login_unaudited :
    ¬ ∀ s ∈ loginRun .lenient plainEnv [attemptAt 20 "nobody" "whatever12"] rootDatabase,
      s.Audited := by
  intro h
  obtain ⟨row,hrow,_⟩ := h _ (List.mem_singleton.mpr rfl)
  have hafter : ((attemptAt 20 "nobody" "whatever12").serve .lenient plainEnv
      rootDatabase).2.auditEvents = [] := by decide
  rw [hafter] at hrow
  simp at hrow

end WzonePortal
