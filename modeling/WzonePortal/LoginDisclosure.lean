import WzonePortal.LoginTransaction

/-! What a sequence of wrong passwords tells about an account, when the writes of every
call are kept. A missing name always gets the generic answer; an existing one gets it until
an attempt falls into a lock, and the lock has a message of its own. -/
namespace WzonePortal

open UserRepository AuthService

/-- One call on a fixed name. -/
structure Guess where
  ctx : Context
  password : String

def Guess.attempt (g : Guess) (username : String) : LoginAttempt := ⟨g.ctx,username,g.password⟩

/-- The outcome of one service call, and the database with everything it has flushed. -/
def LoginAttempt.kept (dbms : Dbms) (env : Env) (a : LoginAttempt) (db : Database) :
    Except Exc (String × AuthenticatedUser) × Database :=
  let r := (AuthService.login env a.ctx a.username a.password).run (Session.exec dbms)
    (Session.fresh db)
  (r.1,r.2.working)

def keptOutcomes (dbms : Dbms) (env : Env) (username : String) :
    List Guess → Database → List (Except Exc (String × AuthenticatedUser))
  | [], _ => []
  | g::rest, db =>
    ((g.attempt username).kept dbms env db).1::
      keptOutcomes dbms env username rest ((g.attempt username).kept dbms env db).2

/-- No attempt falls into a lock: neither the stored one nor one that the attempts complete. -/
def neverLocked (settings : Settings) : ℤ → Option Timestamp → List Timestamp → Bool
  | _, _, [] => true
  | failures, lockedUntil, now::later =>
    lockedUntil.all (· ≤ now) &&
      if settings.maxFailedLoginAttempts ≤ failures + 1 then
        neverLocked settings 0 (some (now + settings.lockout)) later
      else neverLocked settings (failures + 1) lockedUntil later

section
variable {dbms : Dbms} {db : Database} {env : Env} {row : UserRow} {username : String}

theorem isLocked_eq (row : UserRow) (now : Timestamp) :
    isLocked row now = !row.lockedUntil.all (· ≤ now) := by
  unfold isLocked
  cases row.lockedUntil with
  | none => rfl
  | some t => simp only [Option.all_some,← decide_not,not_le]

theorem lookup_patchUser (h : (db.users.rows.find? fun r => r.username = username) = some row)
    (p : UserPatch) :
    ((db.patchUser row.userId p).users.rows.find? fun r => r.username = username) =
      some (p.apply row) := by
  simp only [Database.patchUser,Table.modify,Table.modifyWhere,List.find?_map]
  have hsame : ((fun r : UserRow => decide (r.username = username)) ∘
      fun r => if decide (r.userId = row.userId) = true then p.apply r else r) =
      fun r => decide (r.username = username) := by
    funext r
    by_cases hr : r.userId = row.userId <;> simp [hr]
  rw [hsame,h]
  simp

theorem run_auditFailure_throw {c w : Database} {ctx : Context} {α : Type}
    (haudit : ∀ r, r.action = .login → dbms.acceptsAudit r = true) (reason : String) (e : Exc) :
    ∃ r, (auditFailure env ctx username reason >>= fun _ => (throw e : Service α)).run
      (Session.exec dbms) ⟨c,w,false⟩ = (.error e,⟨c,w.addAudit r,false⟩) := by
  refine ⟨AuditRepository.eventRow ctx.now (failureEvent env ctx username reason),?_⟩
  rw [auditFailure,Script.run_bind_of_ok _ (run_record ctx.now _),haudit _ rfl]
  rfl

theorem kept_existing (haudit : ∀ r, r.action = .login → dbms.acceptsAudit r = true)
    (hname : storable (normalize env username) = true)
    (hrow : (db.users.rows.find? fun r => r.username = normalize env username) = some row)
    (g : Guess) (hwrong : (verifyPassword env g.ctx g.password row.passwordHash).1 = false) :
    ∃ r, (g.attempt username).kept dbms env db =
      if isLocked row g.ctx.now then (.error (.authentication lockedMessage),db.addAudit r)
      else (.error (.authentication genericFailure),
        (db.patchUser row.userId (failurePatch g.ctx.now env.settings row)).addAudit r) := by
  have hlookup : (g.attempt username).lookup env db = .ok (some row) := by
    simp only [LoginAttempt.lookup,Guess.attempt,Query.eval,hname,if_true]
    exact congrArg Except.ok hrow
  have hfind : (findRowByUsername (normalize env username)).run (Session.exec dbms)
      (Session.fresh db) = (.ok (some row),⟨db,db,false⟩) := run_findRow hlookup
  unfold LoginAttempt.kept Guess.attempt AuthService.login
  simp only [Script.run_bind_of_ok _ hfind,hwrong]
  by_cases hl : isLocked row g.ctx.now = true
  · obtain ⟨r,hr⟩ := @run_auditFailure_throw dbms env (normalize env username) db db g.ctx
      (String × AuthenticatedUser) haudit "locked" (.authentication lockedMessage)
    refine ⟨r,?_⟩
    simp only [hl,if_true,hr]
  · obtain ⟨r,hr⟩ := @run_auditFailure_throw dbms env (normalize env username) db
      (db.patchUser row.userId (failurePatch g.ctx.now env.settings row)) g.ctx
      (String × AuthenticatedUser) haudit "invalid_credentials" (.authentication genericFailure)
    refine ⟨r,?_⟩
    simp only [hl,if_false,Bool.false_eq_true,Bool.not_false,if_true,
      Script.run_bind_of_ok _ (run_registerFailure (lookup_mem hlookup)),hr]

theorem kept_missing (haudit : ∀ r, r.action = .login → dbms.acceptsAudit r = true)
    (hmissing : ∀ r ∈ db.users.rows, r.username ≠ normalize env username) (g : Guess) :
    ((g.attempt username).kept dbms env db).1 =
        .error (if storable (normalize env username) then .authentication genericFailure
          else .dataError) ∧
      ((g.attempt username).kept dbms env db).2.users = db.users := by
  have hnone : (db.users.rows.find? fun r => r.username = normalize env username) = none := by
    simpa using hmissing
  have hrun := @Session.run_ask dbms db db (.userByUsername (normalize env username))
  unfold LoginAttempt.kept Guess.attempt AuthService.login findRowByUsername
  simp only [Query.eval,hnone] at hrun
  cases hs : storable (normalize env username) with
  | true =>
    simp only [hs,if_true] at hrun
    obtain ⟨r,hr⟩ := @run_auditFailure_throw dbms env (normalize env username) db db g.ctx
      (String × AuthenticatedUser) haudit "invalid_credentials" (.authentication genericFailure)
    simp only [Session.fresh,Script.run_bind_of_ok _ hrun,hr,if_true]
    exact ⟨trivial,rfl⟩
  | false =>
    simp only [hs,Bool.false_eq_true,if_false] at hrun
    simp only [Session.fresh,Script.run_bind_of_error _ hrun,Bool.false_eq_true,if_false]
    exact ⟨trivial,trivial⟩

theorem keptOutcomes_missing (haudit : ∀ r, r.action = .login → dbms.acceptsAudit r = true)
    (hmissing : ∀ r ∈ db.users.rows, r.username ≠ normalize env username)
    (guesses : List Guess) :
    keptOutcomes dbms env username guesses db = guesses.map fun _ =>
      .error (if storable (normalize env username) then .authentication genericFailure
        else .dataError) := by
  induction guesses generalizing db with
  | nil => rfl
  | cons g rest ih =>
    obtain ⟨houtcome,husers⟩ := kept_missing haudit hmissing g
    rw [keptOutcomes,List.map_cons,houtcome]
    rw [ih fun r hr => hmissing r (by rwa [husers] at hr)]

/-- Every answer about an account is the generic one exactly when no attempt falls into a
lock: the counter and the lock of the row follow `neverLocked`. -/
theorem keptOutcomes_existing (haudit : ∀ r, r.action = .login → dbms.acceptsAudit r = true)
    (hname : storable (normalize env username) = true) (guesses : List Guess)
    (hrow : (db.users.rows.find? fun r => r.username = normalize env username) = some row)
    (hwrong : ∀ g ∈ guesses, (verifyPassword env g.ctx g.password row.passwordHash).1 = false) :
    (keptOutcomes dbms env username guesses db =
        guesses.map fun _ => .error (.authentication genericFailure)) ↔
      neverLocked env.settings row.failedLoginCount row.lockedUntil
        (guesses.map (·.ctx.now)) = true := by
  induction guesses generalizing db row with
  | nil => simp [keptOutcomes,neverLocked]
  | cons g rest ih =>
    obtain ⟨r,hkept⟩ := kept_existing haudit hname hrow g (hwrong g List.mem_cons_self)
    simp only [keptOutcomes,List.map_cons,List.cons.injEq,hkept,neverLocked,Bool.and_eq_true]
    by_cases hl : isLocked row g.ctx.now = true
    · have hall : row.lockedUntil.all (· ≤ g.ctx.now) = false := by
        simpa [isLocked_eq] using hl
      simp [hl,hall,lockedMessage,genericFailure]
    · have hall : row.lockedUntil.all (· ≤ g.ctx.now) = true := by
        simpa [isLocked_eq] using hl
      simp only [hl,if_false,Bool.false_eq_true,true_and,hall]
      have hnext := lookup_patchUser hrow (failurePatch g.ctx.now env.settings row)
      have hhash : ((failurePatch g.ctx.now env.settings row).apply row).passwordHash =
          row.passwordHash := by
        unfold failurePatch
        split <;> rfl
      have hrest : ∀ q ∈ rest, (verifyPassword env q.ctx q.password
          ((failurePatch g.ctx.now env.settings row).apply row).passwordHash).1 = false := by
        rw [hhash]
        exact fun q hq => hwrong q (List.mem_cons_of_mem g hq)
      have htail := @ih ((db.patchUser row.userId
        (failurePatch g.ctx.now env.settings row)).addAudit r) _ hnext hrest
      rw [htail]
      unfold failurePatch
      split <;> rfl

end

/-- Wrong passwords tell an existing account from a missing one unless no attempt falls into
a lock of the account and the missing name is a text that the database can be asked for. -/
theorem same_outcomes_iff_neverLocked (dbms : Dbms) (env : Env) (db db' : Database) (row : UserRow)
    (existing missing : String) (guesses : List Guess)
    (haudit : ∀ r, r.action = .login → dbms.acceptsAudit r = true)
    (hrow : (Query.userByUsername (normalize env existing)).eval db = .ok (some row))
    (hmissing : ∀ r ∈ db'.users.rows, r.username ≠ normalize env missing)
    (hwrong : ∀ g ∈ guesses, (verifyPassword env g.ctx g.password row.passwordHash).1 = false) :
    keptOutcomes dbms env existing guesses db = keptOutcomes dbms env missing guesses db' ↔
      neverLocked env.settings row.failedLoginCount row.lockedUntil
          (guesses.map (·.ctx.now)) = true ∧
        (guesses = [] ∨ storable (normalize env missing) = true) := by
  have hname : storable (normalize env existing) = true := by
    by_contra hn
    simp [Query.eval,hn] at hrow
  have hfind : (db.users.rows.find? fun r => r.username = normalize env existing) = some row := by
    simp only [Query.eval,hname,if_true] at hrow
    exact Except.ok.inj hrow
  rw [keptOutcomes_missing haudit hmissing]
  cases hs : storable (normalize env missing) with
  | true =>
    simp only [if_true,or_true,and_true]
    exact keptOutcomes_existing haudit hname guesses hfind hwrong
  | false =>
    cases guesses with
    | nil => simp [keptOutcomes,neverLocked]
    | cons g rest =>
      obtain ⟨r,hkept⟩ := kept_existing haudit hname hfind g (hwrong g List.mem_cons_self)
      have hhead : ((g.attempt existing).kept dbms env db).1 ≠ .error .dataError := by
        rw [hkept]
        split <;> simp
      simp [keptOutcomes,hhead]

/-- A wrong password of a fresh client at time `now`. -/
def guessAt (now : Timestamp) : Guess := ⟨contextOf 0 0 now,"wrong-password"⟩

/-- The fifth guess completes a lock; a sixth one tells nothing when the lock has run out, and the
account a second before. -/
theorem same_outcomes_iff_neverLocked_root :
    let guesses (now : Timestamp) := ((List.range 5).map fun i => guessAt (i*1000000)) ++
      [guessAt now]
    keptOutcomes .lenient plainEnv "root" (guesses 904000000) rootDatabase =
        keptOutcomes .lenient plainEnv "nobody" (guesses 904000000) rootDatabase ∧
      keptOutcomes .lenient plainEnv "root" (guesses 903000000) rootDatabase ≠
        keptOutcomes .lenient plainEnv "nobody" (guesses 903000000) rootDatabase := by
  intro guesses
  constructor
  · exact (same_outcomes_iff_neverLocked .lenient plainEnv rootDatabase rootDatabase root "root"
      "nobody" (guesses 904000000) (fun _ _ => rfl) rfl (by decide) (by decide)).mpr (by decide)
  · rw [ne_eq,same_outcomes_iff_neverLocked .lenient plainEnv rootDatabase rootDatabase root "root"
      "nobody" (guesses 903000000) (fun _ _ => rfl) rfl (by decide) (by decide)]
    decide

/-- Six wrong passwords within five seconds: the sixth answer names the lock of `root`. -/
theorem sixth_guess_reveals_account :
    let guesses := (List.range 6).map fun i => guessAt (i*1000000)
    (∀ g ∈ guesses, (verifyPassword plainEnv g.ctx g.password root.passwordHash).1 = false) ∧
      (Query.userByUsername "root").eval rootDatabase = .ok (some root) ∧
      (∀ r ∈ rootDatabase.users.rows, r.username ≠ "nobody") ∧
      keptOutcomes .lenient plainEnv "root" guesses rootDatabase ≠
        keptOutcomes .lenient plainEnv "nobody" guesses rootDatabase := by
  refine ⟨by decide,rfl,by decide,by decide⟩

end WzonePortal
