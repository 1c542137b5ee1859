import WzonePortal.LoginTransaction

/-! The login lockout over a run of failing attempts on one account. Since no rejection is
committed, the account row never changes, and the lock is missing as soon as it is due. -/
namespace WzonePortal

open AuthService

def Settings.attemptLimit (s : Settings) : ℕ := s.maxFailedLoginAttempts.toNat

/-- Any `N` consecutive wrong passwords contain one after which the committed row is locked
for the lockout time, and no half-open window of that length sees more than `N` of them. -/
def LockoutHolds (env : Env) (username : String) (steps : List LoginStep) : Prop :=
  let wrong := steps.filter (·.comparesWrong env)
  let n := env.settings.attemptLimit
  (∀ k, k + n ≤ wrong.length → ∃ s ∈ (wrong.drop k).take n,
    ∀ t, s.attempt.ctx.now ≤ t → t < s.attempt.ctx.now + env.settings.lockout →
      s.LockedAt username t) ∧
  ∀ t, (wrong.filter fun s =>
    t ≤ s.attempt.ctx.now ∧ s.attempt.ctx.now < t + env.settings.lockout).length ≤ n

/-- The attempts that find the stored row unlocked and bring a wrong password. -/
def wrongAttempts (env : Env) (row : UserRow) (attempts : List LoginAttempt) : List LoginAttempt :=
  attempts.filter fun a => !isLocked row a.ctx.now && !(a.verdict env row).1

section
variable {dbms : Dbms} {env : Env} {db : Database} {row : UserRow} {username : String}
  {attempts : List LoginAttempt}

theorem serve_failing {a : LoginAttempt} {x : Except Exc (String × UserResponse)} {db' : Database}
    (h : a.serve dbms env db = (x,db')) (hx : ∀ r, x ≠ .ok r) : db' = db := by
  by_cases ha : a.Accepted env db
  · obtain ⟨row,hrow,hl,hv,hs⟩ := ha
    have hnone : a.rejection env row = none :=
      rejection_eq_none.mpr ⟨hl,hv,by simpa [loginAllowed] using hs⟩
    obtain ⟨r,hr⟩ := login_accepted dbms hrow hnone
    rw [h] at hr
    split at hr
    · exact congrArg Prod.snd hr
    · split at hr
      · exact absurd (congrArg Prod.fst hr) (hx r)
      · exact congrArg Prod.snd hr
  · obtain ⟨e,he⟩ := login_not_accepted dbms ha
    rw [h] at he
    exact congrArg Prod.snd he

/-- Along a run without success every step starts and ends in the first database. -/
theorem failing_run_constant
    (hfail : ∀ s ∈ loginRun dbms env attempts db, s.succeeded = false) :
    ∀ s ∈ loginRun dbms env attempts db, s.before = db ∧ s.after = db := by
  induction attempts with
  | nil => intro s hs; cases hs
  | cons a rest ih =>
    have hstay : (a.serve dbms env db).2 = db := by
      refine serve_failing rfl fun r hr => ?_
      have hr : (a.serve dbms env db).1 = .ok r := hr
      have hs := hfail _ List.mem_cons_self
      simp [LoginStep.succeeded,hr] at hs
    intro s hs
    rcases List.mem_cons.mp hs with rfl | hm
    · exact ⟨rfl,hstay⟩
    · rw [hstay] at hm
      refine ih (fun q hq => hfail q (List.mem_cons_of_mem _ ?_)) s hm
      rw [hstay]
      exact hq

theorem loginRun_attempts (dbms : Dbms) (env : Env) (attempts : List LoginAttempt)
    (db : Database) : (loginRun dbms env attempts db).map (·.attempt) = attempts := by
  induction attempts generalizing db with
  | nil => rfl
  | cons a rest ih => simp [loginRun,ih]

/-- On a run without success, the comparisons are those that the first row calls for. -/
theorem wrong_steps_length (hname : ∀ a ∈ attempts, normalize env a.username = username)
    (hrow : (Query.userByUsername username).eval db = .ok (some row))
    (hfail : ∀ s ∈ loginRun dbms env attempts db, s.succeeded = false) :
    ((loginRun dbms env attempts db).filter (·.comparesWrong env)).map (·.attempt) =
      wrongAttempts env row attempts := by
  have hsame : ∀ s ∈ loginRun dbms env attempts db, s.comparesWrong env =
      (!isLocked row s.attempt.ctx.now && !(s.attempt.verdict env row).1) := by
    intro s hs
    have hmem : s.attempt ∈ attempts := by
      rw [← loginRun_attempts dbms env attempts db]
      exact List.mem_map_of_mem hs
    have hl : s.attempt.lookup env s.before = .ok (some row) := by
      rw [(failing_run_constant hfail s hs).1,LoginAttempt.lookup,hname _ hmem]
      exact hrow
    simp [LoginStep.comparesWrong,hl]
  rw [List.filter_congr hsame,wrongAttempts]
  conv_rhs => rw [← loginRun_attempts dbms env attempts db]
  rw [List.filter_map]
  rfl

theorem eval_userByUsername_some (hrow : (Query.userByUsername username).eval db = .ok (some row)) :
    (db.users.rows.find? fun r => r.username = username) = some row := by
  simp only [Query.eval] at hrow
  split at hrow
  · exact Except.ok.inj hrow
  · cases hrow

theorem wrong_step_not_locked (hname : ∀ a ∈ attempts, normalize env a.username = username)
    (hrow : (Query.userByUsername username).eval db = .ok (some row))
    (hfail : ∀ s ∈ loginRun dbms env attempts db, s.succeeded = false) {s : LoginStep}
    (hs : s ∈ (loginRun dbms env attempts db).filter (·.comparesWrong env)) :
    ¬ s.LockedAt username s.attempt.ctx.now := by
  rintro ⟨found,hfound,hlocked⟩
  obtain ⟨hmem,hwrong⟩ := List.mem_filter.mp hs
  rw [(failing_run_constant hfail s hmem).2,eval_userByUsername_some hrow] at hfound
  cases hfound
  have hattempt : s.attempt ∈ wrongAttempts env row attempts := by
    rw [← wrong_steps_length hname hrow hfail]
    exact List.mem_map_of_mem hs
  have hunlocked := (List.mem_filter.mp hattempt).2
  simp [hlocked] at hunlocked

theorem lockoutHolds_of_few {env : Env} {steps : List LoginStep}
    (h : (steps.filter (·.comparesWrong env)).length < env.settings.attemptLimit) :
    LockoutHolds env username steps := by
  constructor
  · intro k hk
    omega
  · intro t
    have hle := List.length_filter_le (fun s : LoginStep =>
      decide (t ≤ s.attempt.ctx.now ∧ s.attempt.ctx.now < t + env.settings.lockout))
      (steps.filter (·.comparesWrong env))
    omega

theorem lockoutHolds_of_no_lockout {env : Env} {steps : List LoginStep}
    (hn : 1 ≤ env.settings.maxFailedLoginAttempts) (h : env.settings.lockout ≤ 0) :
    LockoutHolds env username steps := by
  have hlimit : 1 ≤ env.settings.attemptLimit := by
    unfold Settings.attemptLimit
    omega
  constructor
  · intro k hk
    have hlt : k < (steps.filter (·.comparesWrong env)).length := by omega
    refine ⟨(steps.filter (·.comparesWrong env))[k],?_,?_⟩
    · rw [List.drop_eq_getElem_cons hlt]
      obtain ⟨m,hm⟩ := Nat.exists_eq_add_of_le' hlimit
      rw [hm,List.take_succ_cons]
      exact List.mem_cons_self
    · intro t h1 h2
      linarith
  · intro t
    have hempty : ∀ s ∈ steps.filter (·.comparesWrong env), ¬ (decide
        (t ≤ s.attempt.ctx.now ∧ s.attempt.ctx.now < t + env.settings.lockout)) = true := by
      intro s _ hs
      have hwindow := of_decide_eq_true hs
      linarith
    rw [List.filter_eq_nil_iff.mpr hempty]
    simp

end

/-- On an existing account and a run without success, the lockout holds exactly when the
lock never becomes due: fewer than `N` attempts bring a wrong password to the unlocked
account, or the lockout time is empty. -/
theorem lockout_iff_never_due (dbms : Dbms) (env : Env) (db : Database) (row : UserRow)
    (username : String) (attempts : List LoginAttempt)
    (hn : 1 ≤ env.settings.maxFailedLoginAttempts)
    (hname : ∀ a ∈ attempts, normalize env a.username = username)
    (hrow : (Query.userByUsername username).eval db = .ok (some row))
    (hfail : ∀ s ∈ loginRun dbms env attempts db, s.succeeded = false) :
    LockoutHolds env username (loginRun dbms env attempts db) ↔
      env.settings.lockout ≤ 0 ∨
        (wrongAttempts env row attempts).length < env.settings.attemptLimit := by
  have hlength : ((loginRun dbms env attempts db).filter (·.comparesWrong env)).length =
      (wrongAttempts env row attempts).length := by
    rw [← wrong_steps_length hname hrow hfail,List.length_map]
  constructor
  · intro h
    by_contra hc
    simp only [not_or,not_le,not_lt] at hc
    obtain ⟨s,hs,hlocked⟩ := h.1 0 (by omega)
    have hmem : s ∈ (loginRun dbms env attempts db).filter (·.comparesWrong env) :=
      List.mem_of_mem_drop (List.mem_of_mem_take hs)
    exact wrong_step_not_locked hname hrow hfail hmem (hlocked _ (le_refl _) (by linarith))
  · rintro (h | h)
    · exact lockoutHolds_of_no_lockout hn h
    · exact lockoutHolds_of_few (by omega)

/-- Six wrong passwords, one second apart, with the default limit of five. -/
def sixAttempts : List LoginAttempt :=
  (List.range 6).map fun i => attemptAt (i*1000000) "root" "wrong-password"

/-- Four of them leave the account open, the fifth makes a lock due. -/
theorem lockout_iff_never_due_root :
    LockoutHolds plainEnv "root" (loginRun .lenient plainEnv (sixAttempts.take 4) rootDatabase) ∧
      ¬ LockoutHolds plainEnv "root" (loginRun .lenient plainEnv (sixAttempts.take 5)
        rootDatabase) := by
  constructor
  · rw [lockout_iff_never_due .lenient plainEnv rootDatabase root "root" (sixAttempts.take 4)
      (by decide) (by decide) rfl (by decide)]
    decide
  · rw [lockout_iff_never_due .lenient plainEnv rootDatabase root "root" (sixAttempts.take 5)
      (by decide) (by decide) rfl (by decide)]
    decide

/-- No attempt succeeds and all six passwords are compared within a few seconds. -/
theorem six_wrong_passwords_compared :
    (∀ s ∈ loginRun .lenient plainEnv sixAttempts rootDatabase, s.succeeded = false) ∧
      ¬ LockoutHolds plainEnv "root" (loginRun .lenient plainEnv sixAttempts rootDatabase) := by
  refine ⟨by decide,fun h => ?_⟩
  have hwindow := h.2 0
  revert hwindow
  decide

end WzonePortal
