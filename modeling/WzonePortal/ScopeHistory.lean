import WzonePortal.AccountRefinement

/-! The access scope of a user is the set that the history of successful requests gives. -/
namespace WzonePortal

/-- The set given by the successful requests of a history, listed newest first. -/
def granted (dbms : Dbms) (env : Env) (db : Database) (userId : UUID) : List Call → Finset UUID
  | [] => ∅
  | call::earlier =>
    let before := replay dbms env db earlier
    if call.succeeded dbms env before then
      (call.event env before).grants userId (granted dbms env db userId earlier)
    else granted dbms env db userId earlier

section
variable {dbms : Dbms} {env : Env} {db : Database}

theorem replay_wellFormed (h : db.WellFormed) (calls : List Call) :
    (replay dbms env db calls).WellFormed :=
  replay_invariant dbms env db Database.WellFormed h
    (fun call _ hdb => serve_wellFormed hdb env call) calls

/-- One call either is its event or changes no account. -/
theorem replay_cons_accounts (dbms : Dbms) (env : Env) (h : db.WellFormed) (call : Call)
    (earlier : List Call) :
    let before := replay dbms env db earlier
    let after := replay dbms env db (call::earlier)
    (call.succeeded dbms env before = true ∧ (call.event env before).Enabled before.accounts ∧
      after.accounts = (call.event env before).apply before.accounts) ∨
    (call.succeeded dbms env before = false ∧ after = before) := by
  intro before after
  cases hs : call.succeeded dbms env before with
  | true =>
    obtain ⟨r,hr⟩ := serve_of_succeeded hs
    exact .inl ⟨rfl,serve_refines (replay_wellFormed h earlier) hr⟩
  | false => exact .inr ⟨rfl,serve_of_not_succeeded hs⟩

theorem replay_adminsUnscoped (dbms : Dbms) (env : Env) (h : db.WellFormed)
    (h0 : AccountEvent.AdminsUnscoped db.accounts) (calls : List Call) :
    AccountEvent.AdminsUnscoped (replay dbms env db calls).accounts := by
  induction calls with
  | nil => exact h0
  | cons call earlier ih =>
    rcases replay_cons_accounts dbms env h call earlier with
      ⟨_,he,ha⟩ | ⟨_,ha⟩
    · rw [ha]
      exact AccountEvent.apply_adminsUnscoped ih he
    · rw [ha]
      exact ih

/-- The scope stored for an account is the granted set. -/
theorem scope_eq_granted (h : db.WellFormed)
    (h0 : ∀ u a, db.accounts u = some a → a.scope = ∅) (calls : List Call) :
    ∀ u a, (replay dbms env db calls).accounts u = some a →
      a.scope = granted dbms env db u calls := by
  induction calls with
  | nil => exact h0
  | cons call earlier ih =>
    intro u a ha
    rcases replay_cons_accounts dbms env h call earlier with ⟨hs,_,hafter⟩ | ⟨hs,hafter⟩
    · rw [hafter] at ha
      simp only [granted,hs,if_true]
      exact AccountEvent.apply_grants (ih u) ha
    · rw [hafter] at ha
      simp only [granted,hs,Bool.false_eq_true,if_false]
      exact ih u a ha

theorem Bootstrapped.accounts {admin : UUID} (h : Bootstrapped db admin) :
    ∀ u a, db.accounts u = some a → a.scope = ∅ := by
  intro u a ha
  obtain ⟨r,_,rfl⟩ := Option.map_eq_some_iff.mp ha
  simp [Database.scopesOf,h.scopes]

theorem reads_currentScope {c w : Database} (cookie : Cookie) (path : String) :
    Reads dbms c w (Deps.currentScope cookie path) (do
      let current ← Deps.currentUser cookie w
      let user ← Deps.getActiveUser path current
      .ok (Deps.accessScope user w)) := by
  refine (Deps.reads_getCurrentUser cookie).bind fun current _ => ?_
  refine (reads_liftExcept _).bind fun user _ => ?_
  exact Deps.reads_getAccessScope user

/-- A scope that was computed belongs to the active user that the token names. -/
theorem run_currentScope_ok {claims : TokenClaims} {path : String} {scope : AccessScope}
    {s : Session} (h : (Deps.currentScope (.valid claims) path).run (Session.exec dbms)
      (Session.fresh db) = (.ok scope,s)) :
    ∃ row, db.users.find? claims.sub = some row ∧ row.status = .active ∧
      scope = Deps.accessScope (UserRepository.toAuthenticated row) db := by
  have hreads := @reads_currentScope dbms db db (.valid claims) path
  cases hx : (do
      let current ← Deps.currentUser (.valid claims) db
      let user ← Deps.getActiveUser path current
      .ok (Deps.accessScope user db)) with
  | error e =>
    rw [hx] at hreads
    obtain ⟨t,ht,_⟩ := hreads
    rw [Session.fresh,ht] at h
    cases h
  | ok scope' =>
    rw [hx] at hreads
    unfold Reads at hreads
    rw [Session.fresh,hreads] at h
    cases h
    obtain ⟨current,hcurrent,hx⟩ := bind_eq_ok.mp hx
    obtain ⟨user,hactive,hx⟩ := bind_eq_ok.mp hx
    have hscope := Except.ok.inj hx
    obtain ⟨claims',row,hcookie,hrow,hs,rfl⟩ := Deps.currentUser_eq_ok.mp hcurrent
    cases hcookie
    have huser : user = UserRepository.toAuthenticated row := by
      unfold Deps.getActiveUser at hactive
      split at hactive <;> cases hactive
      rfl
    exact ⟨row,hrow,hs,by rw [← huser,hscope]⟩

end

/-- Administrators have no scope rows; the computed scope is unrestricted exactly for
administrators and is the granted set for everybody else; of the token, only the subject
matters. -/
structure ScopeFollows (dbms : Dbms) (env : Env) (db : Database) (calls : List Call) : Prop where
  admins : ∀ row ∈ (replay dbms env db calls).users.rows, row.role = .admin →
    ∀ s ∈ (replay dbms env db calls).userConnectionScopes.rows, s.userId ≠ row.userId
  computed : ∀ claims path scope s, (Deps.currentScope (.valid claims) path).run (Session.exec dbms)
      (Session.fresh (replay dbms env db calls)) = (.ok scope,s) →
    ∃ row, (replay dbms env db calls).users.find? claims.sub = some row ∧ row.status = .active ∧
      (scope.isUnrestricted = true ↔ row.role = .admin) ∧
      (row.role ≠ .admin →
        scope.allowedConnectionIds = some (granted dbms env db claims.sub calls))
  subject : ∀ claims claims' : TokenClaims, claims.sub = claims'.sub → ∀ path,
    (Deps.currentScope (.valid claims) path).run (Session.exec dbms)
        (Session.fresh (replay dbms env db calls)) =
      (Deps.currentScope (.valid claims') path).run (Session.exec dbms)
        (Session.fresh (replay dbms env db calls))

theorem access_scope_follows_history (dbms : Dbms) (env : Env) (db : Database) (admin : UUID)
    (hboot : Bootstrapped db admin) (calls : List Call) : ScopeFollows dbms env db calls := by
  have hwf := hboot.wellFormed
  refine ⟨?_,?_,?_⟩
  · intro row hrow hadmin s hs howner
    have hun := replay_adminsUnscoped dbms env hwf (fun u a ha _ => hboot.accounts u a ha) calls
    have hempty := hun row.userId _ (accounts_of_find (Table.find?_of_mem hrow)) hadmin
    have hmem : s.connectionId ∈
        ((replay dbms env db calls).scopesOf row.userId).toFinset := by
      simp only [Database.scopesOf,List.mem_toFinset,List.mem_map,List.mem_filter,
        decide_eq_true_eq]
      exact ⟨s,⟨hs,howner⟩,rfl⟩
    simp only at hempty
    rw [hempty] at hmem
    simp at hmem
  · intro claims path scope s hrun
    obtain ⟨row,hrow,hs,rfl⟩ := run_currentScope_ok hrun
    have hscope := scope_eq_granted hwf hboot.accounts calls claims.sub _ (accounts_of_find hrow)
    have hid : row.userId = claims.sub := Table.find?_key hrow
    refine ⟨row,hrow,hs,?_,fun hrole => ?_⟩
    · unfold Deps.accessScope
      split <;> exact buildScope_isUnrestricted _ _
    · have hrole' : (UserRepository.toAuthenticated row).role ≠ .admin := hrole
      simp only [Deps.accessScope,buildScope,if_neg hrole',← hscope]
      rw [← hid]
      rfl
  · intro claims claims' hsub path
    have hcookie : Deps.getCurrentUser (.valid claims) = Deps.getCurrentUser (.valid claims') := by
      simp only [Deps.getCurrentUser,hsub]
    unfold Deps.currentScope
    rw [hcookie]

/-- Connection 7 is created, `alice` registers and is approved with it in scope. -/
def aliceApproved : List Call :=
  [byRoot 30 (.approve 2 .operator [7,7]),registerAlice,
    ⟨contextOf 1 7 5,.createConnection ⟨"vc","10.0.0.9",443,"svc","pw",true,.vcenter,"https",
      none,none⟩⟩]

theorem access_scope_follows_history_alice :
    ScopeFollows .lenient plainEnv rootDatabase aliceApproved :=
  access_scope_follows_history .lenient plainEnv rootDatabase 1 rootDatabase_bootstrapped
    aliceApproved

/-- An account that was an administrator for a while has lost its scope. -/
example : granted .lenient plainEnv rootDatabase 2 aliceApproved = {7} ∧
    granted .lenient plainEnv rootDatabase 2
      (byRoot 50 (.changeRole 2 .viewer)::byRoot 40 (.changeRole 2 .admin)::aliceApproved) = ∅ := by
  decide

end WzonePortal
