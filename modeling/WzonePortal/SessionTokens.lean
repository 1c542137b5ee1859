import WzonePortal.ChainOfTrust
import WzonePortal.TemporaryPassword
import WzonePortal.Tokens

/-! A session follows its account. Whatever other sessions do between the login and a later
request, the cookie of the login is served for the account as it is then: the token holds
neither its role nor its status. -/
namespace WzonePortal

open Transaction ReadCommitted UserRepository

/-- A handler leaves the rollback to its session. -/
def Handled (o : Stmt) (_ : Transaction) : Prop := o ≠ .rollback

section
variable {dbms : Dbms} {tx : Transaction} {row : UserRow} {α β : Type}

theorem keeps_handled (o : Stmt) (db : Database) (tx : Transaction) (ho : Handled o tx)
    (h : Keeps row tx) : Keeps row (exec dbms o db tx).2.2 := by
  cases o with
  | query q =>
    rcases h with h | h
    · left
      simp only [exec,execQuery,h,if_true]
    · simp only [exec,execQuery]
      split
      · exact .inr h
      · split
        · exact .inr h
        · split
          · exact .inr (read_remember tx q _ h)
          · exact .inl rfl
  | write w => exact keeps_flushing (.write w) db tx trivial h
  | commit =>
    rcases h with h | h
    · left
      simp only [exec,execCommit,h,if_true]
    · simp only [exec,execCommit]
      split
      · exact .inr h
      · split
        · exact .inr h
        · exact .inl rfl
  | rollback => exact absurd rfl ho

theorem wp_keeping {p : Service α} {Q : Except Exc α → Transaction → Prop}
    (h : p.wp (exec dbms) Handled Q tx) (hkeeps : Keeps row tx) :
    p.wp (exec dbms) Handled (fun r tx => Q r tx ∧ Keeps row tx) tx :=
  Script.wp_contract (Script.wp_invariant h (J:=Keeps row)
    (fun o db tx ho hk => keeps_handled o db tx ho hk) hkeeps) fun _ _ ho => ho.1

theorem wp_handled_ask (q : Query) :
    (ask q).wp (exec dbms) Handled (fun _ _ => True) tx :=
  Script.wp_perform (fun h => by cases h) fun _ => trivial

theorem wp_handled_flush (w : Write) :
    (flush w).wp (exec dbms) Handled (fun _ _ => True) tx :=
  Script.wp_perform (fun h => by cases h) fun _ => trivial

theorem wp_handled_commit : commit.wp (exec dbms) Handled (fun _ _ => True) tx :=
  Script.wp_perform (fun h => by cases h) fun _ => trivial

theorem wp_handled_assign (userId : UUID) (patch : UserRow → UserPatch) :
    (assign userId patch).wp (exec dbms) Handled (fun _ _ => True) tx := by
  refine Script.wp_bind (wp_handled_ask _) (fun found tx _ => ?_) fun _ _ _ => trivial
  cases found with
  | none => trivial
  | some row => exact wp_handled_flush _

theorem wp_handled_record (now : Timestamp) (event : AuditEvent) :
    (AuditRepository.record now event).wp (exec dbms) Handled (fun _ _ => True) tx :=
  Script.wp_tryCatch (wp_handled_flush _) (fun _ _ _ => trivial) fun _ _ _ => trivial

theorem wp_after {p : Service β} {f : β → Service α} {φ : α → Prop}
    (hp : p.wp (exec dbms) Handled (fun _ _ => True) tx)
    (hf : ∀ b tx, (f b).wp (exec dbms) Handled (fun r _ => ∀ a, r = .ok a → φ a) tx) :
    (p >>= f).wp (exec dbms) Handled (fun r _ => ∀ a, r = .ok a → φ a) tx :=
  Script.wp_bind hp (fun b tx _ => hf b tx) fun _ _ _ _ h => by cases h

theorem wp_returns {a : α} {φ : α → Prop} (h : φ a) (tx : Transaction) :
    (pure a : Service α).wp (exec dbms) Handled (fun r _ => ∀ a, r = .ok a → φ a) tx := by
  intro b hb
  cases hb
  exact h

theorem wp_throws {φ : α → Prop} (e : Exc) (tx : Transaction) :
    (throw e : Service α).wp (exec dbms) Handled (fun r _ => ∀ a, r = .ok a → φ a) tx := by
  intro a ha
  cases ha

theorem wp_refuses {p : Service Unit} {e : Exc} {φ : α → Prop}
    (hp : p.wp (exec dbms) Handled (fun _ _ => True) tx) :
    (p >>= fun _ => throw e : Service α).wp (exec dbms) Handled
      (fun r _ => ∀ a, r = .ok a → φ a) tx :=
  wp_after hp fun _ tx => wp_throws e tx

end

section
variable {dbms : Dbms} {env : Env} {ctx : Context}

/-- A login that succeeds signs in the account that it has found by name. -/
theorem wp_signingIn (username password : String) :
    (AuthService.login env ctx username password).wp (exec dbms) Handled (fun r tx =>
      ∀ signedIn, r = .ok signedIn → ∃ row, Keeps row tx ∧ signedIn =
        (env.createAccessToken (toAuthenticated row) env.settings ctx.now,toAuthenticated row))
      {} := by
  refine Script.wp_bind (R:=fun (r : Except Exc (Option UserRow)) tx =>
      ∀ row, r = .ok (some row) → Keeps row tx)
    (Script.wp_perform (fun h => by cases h) fun db => ?_) (fun found tx ht => ?_)
    fun _ _ _ _ h => by cases h
  · intro row
    have hreading : Reading {} := ⟨rfl,rfl,rfl⟩
    simp only [exec,execQuery_of_reading hreading,cached]
    cases (Query.userByUsername (AuthService.normalize env username)).eval db with
    | error e => exact fun h => by cases h
    | ok found =>
      cases found with
      | none => exact fun h => by cases h
      | some r =>
        intro h
        cases h
        exact .inr (List.mem_singleton.mpr rfl)
  · cases found with
    | none =>
      exact Script.wp_mono (wp_refuses (φ:=fun _ => False) (wp_handled_record _ _))
        fun _ _ h signedIn hr => (h signedIn hr).elim
    | some row =>
      refine Script.wp_mono (wp_keeping (Q:=fun r _ => ∀ signedIn, r = .ok signedIn →
        signedIn = (env.createAccessToken (toAuthenticated row) env.settings ctx.now,
          toAuthenticated row)) ?_ (ht row rfl)) fun r tx h signedIn hr => ⟨row,h.2,h.1 signedIn hr⟩
      dsimp only
      by_cases hlocked : AuthService.isLocked row ctx.now = true
      · rw [if_pos hlocked]
        exact wp_refuses (wp_handled_record _ _)
      rw [if_neg hlocked]
      by_cases hwrong : (!(verifyPassword env ctx password row.passwordHash).1) = true
      · rw [if_pos hwrong]
        exact wp_after (wp_handled_assign _ _) fun _ _ => wp_refuses (wp_handled_record _ _)
      rw [if_neg hwrong]
      by_cases hstatus : row.status ∉ loginAllowed
      · rw [if_pos hstatus]
        refine wp_after (wp_handled_record _ _) fun _ tx => ?_
        cases statusMessage row.status with
        | some message => exact wp_throws _ tx
        | none => exact wp_throws _ tx
      rw [if_neg hstatus]
      have hsign : ∀ tx, (do
          resetFailures ctx.now row.userId
          AuditRepository.record ctx.now
            (AuthService.selfEvent env ctx .login (toAuthenticated row))
          pure (env.createAccessToken (toAuthenticated row) env.settings ctx.now,
            toAuthenticated row) : Service (String × AuthenticatedUser)).wp (exec dbms) Handled
          (fun r _ => ∀ signedIn, r = .ok signedIn → signedIn =
            (env.createAccessToken (toAuthenticated row) env.settings ctx.now,
              toAuthenticated row)) tx := fun tx =>
        wp_after (wp_handled_assign _ _) fun _ _ =>
          wp_after (wp_handled_record _ _) fun _ tx => wp_returns (φ:=fun a => a = _) rfl tx
      cases (verifyPassword env ctx password row.passwordHash).2 with
      | none => exact hsign tx
      | some newHash => exact wp_after (wp_handled_assign _ _) fun _ tx => hsign tx

theorem wp_loginRoute_issues (username password : String) :
    (Routes.login env ctx username password).wp (exec dbms) Handled (fun r tx =>
      ∀ answer, r = .ok answer → ∃ row, Keeps row tx ∧ answer.2.userId = row.userId ∧ answer.1 =
        env.createAccessToken (toAuthenticated row) env.settings ctx.now) {} := by
  refine Script.wp_bind (wp_signingIn username password) (fun signedIn tx hsigned => ?_)
    fun _ _ _ _ h => by cases h
  obtain ⟨row,hkeeps,rfl⟩ := hsigned _ rfl
  refine Script.wp_mono (wp_keeping (Q:=fun r _ => ∀ answer, r = .ok answer →
    answer.2.userId = row.userId ∧ answer.1 = env.createAccessToken (toAuthenticated row)
      env.settings ctx.now) ?_ hkeeps) fun r tx h answer hr => ⟨row,h.2,h.1 answer hr⟩
  refine wp_after wp_handled_commit fun _ _ => wp_after (wp_handled_ask _) fun found tx => ?_
  by_cases hr : (toAuthenticated row).role = .admin
  · rw [if_pos hr]
    exact wp_returns ⟨rfl,rfl⟩ tx
  · rw [if_neg hr]
    exact wp_after (wp_handled_ask _) fun ids tx => wp_returns ⟨rfl,rfl⟩ tx

/-- A session cookie is for an account that the call has read. -/
def PortalCall.Issued (env : Env) (call : PortalCall) (r : Except Exc PortalAnswer)
    (tx : Transaction) : Prop :=
  ∀ token user, r = .ok (.session token user) → ∃ row ∈ tx.read, user.userId = row.userId ∧
    token = env.createAccessToken (toAuthenticated row) env.settings call.ctx.now

theorem wp_true {α : Type} (p : Service α) (tx : Transaction) :
    p.wp (exec dbms) (fun _ _ => True) (fun _ _ => True) tx := by
  induction p generalizing tx with
  | ret a => trivial
  | raise e => trivial
  | call o next ih => exact ⟨trivial,fun s => ih _ _⟩

theorem wp_portalCall_issued (call : PortalCall) :
    (call.script env).wp (exec dbms) (fun _ _ => True) (call.Issued env) {} := by
  have hother : ∀ {β : Type} (p : Service β) (f : β → PortalAnswer),
      (∀ b token user, f b ≠ .session token user) →
      (getDb (p >>= fun b => pure (f b))).wp (exec dbms) (fun _ _ => True) (call.Issued env)
        {} := by
    intro β p f hf
    refine Script.wp_tryCatch (R:=call.Issued env) ?_ (fun _ _ h => h) fun e tx _ => ?_
    · refine Script.wp_bind (R:=fun r _ => ∀ answer, r = .ok answer → ∃ b, answer = f b) ?_
        (fun answer tx h => ?_) fun _ _ _ _ _ h => by cases h
      · exact Script.wp_bind (wp_true p _) (fun b tx _ _ h => ⟨b,by cases h; rfl⟩)
          fun _ _ _ _ h => by cases h
      · obtain ⟨b,rfl⟩ := h answer rfl
        refine Script.wp_bind (wp_true commit tx) (fun _ tx _ token user h => ?_)
          fun _ _ _ _ _ h => by cases h
        exact absurd (Except.ok.inj h) (hf b token user)
    · exact Script.wp_bind (wp_true rollback tx) (fun _ _ _ _ _ h => by cases h)
        fun _ _ _ _ _ h => by cases h
  rcases call with ⟨ctx,req⟩
  cases req with
  | request req => exact hother _ _ fun _ _ _ h => by cases h
  | logout => exact hother _ _ fun _ _ _ h => by cases h
  | testConnection payload check => exact hother _ _ fun _ _ _ h => by cases h
  | login username password =>
    refine Script.wp_tryCatch (R:=(PortalCall.mk ctx (.login username password)).Issued env) ?_
      (fun _ _ h => h) fun e tx _ => ?_
    · refine Script.wp_bind (R:=fun r tx => ∀ token user, r = .ok (.session token user) →
        ∃ row, Keeps row tx ∧ user.userId = row.userId ∧
          token = env.createAccessToken (toAuthenticated row) env.settings ctx.now) ?_
        (fun answer tx h => ?_) fun _ _ _ _ _ h => by cases h
      · refine Script.wp_bind (Script.wp_contract (wp_loginRoute_issues username password)
          fun _ _ _ => trivial) (fun answer tx h token user hr => ?_) fun _ _ _ _ _ h => by cases h
        cases hr
        exact h _ rfl
      · refine Script.wp_seq (Script.wp_perform trivial fun db => ?_)
        simp only [exec,execCommit]
        by_cases hinactive : tx.inactive = true
        · rw [if_pos hinactive]
          exact fun _ _ hr => by cases hr
        · rw [if_neg hinactive]
          cases Write.applyAll dbms tx.pending db with
          | error e => exact fun _ _ hr => by cases hr
          | ok db' =>
            intro token user hr
            cases hr
            obtain ⟨row,hkeeps,hissued⟩ := h token user rfl
            exact ⟨row,hkeeps.resolve_left hinactive,hissued⟩
    · exact Script.wp_bind (wp_true rollback tx) (fun _ _ _ _ _ h => by cases h)
        fun _ _ _ _ _ h => by cases h

end

section
variable {ι : Type} [DecidableEq ι] {dbms : Dbms} {env : Env} {calls : ι → PortalCall}
  {db : Database}

theorem signed_account (schedule : List ι) {i : ι} {token : String} {user : UserResponse}
    (hsigned : (((sessions env calls db).run (exec dbms) schedule).processes i).script =
      .ret (.session token user)) :
    ∃ row q, ((sessions env calls db).run (exec dbms) schedule).shared.users.find? user.userId =
        some q ∧ user.userId = row.userId ∧
      token = env.createAccessToken (toAuthenticated row) env.settings (calls i).ctx.now := by
  have hissued : (sessions env calls db).EachBehaved (exec dbms) (fun _ _ _ => True)
      fun i => (calls i).Issued env := fun i => wp_portalCall_issued (calls i)
  have hscript := hissued.run schedule i
  rw [hsigned] at hscript
  obtain ⟨row,hread,hid,htoken⟩ := hscript token user rfl
  obtain ⟨_,log,_,hremembered⟩ := System.run_preserves (P:=Chained dbms db)
    (fun i _ h => h.step i) (chained_sessions env calls db) schedule
  obtain ⟨q,hq,_⟩ := (hremembered i row hread).known
  exact ⟨row,q,by rw [hid,hq],hid,htoken⟩

def Deps.admitted (path : String) (p : Permission) (db : Database) (current : AuthenticatedUser) :
    Except Exc AccessScope := do
  let user ← Deps.getActiveUser path current
  Deps.require p user
  pure (Deps.accessScope user db)

theorem Deps.currentUser_valid {u : UUID} {username jti : String} {role : Role} {exp iat : ℤ}
    {db : Database} {row : UserRow} (h : db.users.find? u = some row) :
    Deps.currentUser (.valid ⟨u,username,role,exp,iat,jti⟩) db =
      if row.status = .active then .ok (toAuthenticated row)
      else .error (.http 401 AuthService.invalidSession) := by
  simp [Deps.currentUser,h,AuthenticatedUser.canSignIn,toAuthenticated,loginAllowed]

/-- In every interleaving of sessions, at every moment after a login: its cookie is served until
it expires and as long as the account is active, for the role, the temporary password and the
scopes that the account has then. -/
theorem session_follows_account (env : Env) (dbms : Dbms) (calls : ι → PortalCall) (db : Database)
    (jose : Jose) (toAscii : Char → Char) (settings : TokenSettings) (schedule : List ι) (i : ι)
    (token : String) (user : UserResponse)
    (hsigned : (((sessions env calls db).run (exec dbms) schedule).processes i).script =
      .ret (.session token user))
    (hissue : ∀ u, ∃ jti, env.createAccessToken u env.settings (calls i).ctx.now =
      Tokens.createAccessToken jose settings jti (calls i).ctx.now u)
    (hopens : jose.Opens settings.jwtSecret token) :
    ∃ row, ((sessions env calls db).run (exec dbms) schedule).shared.users.find? user.userId =
        some row ∧
      ∀ (ctx : Context) (path : String) (p : Permission),
        ctx.cookie = Tokens.readCookie jose toAscii settings ctx.now (some token) →
        (serve dbms (Deps.authorize ctx path p)
            ((sessions env calls db).run (exec dbms) schedule).shared).1 =
          if Timestamp.seconds ((calls i).ctx.now +
                settings.jwtExpireMinutes * microsecondsPerMinute) <
              ctx.now / microsecondsPerSecond ∨ row.status ≠ .active then
            .error (.http 401 AuthService.invalidSession)
          else Deps.admitted path p ((sessions env calls db).run (exec dbms) schedule).shared
            (toAuthenticated row) := by
  obtain ⟨row,q,hq,hid,htoken⟩ := signed_account schedule hsigned
  obtain ⟨jti,hjti⟩ := hissue (toAuthenticated row)
  rw [hjti] at htoken
  subst htoken
  refine ⟨q,hq,fun ctx path p hcookie => ?_⟩
  rw [serve_of_reads (Deps.reads_authorize ctx path p),Deps.authorized,hcookie,
    Tokens.readCookie_issued hopens]
  by_cases hexpired : Timestamp.seconds ((calls i).ctx.now +
      settings.jwtExpireMinutes * microsecondsPerMinute) < ctx.now / microsecondsPerSecond
  · rw [if_pos hexpired,if_pos (.inl hexpired)]
    rfl
  · rw [if_neg hexpired]
    rw [hid] at hq
    rw [Deps.currentUser_valid (u:=(toAuthenticated row).userId) hq]
    by_cases hactive : q.status = .active
    · rw [if_pos hactive,if_neg (by simp [hexpired,hactive])]
      rfl
    · rw [if_neg hactive,if_pos (.inr hactive)]
      rfl

end

def alice : UserRow := { applicant with status := .active }

def withAlice : Database := { rootDatabase with users := ⟨[root,alice],by decide⟩ }

def aliceClaims : Payload := Tokens.payload ⟨"key",480⟩ "7f" 10 (toAuthenticated alice)

def sampleJose : Jose where
  encode claims secret := if claims = aliceClaims ∧ secret = "key" then "signed" else ""
  decode token secret now :=
    if token = "signed" ∧ secret = "key" ∧ ¬ 28800 < now / microsecondsPerSecond then
      some aliceClaims
    else none

abbrev aliceToken : String :=
  Tokens.createAccessToken sampleJose ⟨"key",480⟩ "7f" 10 (toAuthenticated alice)

theorem aliceToken_eq : aliceToken = "signed" := by
  simp [Tokens.createAccessToken,sampleJose,aliceClaims]

theorem sampleJose_opens : sampleJose.Opens "key" aliceToken where
  nonempty := by
    rw [aliceToken_eq]
    decide
  decode := by
    intro claims exp hencode hexp now
    rw [aliceToken_eq] at hencode ⊢
    obtain rfl : claims = aliceClaims := by
      by_contra hne
      simp [sampleJose,hne] at hencode
    obtain rfl : 28800 = exp := Option.some.inj hexp
    by_cases hexpired : 28800 < now / microsecondsPerSecond <;> simp [sampleJose,hexpired]

def tokenEnv : Env :=
  { plainEnv with
    createAccessToken := fun user _ now =>
      Tokens.createAccessToken sampleJose ⟨"key",480⟩ "7f" now user }

def loginAndDisable : Bool → PortalCall
  | false => ⟨contextOf 0 0 10,.login "alice" "secret-root"⟩
  | true => ⟨contextOf 1 0 11,.request (.disable 2)⟩

def disabledLater : Open Bool PortalAnswer :=
  (sessions tokenEnv loginAndDisable withAlice).run (exec .lenient)
    (List.replicate 12 false ++ List.replicate 12 true)

theorem tokenEnv_createAccessToken (user : AuthenticatedUser) (settings : Settings)
    (now : Timestamp) : tokenEnv.createAccessToken user settings now =
      Tokens.createAccessToken sampleJose ⟨"key",480⟩ "7f" now user := by
  simp only [tokenEnv]

theorem session_follows_account_disabled : ∃ user : UserResponse,
    (disabledLater.processes false).script = .ret (.session aliceToken user) ∧
    user.userId = 2 ∧ statusOf disabledLater.shared 2 = some .disabled ∧
    ∃ row, disabledLater.shared.users.find? user.userId = some row ∧
      ∀ (ctx : Context) (path : String) (p : Permission),
        ctx.cookie = Tokens.readCookie sampleJose id ⟨"key",480⟩ ctx.now (some aliceToken) →
        (serve .lenient (Deps.authorize ctx path p) disabledLater.shared).1 =
          if Timestamp.seconds (10 + 480 * microsecondsPerMinute) <
              ctx.now / microsecondsPerSecond ∨ row.status ≠ .active then
            .error (.http 401 AuthService.invalidSession)
          else Deps.admitted path p disabledLater.shared (toAuthenticated row) :=
  ⟨_,rfl,rfl,by decide +kernel,session_follows_account tokenEnv .lenient loginAndDisable withAlice
    sampleJose id ⟨"key",480⟩ _ false aliceToken _ rfl
    (fun user => ⟨"7f",tokenEnv_createAccessToken user _ _⟩) sampleJose_opens⟩

end WzonePortal
