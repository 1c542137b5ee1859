import WzonePortal.AuditTrail
import WzonePortal.ConnectionLikeness

/-! Where the password of a connection goes. Two runs whose callers give other connection
passwords are alike in everything but the stored ciphertexts: no answer, no audit row and no
other column depends on a password, however the sessions overlap. -/
namespace WzonePortal

open ReadCommitted

/-- The statements whose answers hold no ciphertext. -/
def Stmt.IsPublic : Stmt → Prop
  | .query (.connectionById _) => False
  | .query (.connectionByTarget _ _) => False
  | _ => True

theorem eq_of_map_eq {α : Type} {r r' : Except Exc α}
    (h : r.map (fun a => a) = r'.map fun a => a) : r = r' := by
  cases r <;> cases r' <;> exact h

theorem Stmt.IsPublic.alike {o : Stmt} (h : o.IsPublic) :
    exceptPasswords.op o o ∧ ∀ r r', exceptPasswords.answer o o r r' → r = r' := by
  cases o with
  | write w => exact ⟨.write (.same w),fun _ _ hr => hr⟩
  | commit => exact ⟨.commit,fun _ _ hr => hr⟩
  | rollback => exact ⟨.rollback,fun _ _ hr => hr⟩
  | query q =>
    refine ⟨.query q,fun r r' hr => ?_⟩
    have heq := eq_of_heq hr
    cases q with
    | connectionById connectionId => exact h.elim
    | connectionByTarget address username => exact h.elim
    | _ => exact eq_of_map_eq heq

section
variable {α β : Type} {env : Env} {ctx : Context}

open Script UserRepository

theorem issues_liftExcept (x : Except Exc α) : (liftExcept x).Issues Stmt.IsPublic := by
  cases x <;> trivial

theorem issues_flush (w : Write) : (flush w).Issues Stmt.IsPublic := issues_perform trivial

theorem issues_commit : commit.Issues Stmt.IsPublic := issues_perform trivial

theorem issues_record (now : Timestamp) (event : AuditEvent) :
    (AuditRepository.record now event).Issues Stmt.IsPublic :=
  (issues_flush _).tryCatch fun _ => trivial

theorem issues_getRow (userId : UUID) : (getRow userId).Issues Stmt.IsPublic :=
  issues_perform trivial

theorem issues_assign (userId : UUID) (patch : UserRow → UserPatch) :
    (assign userId patch).Issues Stmt.IsPublic := by
  refine (issues_getRow userId).bind fun found => ?_
  cases found with
  | none => trivial
  | some row => exact issues_flush _

theorem issues_getCurrentUser (cookie : Cookie) :
    (Deps.getCurrentUser cookie).Issues Stmt.IsPublic := by
  cases cookie with
  | missing => trivial
  | invalid => trivial
  | valid claims =>
    refine ((issues_getRow _).bind fun _ => issues_pure _).bind fun found => ?_
    cases found with
    | none => trivial
    | some user => exact (issues_require _ _).bind fun _ => issues_pure _

theorem issues_authorize (path : String) (p : Permission) :
    (Deps.authorize ctx path p).Issues Stmt.IsPublic := by
  refine (issues_getCurrentUser _).bind fun current => ?_
  refine (issues_liftExcept _).bind fun user => (issues_liftExcept _).bind fun _ => ?_
  unfold Deps.getAccessScope
  split
  · trivial
  · exact Issues.bind (p:=ask _) (issues_perform trivial) fun _ => issues_pure _

theorem issues_requireUser (userId : UUID) :
    (UserAdminService.requireUser userId).Issues Stmt.IsPublic := by
  refine (issues_getRow userId).bind fun found => ?_
  cases found <;> trivial

theorem issues_guardLastAdmin (userId : UUID) :
    (UserAdminService.guardLastAdmin userId).Issues Stmt.IsPublic :=
  Issues.bind (p:=ask _) (issues_perform trivial) fun _ => issues_require _ _

theorem issues_onUser {x : Except Exc Unit} {userId : UUID} {f : UserRow → Service β}
    (hf : ∀ row, (f row).Issues Stmt.IsPublic) :
    (liftExcept x >>= fun _ => UserAdminService.requireUser userId >>= f).Issues Stmt.IsPublic :=
  (issues_liftExcept x).bind fun _ => (issues_requireUser userId).bind hf

theorem issues_userRoute (path : String) {method : AccessScope → Service Unit}
    (h : ∀ scope, (method scope).Issues Stmt.IsPublic) :
    (Routes.userRoute ctx path method).Issues Stmt.IsPublic :=
  (issues_authorize path _).bind fun scope => (h scope).bind fun _ => issues_commit.bind fun _ =>
    issues_pure _

theorem issues_register (payload : RegisterRequest) :
    (Routes.register env ctx payload).Issues Stmt.IsPublic := by
  refine Issues.bind ?_ fun _ => issues_commit.bind fun _ => issues_pure _
  refine (issues_require _ _).bind fun _ => (issues_liftExcept _).bind fun _ => ?_
  refine Issues.bind (p:=ask _) (issues_perform trivial) fun found => ?_
  cases found with
  | some row => exact issues_record _ _
  | none =>
    exact (issues_liftExcept _).bind fun _ => (issues_flush _).bind fun _ => issues_record _ _

theorem issues_login (username password : String) :
    (Routes.login env ctx username password).Issues Stmt.IsPublic := by
  refine Issues.bind ?_ fun signedIn => issues_commit.bind fun _ =>
    (issues_getRow _).bind fun row => ?_
  · refine Issues.bind (p:=ask _) (issues_perform trivial) fun found => ?_
    cases found with
    | none => exact (issues_record _ _).bind fun _ => trivial
    | some row =>
      dsimp only
      split
      · exact (issues_record _ _).bind fun _ => trivial
      split
      · exact (issues_assign _ _).bind fun _ => (issues_record _ _).bind fun _ => trivial
      split
      · refine (issues_record _ _).bind fun _ => ?_
        cases statusMessage row.status <;> trivial
      · have hsign : ∀ p : Service Unit, p.Issues Stmt.IsPublic → (do
            p
            resetFailures ctx.now row.userId
            AuditRepository.record ctx.now
              (AuthService.selfEvent env ctx .login (toAuthenticated row))
            pure (env.createAccessToken (toAuthenticated row) env.settings ctx.now,
              toAuthenticated row) : Service (String × AuthenticatedUser)).Issues Stmt.IsPublic :=
          fun p hp => hp.bind fun _ => (issues_assign _ _).bind fun _ =>
            (issues_record _ _).bind fun _ => issues_pure _
        cases (verifyPassword env ctx password row.passwordHash).2 with
        | none => exact hsign (pure ()) trivial
        | some newHash => exact hsign _ (issues_assign _ _)
  · split
    · trivial
    · exact Issues.bind (p:=ask _) (issues_perform trivial) fun _ => issues_pure _

theorem issues_changePassword (current new : String) :
    (Routes.changePassword env ctx current new).Issues Stmt.IsPublic := by
  refine (issues_getCurrentUser _).bind fun user => (issues_liftExcept _).bind fun user => ?_
  refine Issues.bind ?_ fun _ => issues_commit.bind fun _ => issues_pure _
  refine (issues_getRow _).bind fun found => ?_
  cases found with
  | none => trivial
  | some row =>
    exact (issues_require _ _).bind fun _ => (issues_liftExcept _).bind fun _ =>
      (issues_require _ _).bind fun _ => (issues_liftExcept _).bind fun _ =>
        (issues_assign _ _).bind fun _ => issues_record _ _

theorem Issues.same {p : Service α} (h : p.Issues Stmt.IsPublic) :
    p.Alike exceptPasswords (fun a b => a = b) p :=
  (h.mono fun _ ho => ho.alike).alike

theorem same_bind {p : Service β} {f g : β → Service α} (hp : p.Issues Stmt.IsPublic)
    (hfg : ∀ b, (f b).Alike exceptPasswords (fun a b => a = b) (g b)) :
    (p >>= f).Alike exceptPasswords (fun a b => a = b) (p >>= g) := by
  refine (Issues.same hp).bind fun a b hab => ?_
  obtain rfl := hab
  exact hfg a

/-- A connection is found in both runs, or in neither. -/
inductive FoundAlike : Option ConnectionRow → Option ConnectionRow → Prop
  | none : FoundAlike none none
  | some (row row' : ConnectionRow) (h : row.withoutPassword = row'.withoutPassword) :
      FoundAlike (some row) (some row')

theorem foundAlike_of_map {found found' : Option ConnectionRow}
    (h : found.map ConnectionRow.withoutPassword = found'.map ConnectionRow.withoutPassword) :
    FoundAlike found found' := by
  cases found <;> cases found' <;> simp only [Option.map_none,Option.map_some,reduceCtorEq,
    Option.some.injEq] at h
  · exact .none
  · exact .some _ _ h

theorem answersAlike_of_map {r r' : Except Exc (Option ConnectionRow)}
    (h : r.map (Option.map ConnectionRow.withoutPassword) =
      r'.map (Option.map ConnectionRow.withoutPassword)) : AnswersAlike FoundAlike r r' := by
  cases r <;> cases r'
  · exact Except.error.inj h
  · cases h
  · cases h
  · exact foundAlike_of_map (Except.ok.inj h)

theorem alike_ask (q : Query) {V : q.Res → q.Res → Prop}
    (h : ∀ r r' : Except Exc q.Res, r.map q.hide = r'.map q.hide → AnswersAlike V r r') :
    (ask q).Alike exceptPasswords V (ask q) :=
  alike_perform (k:=exceptPasswords) (Stmt.Alike.query q) fun r r' hr => h r r' (eq_of_heq hr)

theorem alike_flush {w w' : Write} (h : w.Alike w') :
    (flush w).Alike exceptPasswords (fun a b => a = b) (flush w') := by
  refine alike_perform (k:=exceptPasswords) (Stmt.Alike.write h) fun r r' hr => ?_
  obtain rfl : r = r' := hr
  cases r <;> rfl

theorem alike_connectionById (connectionId : UUID) :
    (ask (.connectionById connectionId)).Alike exceptPasswords FoundAlike
      (ask (.connectionById connectionId)) :=
  alike_ask (.connectionById connectionId) fun _ _ h => answersAlike_of_map h

theorem alike_connectionByTarget (address username : String) :
    (ask (.connectionByTarget address username)).Alike exceptPasswords FoundAlike
      (ask (.connectionByTarget address username)) :=
  alike_ask (.connectionByTarget address username) fun _ _ h => answersAlike_of_map h

theorem alike_insert {now : Timestamp} {conn conn' : Connection} {text text' : String}
    (hrow : (ConnectionRepository.toRow now conn text).withoutPassword =
      (ConnectionRepository.toRow now conn' text').withoutPassword)
    (hstorable : storable (ConnectionRepository.toRow now conn text).passwordEncrypted =
      storable (ConnectionRepository.toRow now conn' text').passwordEncrypted) :
    (ConnectionRepository.insert now conn text).Alike exceptPasswords (fun a b => a = b)
      (ConnectionRepository.insert now conn' text') := by
  refine (alike_flush (.insertConnection _ _ hrow hstorable)).bind fun _ _ _ => .ret ?_
  have hread : ∀ row : ConnectionRow, ConnectionRepository.toDomain row =
      ConnectionRepository.toDomain row.withoutPassword := fun _ => rfl
  rw [hread,hrow,← hread]

theorem alike_createConnection (hstorable : ∀ text, storable (env.encrypt text) = true)
    (payload : ConnectionCreateInput) (password : String) :
    (Routes.createConnection env ctx payload).Alike exceptPasswords (fun a b => a = b)
      (Routes.createConnection env ctx { payload with password := password }) := by
  refine same_bind (issues_authorize _ _) fun scope => ?_
  refine Alike.bind (V:=fun a b => a = b) ?_ fun created created' h => ?_
  · refine same_bind (issues_liftExcept _) fun _ => ?_
    refine (alike_connectionByTarget _ _).bind fun found found' h => ?_
    cases h with
    | some row row' h =>
      simp only [ConnectionRow.withoutPassword,ConnectionRow.mk.injEq] at h
      dsimp only
      rw [show ConnectionService.duplicateError row = ConnectionService.duplicateError row' by
        simp only [ConnectionService.duplicateError,h]]
      exact .raise _
    | none =>
      refine same_bind (issues_liftExcept _) fun _ => ?_
      refine Alike.bind (V:=fun a b => a = b) ?_ fun created created' h => ?_
      · refine alike_insert rfl ?_
        simp only [ConnectionRepository.toRow,hstorable]
      · obtain rfl := h
        exact same_bind (issues_record _ _) fun _ => .ret rfl
  · obtain rfl := h
    exact same_bind issues_commit fun _ => .ret rfl

theorem alike_remove (connectionId : UUID) :
    (ConnectionRepository.remove connectionId).Alike exceptPasswords (fun a b => a = b)
      (ConnectionRepository.remove connectionId) := by
  refine (alike_connectionById connectionId).bind fun found found' h => ?_
  cases h with
  | none => exact .ret rfl
  | some row row' h => exact Issues.same (issues_flush _)

theorem alike_deleteConnection (connectionId : UUID) :
    (Routes.deleteConnection env ctx connectionId).Alike exceptPasswords (fun a b => a = b)
      (Routes.deleteConnection env ctx connectionId) := by
  refine same_bind (issues_authorize _ _) fun scope => ?_
  refine Alike.bind (V:=fun a b => a = b) ?_ fun _ _ _ =>
    same_bind issues_commit fun _ => .ret rfl
  refine same_bind (issues_liftExcept _) fun _ => ?_
  refine (alike_connectionById connectionId).bind fun found found' h => ?_
  cases h with
  | none => exact .raise _
  | some row row' h =>
    refine same_bind (p:=ask _) (issues_perform trivial) fun vmCount => ?_
    refine same_bind (issues_require _ _) fun _ => ?_
    refine (alike_remove connectionId).bind fun _ _ _ => ?_
    simp only [ConnectionRow.withoutPassword,ConnectionRow.mk.injEq] at h
    rw [h.2.2.1]
    exact Issues.same (issues_record _ _)

theorem alike_request (hstorable : ∀ text, storable (env.encrypt text) = true) (req : Request) :
    (req.handler env ctx).Alike exceptPasswords (fun a b => a = b) (req.handler env ctx) := by
  cases req with
  | register payload => exact Issues.same (issues_register payload)
  | approve userId role ids =>
    exact Issues.same (issues_userRoute _ fun _ => issues_onUser fun _ =>
      (issues_liftExcept _).bind fun _ => (issues_assign _ _).bind fun _ =>
        (issues_assign _ _).bind fun _ => (issues_flush _).bind fun _ => issues_record _ _)
  | reject userId reason =>
    exact Issues.same (issues_userRoute _ fun _ => issues_onUser fun _ =>
      (issues_liftExcept _).bind fun _ => (issues_assign _ _).bind fun _ => issues_record _ _)
  | disable userId =>
    refine Issues.same (issues_userRoute _ fun _ => issues_onUser fun row =>
      (issues_liftExcept _).bind fun _ => (issues_liftExcept _).bind fun _ => ?_)
    by_cases hr : row.role = .admin
    · rw [if_pos hr]
      exact (issues_guardLastAdmin _).bind fun _ => (issues_assign _ _).bind fun _ =>
        issues_record _ _
    · rw [if_neg hr]
      exact (issues_assign _ _).bind fun _ => issues_record _ _
  | enable userId =>
    exact Issues.same (issues_userRoute _ fun _ => issues_onUser fun _ =>
      (issues_liftExcept _).bind fun _ => (issues_assign _ _).bind fun _ => issues_record _ _)
  | changeRole userId role =>
    refine Issues.same (issues_userRoute _ fun _ => issues_onUser fun row =>
      (issues_liftExcept _).bind fun _ => ?_)
    have hrest : ∀ (actor : AccessScope) (raw : List (String × Detail)), (do
        setRole ctx.now userId role
        if role = .admin then ScopeRepository.replace ctx.now userId [] (some actor.username)
          else pure ()
        UserAdminService.record env ctx actor .userRoleChange userId raw : Service Unit).Issues
          Stmt.IsPublic := by
      intro actor raw
      refine (issues_assign _ _).bind fun _ => ?_
      by_cases hr : role = .admin
      · rw [if_pos hr]
        exact (issues_flush _).bind fun _ => issues_record _ _
      · rw [if_neg hr]
        exact issues_record _ _
    by_cases hr : row.role = .admin ∧ role ≠ .admin
    · rw [if_pos hr]
      exact (issues_guardLastAdmin _).bind fun _ => hrest _ _
    · rw [if_neg hr]
      exact hrest _ _
  | setScopes userId ids =>
    exact Issues.same (issues_userRoute _ fun _ => issues_onUser fun _ =>
      (issues_require _ _).bind fun _ => (issues_flush _).bind fun _ => issues_record _ _)
  | resetPassword userId =>
    exact Issues.same ((issues_authorize _ _).bind fun _ => Issues.bind (issues_onUser fun _ =>
      (issues_liftExcept _).bind fun _ => (issues_assign _ _).bind fun _ =>
        (issues_record _ _).bind fun _ => issues_pure _) fun _ => issues_commit.bind fun _ =>
          issues_pure _)
  | changePassword current new => exact Issues.same (issues_changePassword current new)
  | createConnection payload =>
    exact alike_createConnection hstorable payload payload.password
  | deleteConnection connectionId => exact alike_deleteConnection connectionId

theorem alike_testConnection {check check' : ReaderCheck} {payload : ConnectionCreateInput}
    (password : String) (h : check (ConnectionService.toConnection ctx payload) =
      check' (ConnectionService.toConnection ctx { payload with password := password })) :
    (Routes.testUnsavedConnection env ctx check payload).Alike exceptPasswords (fun a b => a = b)
      (Routes.testUnsavedConnection env ctx check' { payload with password := password }) := by
  refine same_bind (issues_authorize _ _) fun scope => ?_
  refine Alike.bind (V:=fun a b => a = b) ?_ fun result result' hresult => ?_
  · refine same_bind (issues_liftExcept _) fun _ => same_bind (issues_liftExcept _) fun _ => ?_
    unfold ConnectionService.runCheck
    rw [h]
    exact same_bind (issues_liftExcept _) fun result =>
      same_bind (issues_record _ _) fun _ => .ret rfl
  · obtain rfl := hresult
    exact same_bind issues_commit fun _ => .ret rfl

end

/-- The calls differ in the password of a connection only; a test of the connection is answered
the same. -/
inductive PortalCall.Alike : PortalCall → PortalCall → Prop
  | same (call : PortalCall) : Alike call call
  | createConnection (ctx : Context) (payload : ConnectionCreateInput) (password : String) :
      Alike ⟨ctx,.request (.createConnection payload)⟩
        ⟨ctx,.request (.createConnection { payload with password := password })⟩
  | testConnection (ctx : Context) (payload : ConnectionCreateInput) (password : String)
      (check check' : ReaderCheck) (h : check (ConnectionService.toConnection ctx payload) =
        check' (ConnectionService.toConnection ctx { payload with password := password })) :
      Alike ⟨ctx,.testConnection payload check⟩
        ⟨ctx,.testConnection { payload with password := password } check'⟩

section
variable {env : Env}

open Script

theorem alike_getDb {α : Type} {handler handler' : Service α}
    (h : handler.Alike exceptPasswords (fun a b => a = b) handler') :
    (getDb handler).Alike exceptPasswords (fun a b => a = b) (getDb handler') := by
  refine Alike.tryCatch ?_ fun e => ?_
  · refine h.bind fun r r' hr => ?_
    obtain rfl := hr
    exact same_bind issues_commit fun _ => .ret rfl
  · exact same_bind (issues_perform trivial) fun _ => .raise e

theorem alike_answer {β : Type} {p p' : Service β} {f : β → PortalAnswer}
    (h : p.Alike exceptPasswords (fun a b => a = b) p') :
    (p >>= fun b => pure (f b)).Alike exceptPasswords (fun a b => a = b)
      (p' >>= fun b => pure (f b)) := by
  refine h.bind fun b b' hb => ?_
  obtain rfl := hb
  exact .ret rfl

theorem alike_script (hstorable : ∀ text, storable (env.encrypt text) = true)
    {call call' : PortalCall} (h : call.Alike call') :
    (call.script env).Alike exceptPasswords (fun a b => a = b) (call'.script env) := by
  refine alike_getDb ?_
  cases h with
  | createConnection ctx payload password =>
    exact alike_answer (alike_createConnection hstorable payload password)
  | testConnection ctx payload password check check' h =>
    exact alike_answer (alike_testConnection password h)
  | same =>
    rcases call with ⟨ctx,req⟩
    cases req with
    | request req => exact alike_answer (alike_request hstorable req)
    | login username password => exact alike_answer (Issues.same (issues_login username password))
    | logout =>
      exact alike_answer (Issues.same ((issues_getCurrentUser _).bind fun _ =>
        (issues_record _ _).bind fun _ => issues_commit))
    | testConnection payload check =>
      exact alike_answer (alike_testConnection payload.password rfl)

end

/-- Two runs of the same sessions under the same schedule, whose callers give other passwords
for the connections, end every session with the same answer and leave databases that differ in
the stored ciphertexts only: the users, the scopes, the audit log and every other column of the
connections are the same. -/
theorem connection_passwords_stay_sealed {ι : Type} [DecidableEq ι] (env : Env) (dbms : Dbms)
    (hstorable : ∀ text, storable (env.encrypt text) = true) (calls calls' : ι → PortalCall)
    (hcalls : ∀ i, (calls i).Alike (calls' i)) (db db' : Database) (hdb : db.Alike db')
    (schedule : List ι) :
    ((sessions env calls db).run (exec dbms) schedule).shared.Alike
        ((sessions env calls' db').run (exec dbms) schedule).shared ∧
      ∀ i, (((sessions env calls db).run (exec dbms) schedule).processes i).script.outcome =
        (((sessions env calls' db').run (exec dbms) schedule).processes i).script.outcome := by
  have hstart : (sessions env calls db).Alike exceptPasswords (fun a b => a = b) Database.Alike
      Transaction.Alike (sessions env calls' db') :=
    ⟨hdb,fun i => alike_script hstorable (hcalls i),fun _ => .refl _⟩
  have hkept : exceptPasswords.Kept (exec dbms) Database.Alike Transaction.Alike :=
    exceptPasswords_kept dbms
  have hrun := hstart.run hkept schedule
  exact ⟨hrun.shared,fun i => (hrun.scripts i).outcome_eq⟩

def addTwice (password : String) : Bool → PortalCall
  | false => ⟨contextOf 1 7 10,.request (.createConnection
      ⟨"A","vc.local",443,"reader",password,true,.vcenter,"https",none,none⟩)⟩
  | true => ⟨contextOf 1 8 11,.request (.createConnection
      ⟨"B","vc.local",443,"reader",password,true,.vcenter,"https",none,none⟩)⟩

def sealingEnv : Env := { plainEnv with encrypt := fun text => plainEnv.hashpw text "" }

theorem connection_passwords_stay_sealed_twice :
    ((sessions sealingEnv (addTwice "one") rootDatabase).run (exec .lenient)
        (List.replicate 4 true ++ List.replicate 9 false ++ List.replicate 9 true)).shared.Alike
      ((sessions sealingEnv (addTwice "two") rootDatabase).run (exec .lenient)
        (List.replicate 4 true ++ List.replicate 9 false ++ List.replicate 9 true)).shared ∧
    ∀ i, (((sessions sealingEnv (addTwice "one") rootDatabase).run (exec .lenient)
        (List.replicate 4 true ++ List.replicate 9 false ++ List.replicate 9 true)).processes
          i).script.outcome =
      (((sessions sealingEnv (addTwice "two") rootDatabase).run (exec .lenient)
        (List.replicate 4 true ++ List.replicate 9 false ++ List.replicate 9 true)).processes
          i).script.outcome :=
  connection_passwords_stay_sealed sealingEnv .lenient
    (fun text => plainEnv_hashpw_storable text "") _ _
    (fun i => by cases i <;> exact .createConnection _ _ "two") _ _ (.refl _) _

end WzonePortal
