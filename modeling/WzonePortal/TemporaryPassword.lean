import WzonePortal.PortalHistory

/-! The temporary password of a reset. Its flag is a column of the user row that logins,
password changes and resets write through one method; only a password change of the user
clears it, and until then every protected route turns the user away. -/
namespace WzonePortal

open VirtualMachineRepository

/-- The routes that depend on `get_active_user` or `get_access_scope`, with the path
segments that a client sends. -/
inductive ProtectedRoute
  | listUsers
  | approveUser (userId : String)
  | rejectUser (userId : String)
  | disableUser (userId : String)
  | enableUser (userId : String)
  | updateUser (userId : String)
  | replaceScopes (userId : String)
  | resetPassword (userId : String)
  | listConnections
  | testUnsavedConnection
  | createConnection
  | deleteConnection (connectionId : String)
  | startCollection (connectionId : String)
  | listVirtualMachines
  | changePassword
  deriving DecidableEq, Repr

namespace ProtectedRoute

def router : ProtectedRoute → String
  | .listConnections | .testUnsavedConnection | .createConnection | .deleteConnection _
  | .startCollection _ => "/api/v1/connections"
  | .listVirtualMachines => "/api/v1/virtual-machines"
  | .changePassword => "/api/v1/auth"
  | _ => "/api/v1/users"

/-- The rest of the path. -/
def subPath : ProtectedRoute → String
  | .listUsers | .listConnections | .createConnection | .listVirtualMachines => ""
  | .approveUser userId => "/" ++ userId ++ "/approve"
  | .rejectUser userId => "/" ++ userId ++ "/reject"
  | .disableUser userId => "/" ++ userId ++ "/disable"
  | .enableUser userId => "/" ++ userId ++ "/enable"
  | .updateUser userId => "/" ++ userId
  | .replaceScopes userId => "/" ++ userId ++ "/scopes"
  | .resetPassword userId => "/" ++ userId ++ "/reset-password"
  | .testUnsavedConnection => "/test"
  | .deleteConnection connectionId => "/" ++ connectionId
  | .startCollection connectionId => "/" ++ connectionId ++ "/collect"
  | .changePassword => "/change-password"

def path (r : ProtectedRoute) : String := r.router ++ r.subPath

def permission : ProtectedRoute → Option Permission
  | .listConnections | .testUnsavedConnection | .createConnection | .deleteConnection _
  | .startCollection _ => some .connectionManage
  | .listVirtualMachines | .changePassword => none
  | _ => some .userManage

def asksScope : ProtectedRoute → Bool
  | .listUsers | .changePassword => false
  | _ => true

/-- The dependencies of a route, in resolution order. -/
def dependencies (r : ProtectedRoute) (cookie : Cookie) : Service (Option AccessScope) := do
  let current ← Deps.getCurrentUser cookie
  let user ← liftExcept (Deps.getActiveUser r.path current)
  match r.permission with
  | some p => liftExcept (Deps.require p user)
  | none => pure ()
  if r.asksScope then do
    let scope ← Deps.getAccessScope user
    pure (some scope)
  else pure none

end ProtectedRoute

def mustChangeError : Exc := .http 403 "비밀번호를 먼저 변경해야 합니다."

/-- The account carries a temporary password. -/
def MustChange (u : UUID) (db : Database) : Prop :=
  ∃ row, db.users.find? u = some row ∧ row.mustChangePassword = true

def PortalEvent.changesPassword (dbms : Dbms) (env : Env) (u : UUID) (db : Database) :
    PortalEvent → Prop
  | .request call => (∃ current new, call.request = .changePassword current new) ∧
      (∃ claims, call.ctx.cookie = .valid claims ∧ claims.sub = u) ∧
      call.succeeded dbms env db = true
  | _ => False

def portalSteps (dbms : Dbms) (env : Env) : List PortalEvent → Database →
    List (Database × PortalEvent)
  | [], _ => []
  | e::events, db => (db,e)::portalSteps dbms env events (e.run dbms env db)

def Write.clearsFlag (u : UUID) : Write → Bool
  | .patchUser v p => v = u && p.mustChangePassword = some false
  | _ => false

section
variable {dbms : Dbms} {env : Env} {u : UUID} {db db' : Database} {w : Write} {ws : List Write}

theorem mustChange_write (hw : w.clearsFlag u = false) (h : MustChange u db)
    (happly : w.apply dbms db = .ok db') : MustChange u db' := by
  obtain ⟨row,hrow,hflag⟩ := h
  cases w with
  | insertUser r =>
    obtain ⟨_,users,hinsert,rfl⟩ := Write.apply_insertUser happly
    have hne : r.userId ≠ u := by
      rintro rfl
      refine (Table.insert_eq_some.mp hinsert).1 (List.mem_map.mpr ?_)
      exact ⟨row,((Table.find?_eq_some _ _ _).mp hrow).1,Table.find?_key hrow⟩
    refine ⟨row,?_,hflag⟩
    rw [Table.find?_insert hinsert,if_neg hne]
    exact hrow
  | patchUser v p =>
    obtain ⟨_,rfl⟩ := Write.apply_patchUser happly
    by_cases hv : v = u
    · subst hv
      refine ⟨p.apply row,find?_patched hrow p,?_⟩
      simp only [Write.clearsFlag,decide_true,Bool.true_and,decide_eq_false_iff_not] at hw
      cases hp : p.mustChangePassword with
      | none => simp [UserPatch.apply,hp,hflag]
      | some b =>
        cases b with
        | true => simp [UserPatch.apply,hp]
        | false => exact absurd hp hw
    · refine ⟨row,?_,hflag⟩
      rw [find?_patchUser,if_neg (Ne.symm hv)]
      exact hrow
  | replaceScopes userId ids grantedBy at_ =>
    obtain ⟨_,_,_,rfl⟩ := Write.apply_replaceScopes happly
    exact ⟨row,hrow,hflag⟩
  | insertAudit r =>
    obtain ⟨_,rfl⟩ := Write.apply_insertAudit happly
    exact ⟨row,hrow,hflag⟩
  | insertConnection r =>
    obtain ⟨_,_,rfl⟩ := Write.apply_insertConnection happly
    exact ⟨row,hrow,hflag⟩
  | deleteConnection c =>
    cases Write.apply_deleteConnection happly
    exact ⟨row,hrow,hflag⟩

theorem mustChange_writes (hws : ∀ w ∈ ws, w.clearsFlag u = false) (h : MustChange u db)
    (happly : Write.applyAll dbms ws db = .ok db') : MustChange u db' := by
  induction ws generalizing db with
  | nil =>
    cases happly
    exact h
  | cons w ws ih =>
    obtain ⟨mid,hone,hrest⟩ := Write.applyAll_cons happly
    exact ih (fun x hx => hws x (List.mem_cons_of_mem _ hx))
      (mustChange_write (hws w List.mem_cons_self) h hone) hrest

end

section
variable {dbms : Dbms} {env : Env} {u : UUID} {db db' : Database} {ctx : Context}
  {cookie : Cookie} {r : ProtectedRoute}

theorem getActiveUser_ok {path : String} {user user' : AuthenticatedUser}
    (h : Deps.getActiveUser path user = .ok user') : user' = user := by
  unfold Deps.getActiveUser at h
  split at h <;> cases h
  rfl

theorem changePassword_writes {current new : String} {d : Decision}
    (h : decideChangePassword env ctx db current new = .ok d) :
    ∃ claims passwordHash, ctx.cookie = .valid claims ∧
      (db.users.find? claims.sub).isSome ∧
      d.writes = [.patchUser claims.sub (UserRepository.hashPatch ctx.now passwordHash false)] := by
  obtain ⟨user0,hcurrent,h⟩ := bind_eq_ok.mp h
  obtain ⟨user,hactive,h⟩ := bind_eq_ok.mp h
  rw [getActiveUser_ok hactive] at h
  obtain ⟨claims,row,hcookie,hrow,_,rfl⟩ := Deps.currentUser_eq_ok.mp hcurrent
  have hkey : row.userId = claims.sub := Table.find?_key hrow
  have hid : (UserRepository.toAuthenticated row).userId = claims.sub := hkey
  rw [hid,hrow] at h
  obtain ⟨_,_,h⟩ := bind_eq_ok.mp h
  obtain ⟨_,_,h⟩ := bind_eq_ok.mp h
  obtain ⟨_,_,h⟩ := bind_eq_ok.mp h
  obtain ⟨passwordHash,_,h⟩ := bind_eq_ok.mp h
  cases h
  exact ⟨claims,passwordHash,hcookie,by rw [hrow]; rfl,rfl⟩

theorem clearsFlag_of_singleton {ws : List Write} {w x : Write} (hws : ws = [x]) (hw : w ∈ ws) :
    w.clearsFlag u = x.clearsFlag u := by
  rw [hws,List.mem_singleton] at hw
  rw [hw]

/-- Among the requests only a password change of the user clears the flag. -/
theorem decide_clearsFlag {req : Request} {d : Decision} (h : req.decide env ctx db = .ok d)
    {w : Write} (hw : w ∈ d.writes) (hclears : w.clearsFlag u = true) :
    (∃ current new, req = .changePassword current new) ∧
      ∃ claims, ctx.cookie = .valid claims ∧ claims.sub = u := by
  cases req with
  | register payload =>
    rcases register_ok h with ⟨_,_,hws,_⟩ | ⟨_,_,hws,_⟩
    · rw [hws] at hw
      cases hw
    · rw [clearsFlag_of_singleton hws hw] at hclears
      cases hclears
  | approve userId role ids =>
    obtain ⟨_,_,_,_,_,hws,_⟩ := approve_ok h
    simp only [hws,List.mem_cons,List.not_mem_nil,or_false] at hw
    rcases hw with rfl | rfl | rfl <;>
      simp [Write.clearsFlag,UserRepository.statusPatch,UserRepository.rolePatch] at hclears
  | reject userId reason =>
    obtain ⟨_,_,_,hws⟩ := reject_ok h
    rw [clearsFlag_of_singleton hws hw] at hclears
    simp [Write.clearsFlag,UserRepository.statusPatch] at hclears
  | disable userId =>
    obtain ⟨_,_,_,hws⟩ := disable_ok h
    rw [clearsFlag_of_singleton hws hw] at hclears
    simp [Write.clearsFlag,UserRepository.statusPatch] at hclears
  | enable userId =>
    obtain ⟨_,_,_,_,_,hws⟩ := enable_ok h
    rw [clearsFlag_of_singleton hws hw] at hclears
    simp [Write.clearsFlag,UserRepository.statusPatch] at hclears
  | changeRole userId role =>
    obtain ⟨_,grantedBy,_,hws⟩ := changeRole_ok h
    rw [hws,List.mem_cons] at hw
    rcases hw with rfl | hw
    · simp [Write.clearsFlag,UserRepository.rolePatch] at hclears
    · split at hw
      · rw [List.mem_singleton] at hw
        subst hw
        cases hclears
      · cases hw
  | setScopes userId ids =>
    obtain ⟨_,_,_,_,hws⟩ := setScopes_ok h
    rw [clearsFlag_of_singleton hws hw] at hclears
    cases hclears
  | resetPassword userId =>
    obtain ⟨_,_,_,hws⟩ := resetPassword_ok h
    rw [clearsFlag_of_singleton hws hw] at hclears
    simp [Write.clearsFlag,UserRepository.hashPatch] at hclears
  | changePassword current new =>
    obtain ⟨claims,passwordHash,hcookie,_,hws⟩ := changePassword_writes h
    rw [clearsFlag_of_singleton hws hw] at hclears
    simp only [Write.clearsFlag,Bool.and_eq_true,decide_eq_true_eq] at hclears
    exact ⟨⟨current,new,rfl⟩,claims,hcookie,hclears.1⟩
  | createConnection payload =>
    obtain ⟨_,_,hws⟩ := createConnection_ok h
    rw [clearsFlag_of_singleton hws hw] at hclears
    cases hclears
  | deleteConnection connectionId =>
    obtain ⟨_,_,_,hws⟩ := deleteConnection_ok h
    rw [clearsFlag_of_singleton hws hw] at hclears
    cases hclears

theorem login_clearsFlag {a : LoginAttempt} {row : UserRow} (h : MustChange u db)
    (hrow : a.lookup env db = .ok (some row)) : ∀ w ∈ a.writes env row, w.clearsFlag u = false := by
  obtain ⟨own,hown,hflag⟩ := h
  have hmem := lookup_mem hrow
  have hsame : row.userId = u → row.mustChangePassword = true := by
    rintro rfl
    rw [hmem] at hown
    cases hown
    exact hflag
  intro w hw
  unfold LoginAttempt.writes at hw
  split at hw
  · simp only [List.mem_cons,List.not_mem_nil,or_false] at hw
    rcases hw with rfl | rfl
    · by_cases hu : row.userId = u
      · simp [Write.clearsFlag,UserRepository.hashPatch,hu,hsame hu]
      · simp [Write.clearsFlag,hu]
    · simp [Write.clearsFlag,UserRepository.resetPatch]
  · rw [List.mem_singleton] at hw
    subst hw
    simp [Write.clearsFlag,UserRepository.resetPatch]

theorem mustChange_congr (h : MustChange u db) (he : db'.users = db.users) :
    MustChange u db' := by
  obtain ⟨row,hrow,hflag⟩ := h
  exact ⟨row,by rw [he]; exact hrow,hflag⟩

/-- One event that is not a successful password change of the user. -/
theorem mustChange_event {e : PortalEvent} (h : MustChange u db)
    (hnot : ¬ e.changesPassword dbms env u db) : MustChange u (e.run dbms env db) := by
  cases e with
  | request call =>
    rcases hs : call.serve dbms env db with ⟨x,after⟩
    cases x with
    | error e =>
      simp only [PortalEvent.run,hs]
      rw [serve_failed hs]
      exact h
    | ok response =>
      have hsucceeded : call.succeeded dbms env db = true := by
        unfold Call.succeeded
        rw [hs]
      obtain ⟨d,w,hd,hw,_,_,rfl⟩ := serve_ok hs
      simp only [PortalEvent.run,hs]
      refine mustChange_congr (mustChange_writes (fun x hx => ?_) h hw) rfl
      cases hc : x.clearsFlag u with
      | false => rfl
      | true =>
        obtain ⟨hreq,hcookie⟩ := decide_clearsFlag hd hx hc
        exact absurd ⟨hreq,hcookie,hsucceeded⟩ hnot
  | login a =>
    refine a.serve_cases (MustChange u) h fun row w hrow hw event _ => ?_
    exact mustChange_congr (mustChange_writes (login_clearsFlag h hrow) h hw) rfl
  | collect call =>
    refine collect_cases (MustChange u) h fun result after hrun => ?_
    exact mustChange_congr h (UpsertCall.run_users hrun)

/-- A history, by induction over its events. -/
theorem mustChange_history {events : List PortalEvent} (h : MustChange u db)
    (hnot : ∀ step ∈ portalSteps dbms env events db,
      ¬ step.2.changesPassword dbms env u step.1) :
    MustChange u (portalAfter dbms env events db) := by
  induction events generalizing db with
  | nil => exact h
  | cons e events ih =>
    exact ih (mustChange_event h (hnot (db,e) List.mem_cons_self)) fun step hs =>
      hnot step (List.mem_cons_of_mem _ hs)

end

namespace ProtectedRoute

/-- What the dependencies of a route answer on a database. -/
def admission (r : ProtectedRoute) (cookie : Cookie) (db : Database) :
    Except Exc (Option AccessScope) := do
  let current ← Deps.currentUser cookie db
  let user ← Deps.getActiveUser r.path current
  match r.permission with
  | some p => Deps.require p user
  | none => pure ()
  pure (if r.asksScope then some (Deps.accessScope user db) else none)

section
variable {dbms : Dbms} {db : Database} {c w : Database} {cookie : Cookie} {claims : TokenClaims}
  {row : UserRow}

theorem reads_dependencies (r : ProtectedRoute) :
    Reads dbms c w (r.dependencies cookie) (r.admission cookie w) := by
  refine (Deps.reads_getCurrentUser cookie).bind fun current _ => ?_
  refine (reads_liftExcept _).bind fun user _ => ?_
  have hrest : Reads dbms c w (if r.asksScope then do
      let scope ← Deps.getAccessScope user
      pure (some scope) else pure none)
      (.ok (if r.asksScope then some (Deps.accessScope user w) else none)) := by
    cases r.asksScope with
    | true => exact (Deps.reads_getAccessScope user).bind fun scope _ => .pure (some scope)
    | false => exact .pure none
  cases r.permission with
  | some p => exact (reads_liftExcept _).bind fun _ _ => hrest
  | none => exact (Reads.pure ()).bind fun _ _ => hrest

theorem router_cases (r : ProtectedRoute) (h : r ≠ .changePassword) :
    r.router = "/api/v1/users" ∨ r.router = "/api/v1/connections" ∨
      r.router = "/api/v1/virtual-machines" := by
  cases r <;> simp_all [router]

theorem path_not_exempt (r : ProtectedRoute) (h : r ≠ .changePassword) :
    r.path ∉ Deps.passwordExemptPaths := by
  have hexempt : ∀ p ∈ Deps.passwordExemptPaths, p.toList[8]? = some 'a' := by decide
  have hrouter : ∃ c, r.router.toList[8]? = some c ∧ c ≠ 'a' := by
    rcases router_cases r h with hr | hr | hr
    · exact ⟨'u',by rw [hr]; decide,by decide⟩
    · exact ⟨'c',by rw [hr]; decide,by decide⟩
    · exact ⟨'v',by rw [hr]; decide,by decide⟩
  intro hmem
  obtain ⟨c,hc,hne⟩ := hrouter
  have hlt : 8 < r.router.toList.length := (List.getElem?_eq_some_iff.mp hc).1
  have ha := hexempt r.path hmem
  rw [path,String.toList_append,List.getElem?_append_left hlt,hc] at ha
  exact hne (Option.some.inj ha)

theorem admission_mustChange {r : ProtectedRoute} (hr : r ≠ .changePassword)
    (h : MustChange claims.sub db) :
    ∃ e ∈ [mustChangeError,.http 401 AuthService.invalidSession],
      r.admission (.valid claims) db = .error e := by
  obtain ⟨row,hrow,hflag⟩ := h
  by_cases hs : (UserRepository.toAuthenticated row).canSignIn = true
  · refine ⟨mustChangeError,by simp,?_⟩
    have hactive : Deps.getActiveUser r.path (UserRepository.toAuthenticated row) =
        .error mustChangeError :=
      if_pos ⟨hflag,path_not_exempt r hr⟩
    simp only [admission,Deps.currentUser,hrow,hs,if_true]
    change (Deps.getActiveUser r.path (UserRepository.toAuthenticated row) >>= _) = _
    rw [hactive]
    rfl
  · refine ⟨_,List.mem_cons_of_mem _ (List.mem_singleton.mpr rfl),?_⟩
    simp only [admission,Deps.currentUser,hrow,hs,if_false,Bool.false_eq_true]
    rfl

theorem permission_error_ne (p : Permission) :
    Exc.http 403 ("권한이 없습니다: " ++ p.value) ≠ mustChangeError := by
  cases p <;> decide

theorem admission_of_cleared (r : ProtectedRoute) (hrow : db.users.find? claims.sub = some row)
    (hflag : row.mustChangePassword = false) :
    r.admission (.valid claims) db ≠ .error mustChangeError := by
  intro h
  have hactive : Deps.getActiveUser r.path (UserRepository.toAuthenticated row) =
      .ok (UserRepository.toAuthenticated row) :=
    if_neg fun hc => by
      have hmust : row.mustChangePassword = true := hc.1
      rw [hflag] at hmust
      cases hmust
  by_cases hs : (UserRepository.toAuthenticated row).canSignIn = true
  · simp only [admission,Deps.currentUser,hrow,hs,if_true] at h
    change (Deps.getActiveUser r.path (UserRepository.toAuthenticated row) >>= _) = _ at h
    rw [hactive] at h
    cases hp : r.permission with
    | none =>
      simp only [hp] at h
      cases h
    | some p =>
      simp only [hp] at h
      change (Deps.require p (UserRepository.toAuthenticated row) >>= _) = _ at h
      unfold Deps.require at h
      split at h
      · cases h
      · exact permission_error_ne p (Except.error.inj h)
  · simp only [admission,Deps.currentUser,hrow,hs,if_false,Bool.false_eq_true] at h
    cases Except.error.inj h

end
end ProtectedRoute

@[simp] theorem ok_bind {α β : Type} (a : α) (f : α → Except Exc β) :
    (Except.ok a >>= f) = f a := rfl

theorem bind_of_error {α β : Type} {x : Except Exc α} {e : Exc} (h : x = .error e)
    (f : α → Except Exc β) : (x >>= f) = .error e := by
  rw [h]
  rfl

/-- The protected route that a request goes through. -/
def Request.protectedRoute : Request → Option ProtectedRoute
  | .register _ => none
  | .approve userId _ _ => some (.approveUser userId.str)
  | .reject userId _ => some (.rejectUser userId.str)
  | .disable userId => some (.disableUser userId.str)
  | .enable userId => some (.enableUser userId.str)
  | .changeRole userId _ => some (.updateUser userId.str)
  | .setScopes userId _ => some (.replaceScopes userId.str)
  | .resetPassword userId => some (.resetPassword userId.str)
  | .changePassword _ _ => some .changePassword
  | .createConnection _ => some .createConnection
  | .deleteConnection connectionId => some (.deleteConnection connectionId.str)

section
variable {dbms : Dbms} {env : Env} {ctx : Context} {db : Database} {r : ProtectedRoute} {e : Exc}

/-- Admission to a route with a permission is the authorization of its requests. -/
theorem ProtectedRoute.authorized_of_admission {p : Permission} {path : String}
    (hpath : path = r.path) (hp : r.permission = some p)
    (h : r.admission ctx.cookie db = .error e) : Deps.authorized ctx path p db = .error e := by
  subst hpath
  unfold admission at h
  unfold Deps.authorized
  cases hc : Deps.currentUser ctx.cookie db with
  | error e' =>
    rw [hc] at h
    cases h
    rfl
  | ok current =>
    rw [hc] at h
    simp only [ok_bind] at h ⊢
    cases ha : Deps.getActiveUser r.path current with
    | error e' =>
      rw [ha] at h
      cases h
      rfl
    | ok user =>
      rw [ha] at h
      simp only [ok_bind,hp] at h ⊢
      cases hr : Deps.require p user with
      | error e' =>
        rw [hr] at h
        cases h
        rfl
      | ok _ =>
        rw [hr] at h
        cases h

theorem userPath_eq (userId : UUID) (suffix : String) :
    Routes.userPath userId suffix = "/api/v1/users" ++ ("/" ++ userId.str ++ suffix) := by
  have hslash : "/api/v1/users/" = "/api/v1/users" ++ "/" := by decide
  unfold Routes.userPath
  simp only [hslash,String.append_assoc]

theorem connectionPath_eq (connectionId : UUID) :
    Routes.connectionPath connectionId = "/api/v1/connections" ++ ("/" ++ connectionId.str) := by
  have hslash : "/api/v1/connections/" = "/api/v1/connections" ++ "/" := by decide
  unfold Routes.connectionPath
  simp only [hslash,String.append_assoc]

/-- A request behind a route that does not dependencies the caller is refused alike. -/
theorem decide_of_not_admitted {req : Request} (hroute : req.protectedRoute = some r)
    (hr : r ≠ .changePassword) (h : r.admission ctx.cookie db = .error e) :
    req.decide env ctx db = .error e := by
  have hauthorized := fun p path hpath hp =>
    @ProtectedRoute.authorized_of_admission ctx db r e p path hpath hp h
  cases req with
  | register payload => cases hroute
  | changePassword current new =>
    cases hroute
    exact absurd rfl hr
  | createConnection payload =>
    cases hroute
    exact bind_of_error (hauthorized _ _ rfl rfl) _
  | deleteConnection connectionId =>
    cases hroute
    exact bind_of_error (hauthorized _ _ (connectionPath_eq connectionId) rfl) _
  | changeRole userId role =>
    cases hroute
    refine bind_of_error (hauthorized _ _ ?_ rfl) _
    rw [userPath_eq,String.append_empty]
    rfl
  | approve userId role ids =>
    cases hroute
    exact bind_of_error (hauthorized _ _ (userPath_eq userId _) rfl) _
  | reject userId reason =>
    cases hroute
    exact bind_of_error (hauthorized _ _ (userPath_eq userId _) rfl) _
  | disable userId =>
    cases hroute
    exact bind_of_error (hauthorized _ _ (userPath_eq userId _) rfl) _
  | enable userId =>
    cases hroute
    exact bind_of_error (hauthorized _ _ (userPath_eq userId _) rfl) _
  | setScopes userId ids =>
    cases hroute
    exact bind_of_error (hauthorized _ _ (userPath_eq userId _) rfl) _
  | resetPassword userId =>
    cases hroute
    exact bind_of_error (hauthorized _ _ (userPath_eq userId _) rfl) _

theorem serve_of_not_admitted {call : Call} (hroute : call.request.protectedRoute = some r)
    (hr : r ≠ .changePassword) (h : r.admission call.ctx.cookie db = .error e) :
    call.serve dbms env db = (.error e,db) := by
  unfold Call.serve
  rw [serve_handler,decide_of_not_admitted hroute hr h]
  rfl

end

section
variable {dbms : Dbms} {env : Env} {u : UUID} {db db' : Database} {α : Type}

theorem serve_of_reads {q : Service α} {x : Except Exc α} (h : Reads dbms db db q x) :
    serve dbms q db = (x,db) := by
  rw [serve_eq_finish]
  cases x with
  | ok a =>
    have hrun : q.run (Session.exec dbms) (Session.fresh db) = (.ok a,Session.fresh db) := h
    rw [finish,getDb,Script.run_tryCatch,Script.run_bind_of_ok _ hrun]
    rfl
  | error e =>
    obtain ⟨s,hs,hc⟩ := h
    have hfinish := finish_bind_of_error hs (fun a : α => (pure a : Service α))
    rw [bind_pure,hc] at hfinish
    exact hfinish

theorem mustChange_of_reset {call : Call} {response : Response}
    (hreq : call.request = .resetPassword u) (h : call.serve dbms env db = (.ok response,db')) :
    MustChange u db' := by
  obtain ⟨d,w,hd,hw,_,_,rfl⟩ := serve_ok h
  rw [hreq] at hd
  obtain ⟨row,passwordHash,hrow,hwrites⟩ := resetPassword_ok hd
  rw [hwrites] at hw
  obtain ⟨mid,hone,hrest⟩ := Write.applyAll_cons hw
  cases hrest
  obtain ⟨_,rfl⟩ := Write.apply_patchUser hone
  exact ⟨_,find?_patched hrow _,rfl⟩

theorem cleared_of_change {call : Call} {response : Response} {current new : String}
    (hreq : call.request = .changePassword current new)
    (h : call.serve dbms env db = (.ok response,db')) :
    ∃ claims row, call.ctx.cookie = .valid claims ∧ db'.users.find? claims.sub = some row ∧
      row.mustChangePassword = false := by
  obtain ⟨d,w,hd,hw,_,_,rfl⟩ := serve_ok h
  rw [hreq] at hd
  obtain ⟨claims,passwordHash,hcookie,hsome,hwrites⟩ := changePassword_writes hd
  obtain ⟨row,hrow⟩ := Option.isSome_iff_exists.mp hsome
  rw [hwrites] at hw
  obtain ⟨mid,hone,hrest⟩ := Write.applyAll_cons hw
  cases hrest
  obtain ⟨_,rfl⟩ := Write.apply_patchUser hone
  exact ⟨claims,_,hcookie,find?_patched hrow _,rfl⟩

/-- After a reset every history without a successful password change of the user leaves
every other protected route closed to the user, and right after such a change no route is
closed for that reason any more. -/
theorem temporary_password_gate (dbms : Dbms) (env : Env) (u : UUID) (db : Database)
    (reset : Call) (hreset : reset.request = .resetPassword u) (response : Response)
    (after : Database) (hserved : reset.serve dbms env db = (.ok response,after))
    (events : List PortalEvent)
    (hnot : ∀ step ∈ portalSteps dbms env events after,
      ¬ step.2.changesPassword dbms env u step.1) :
    (∀ (r : ProtectedRoute) (claims : TokenClaims), r ≠ .changePassword → claims.sub = u →
      ∃ e ∈ [mustChangeError,.http 401 AuthService.invalidSession],
        serve dbms (r.dependencies (.valid claims)) (portalAfter dbms env events after) =
            (.error e,portalAfter dbms env events after) ∧
          ∀ call : Call, call.ctx.cookie = .valid claims → call.request.protectedRoute = some r →
            call.serve dbms env (portalAfter dbms env events after) =
              (.error e,portalAfter dbms env events after)) ∧
    ∀ (change : Call) (current new : String) (own : TokenClaims) (response : Response)
      (changed : Database), change.request = .changePassword current new →
      change.ctx.cookie = .valid own → own.sub = u →
      change.serve dbms env (portalAfter dbms env events after) = (.ok response,changed) →
      ∀ (r : ProtectedRoute) (claims : TokenClaims), claims.sub = u →
        (serve dbms (r.dependencies (.valid claims)) changed).1 ≠ .error mustChangeError := by
  have hflag := mustChange_history (mustChange_of_reset hreset hserved) hnot
  refine ⟨fun r claims hr hu => ?_,fun change current new own response changed hreq hcookie hown
    hok r claims hu => ?_⟩
  · rw [← hu] at hflag
    obtain ⟨e,he,hadmission⟩ := ProtectedRoute.admission_mustChange hr hflag
    refine ⟨e,he,?_,fun call hcookie hroute => ?_⟩
    · rw [serve_of_reads r.reads_dependencies,hadmission]
    · rw [← hcookie] at hadmission
      exact serve_of_not_admitted hroute hr hadmission
  · obtain ⟨named,row,hnamed,hrow,hcleared⟩ := cleared_of_change hreq hok
    rw [hcookie] at hnamed
    cases hnamed
    rw [serve_of_reads r.reads_dependencies]
    rw [hown,← hu] at hrow
    exact r.admission_of_cleared hrow hcleared

end

/-- The database in which `alice` is an approved viewer. -/
def approvedAliceDatabase : Database :=
  replay .lenient plainEnv rootDatabase [byRoot 20 (.approve 2 .viewer []),registerAlice]

def claimsOfAlice : TokenClaims := ⟨2,"alice",.viewer,0,0,""⟩

theorem temporary_password_gate_alice : ∃ response after,
    (byRoot 30 (.resetPassword 2)).serve .lenient plainEnv approvedAliceDatabase = (.ok response,after) ∧
    ∃ e ∈ [mustChangeError,.http 401 AuthService.invalidSession],
      serve .lenient (ProtectedRoute.listVirtualMachines.dependencies (.valid claimsOfAlice))
        (portalAfter .lenient plainEnv [.login (attemptAt 40 "alice" "longenough1"),
          .request (byRoot 45 (.changeRole 2 .operator))] after) =
        (.error e,portalAfter .lenient plainEnv [.login (attemptAt 40 "alice" "longenough1"),
          .request (byRoot 45 (.changeRole 2 .operator))] after) := by
  obtain ⟨response,hserved⟩ := @serve_of_succeeded .lenient plainEnv
    (byRoot 30 (.resetPassword 2)) approvedAliceDatabase (by decide)
  have hgate := (temporary_password_gate .lenient plainEnv 2 approvedAliceDatabase
    (byRoot 30 (.resetPassword 2)) rfl response _ hserved
    [.login (attemptAt 40 "alice" "longenough1"),.request (byRoot 45 (.changeRole 2 .operator))]
    (by simp [portalSteps,PortalEvent.changesPassword,byRoot])).1 .listVirtualMachines
    claimsOfAlice (by decide) rfl
  obtain ⟨e,he,hrefused,_⟩ := hgate
  exact ⟨response,_,hserved,e,he,hrefused⟩

end WzonePortal
