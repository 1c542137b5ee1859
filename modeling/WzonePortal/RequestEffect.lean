import WzonePortal.Api

/-! What a request does to the committed database. Every handler first reads and checks,
then flushes its writes, records one audit row and commits; `Request.decide` computes the
writes and the row from the database, and `serve_handler` reduces the handler to it. -/
namespace WzonePortal

structure Decision where
  writes : List Write
  event : AuditEvent
  response : Response

/-- The rest of a request, on a session that may have flushed something already. -/
def finish {α : Type} (dbms : Dbms) (p : Service α) (s : Session) : Except Exc α × Database :=
  (((getDb p).run (Session.exec dbms) s).1,((getDb p).run (Session.exec dbms) s).2.committed)

section
variable {dbms : Dbms} {s t : Session} {α β : Type}

theorem serve_eq_finish (p : Service α) (db : Database) :
    serve dbms p db = finish dbms p (Session.fresh db) := rfl

theorem finish_bind_of_ok {q : Service β} {b : β}
    (h : q.run (Session.exec dbms) s = (.ok b,t)) (f : β → Service α) :
    finish dbms (q >>= f) s = finish dbms (f b) t := by
  simp only [finish,getDb,Script.run_tryCatch,bind_assoc,Script.run_bind_of_ok _ h]

theorem finish_bind_of_error {q : Service β} {e : Exc}
    (h : q.run (Session.exec dbms) s = (.error e,t)) (f : β → Service α) :
    finish dbms (q >>= f) s = (.error e,t.committed) := by
  simp only [finish,getDb,Script.run_tryCatch,bind_assoc,Script.run_bind_of_error _ h]
  rw [Script.run_bind_of_ok _ (Session.run_rollback t)]
  rfl

theorem finish_throw (e : Exc) :
    finish dbms (throw e : Service α) s = (.error e,s.committed) :=
  finish_bind_of_error (Script.run_throw _ e s) (fun a : α => pure a)

end

/-- Flush the writes of a decision on `w`, record its row and commit; on any error the
committed database `c` stays. -/
def settle (dbms : Dbms) (now : Timestamp) (c w : Database) :
    Except Exc Decision → Except Exc Response × Database
  | .error e => (.error e,c)
  | .ok d => match Write.applyAll dbms d.writes w with
    | .error e => (.error e,c)
    | .ok db =>
      if dbms.acceptsAudit (AuditRepository.eventRow now d.event) then
        (.ok d.response,db.addAudit (AuditRepository.eventRow now d.event))
      else (.error .pendingRollback,c)

/-- The rest `p` of a request behaves as the decision `x` says. -/
def Follows (dbms : Dbms) (now : Timestamp) (c w : Database) (p : Service Response)
    (x : Except Exc Decision) : Prop :=
  finish dbms p ⟨c,w,false⟩ = settle dbms now c w x

/-- The check that `Script.require` performs. -/
def check (c : Bool) (e : Exc) : Except Exc Unit := if c then .ok () else .error e

theorem check_eq_ok {c : Bool} {e : Exc} {u : Unit} : check c e = .ok u ↔ c = true := by
  cases c <;> simp [check]

/-- A script that reads `w` and answers `x`; only a failing query touches the session. -/
def Reads {α : Type} (dbms : Dbms) (c w : Database) (q : Service α) (x : Except Exc α) : Prop :=
  match x with
  | .ok a => q.run (Session.exec dbms) ⟨c,w,false⟩ = (.ok a,⟨c,w,false⟩)
  | .error e => ∃ s, q.run (Session.exec dbms) ⟨c,w,false⟩ = (.error e,s) ∧ s.committed = c

section
variable {dbms : Dbms} {now : Timestamp} {c w : Database} {α β : Type}

theorem Reads.of_run {q : Service α} {x : Except Exc α}
    (h : q.run (Session.exec dbms) ⟨c,w,false⟩ = (x,⟨c,w,false⟩)) : Reads dbms c w q x := by
  cases x with
  | ok a => exact h
  | error e => exact ⟨_,h,rfl⟩

theorem Reads.pure (a : α) : Reads dbms c w (pure a) (.ok a) := rfl

theorem Reads.throw (e : Exc) : Reads dbms c w (throw e : Service α) (.error e) := ⟨_,rfl,rfl⟩

theorem Reads.bind {q : Service β} {x : Except Exc β} (hq : Reads dbms c w q x)
    {f : β → Service α} {k : β → Except Exc α}
    (h : ∀ b, x = .ok b → Reads dbms c w (f b) (k b)) : Reads dbms c w (q >>= f) (x >>= k) := by
  cases x with
  | ok b =>
    have hb := h b rfl
    change Reads dbms c w (q >>= f) (k b)
    unfold Reads at hb ⊢
    rw [Script.run_bind_of_ok _ hq]
    exact hb
  | error e =>
    obtain ⟨s,hs,hc⟩ := hq
    exact ⟨s,Script.run_bind_of_error _ hs f,hc⟩

theorem reads_ask (q : Query) : Reads dbms c w (ask q) (q.eval w) := by
  have h := @Session.run_ask dbms c w q
  cases hq : q.eval w with
  | ok r => rw [hq] at h; exact h
  | error e => rw [hq] at h; exact ⟨_,h,rfl⟩

theorem reads_liftExcept (x : Except Exc α) : Reads dbms c w (liftExcept x) x :=
  .of_run (Session.run_liftExcept x _)

theorem reads_require (b : Bool) (e : Exc) :
    Reads dbms c w (Script.require b e) (check b e) :=
  .of_run (Script.run_require _ b e _)

theorem reads_getRow (userId : UUID) :
    Reads dbms c w (UserRepository.getRow userId) (.ok (w.users.find? userId)) :=
  run_getRow userId

theorem Reads.follows {q : Service β} {x : Except Exc β} (hq : Reads dbms c w q x)
    {f : β → Service Response} {k : β → Except Exc Decision}
    (h : ∀ b, x = .ok b → Follows dbms now c w (f b) (k b)) :
    Follows dbms now c w (q >>= f) (x >>= k) := by
  cases x with
  | ok b => exact (finish_bind_of_ok hq f).trans (h b rfl)
  | error e =>
    obtain ⟨s,hs,hc⟩ := hq
    exact (finish_bind_of_error hs f).trans (by rw [hc]; rfl)

theorem follows_throw (e : Exc) : Follows dbms now c w (throw e) (.error e) := finish_throw e

theorem follows_flush {x : Write} {ws : List Write} {event : AuditEvent} {r : Response}
    {f : Unit → Service Response}
    (h : ∀ w', x.apply dbms w = .ok w' → Follows dbms now c w' (f ()) (.ok ⟨ws,event,r⟩)) :
    Follows dbms now c w (flush x >>= f) (.ok ⟨x::ws,event,r⟩) := by
  have hrun := @Session.run_flush dbms c w x
  unfold Follows settle
  simp only [Write.applyAll]
  cases hx : x.apply dbms w with
  | ok w' =>
    rw [hx] at hrun
    exact (finish_bind_of_ok hrun f).trans (h w' hx)
  | error e =>
    rw [hx] at hrun
    exact finish_bind_of_error hrun f

theorem follows_assign {userId : UUID} {row : UserRow} (hrow : w.users.find? userId = some row)
    {patch : UserRow → UserPatch} {ws : List Write} {event : AuditEvent} {r : Response}
    {f : Unit → Service Response}
    (h : Follows dbms now c (w.patchUser userId (patch row)) (f ()) (.ok ⟨ws,event,r⟩)) :
    Follows dbms now c w (UserRepository.assign userId patch >>= f)
      (.ok ⟨.patchUser userId (patch row)::ws,event,r⟩) := by
  unfold UserRepository.assign
  rw [bind_assoc]
  unfold Follows
  rw [finish_bind_of_ok (run_getRow userId),hrow]
  refine follows_flush fun w' hw' => ?_
  obtain ⟨_,rfl⟩ := Write.apply_patchUser hw'
  exact h

/-- The end of every handler: record the audit row, then commit. A refused row leaves a
session whose commit raises. -/
theorem follows_record (event : AuditEvent) (r : Response) :
    Follows dbms now c w
      (AuditRepository.record now event >>= fun _ => commit >>= fun _ => pure r)
      (.ok ⟨[],event,r⟩) := by
  unfold Follows settle
  simp only [Write.applyAll]
  rw [finish_bind_of_ok (run_record now event)]
  split
  · rw [finish_bind_of_ok Session.run_commit,finish,getDb,Script.run_tryCatch]
    rfl
  · exact finish_bind_of_error Session.run_commit_inactive _

theorem find?_patchUser (db : Database) (userId : UUID) (p : UserPatch) (k : UUID) :
    (db.patchUser userId p).users.find? k =
      if k = userId then (db.users.find? k).map p.apply else db.users.find? k :=
  Table.find?_modify _ _ _ _ p.apply_userId

end

namespace Deps

def currentUser (cookie : Cookie) (db : Database) : Except Exc AuthenticatedUser :=
  match cookie with
  | .missing => .error (.http 401 "인증이 필요합니다.")
  | .invalid => .error (.http 401 AuthService.invalidSession)
  | .valid claims => match db.users.find? claims.sub with
    | none => .error (.http 401 AuthService.invalidSession)
    | some row =>
      if (UserRepository.toAuthenticated row).canSignIn then
        .ok (UserRepository.toAuthenticated row)
      else .error (.http 401 AuthService.invalidSession)

def accessScope (user : AuthenticatedUser) (db : Database) : AccessScope :=
  if user.role = .admin then buildScope user [] else buildScope user (db.scopesOf user.userId)

def authorized (ctx : Context) (path : String) (p : Permission) (db : Database) :
    Except Exc AccessScope := do
  let current ← currentUser ctx.cookie db
  let user ← getActiveUser path current
  require p user
  pure (accessScope user db)

section
variable {dbms : Dbms} {c w : Database}

theorem reads_getCurrentUser (cookie : Cookie) :
    Reads dbms c w (getCurrentUser cookie) (currentUser cookie w) := by
  cases cookie with
  | missing => exact .throw _
  | invalid => exact .throw _
  | valid claims =>
    have h := @run_getRow dbms c w claims.sub
    apply Reads.of_run
    simp only [getCurrentUser,UserRepository.get,currentUser,bind_assoc,
      Script.run_bind_of_ok _ h,pure_bind]
    cases w.users.find? claims.sub with
    | none => rfl
    | some row =>
      simp only [Option.map_some,Script.run_bind,Script.run_require]
      cases (UserRepository.toAuthenticated row).canSignIn <;> rfl

theorem reads_getAccessScope (user : AuthenticatedUser) :
    Reads dbms c w (getAccessScope user) (.ok (accessScope user w)) := by
  unfold getAccessScope accessScope
  split
  · exact .pure _
  · have h : Reads dbms c w (ScopeRepository.listForUser user.userId)
        (.ok (w.scopesOf user.userId)) := run_listForUser user.userId
    exact h.bind fun ids _ => .pure (buildScope user ids)

theorem reads_authorize (ctx : Context) (path : String) (p : Permission) :
    Reads dbms c w (authorize ctx path p) (authorized ctx path p w) := by
  refine (reads_getCurrentUser ctx.cookie).bind fun current _ => ?_
  refine (reads_liftExcept _).bind fun user _ => ?_
  refine (reads_liftExcept _).bind fun _ _ => ?_
  exact reads_getAccessScope user

end
end Deps

namespace UserAdminService

def userRow (userId : UUID) (db : Database) : Except Exc UserRow :=
  match db.users.find? userId with
  | some row => .ok row
  | none => .error (.notFound "사용자를 찾을 수 없습니다.")

def otherAdminRemains (userId : UUID) (db : Database) : Except Exc Unit :=
  check (db.countActiveAdmins (some userId) ≠ 0) (.validation lastAdminMessage none [])

theorem userRow_eq_ok {userId : UUID} {db : Database} {row : UserRow} :
    userRow userId db = .ok row ↔ db.users.find? userId = some row := by
  unfold userRow
  cases db.users.find? userId <;> simp

section
variable {dbms : Dbms} {c w : Database}

theorem reads_requireUser (userId : UUID) :
    Reads dbms c w (requireUser userId) (userRow userId w) := by
  apply Reads.of_run
  rw [requireUser,Script.run_bind_of_ok _ (run_getRow userId),userRow]
  cases w.users.find? userId <;> rfl

theorem reads_guardLastAdmin (userId : UUID) :
    Reads dbms c w (guardLastAdmin userId) (otherAdminRemains userId w) := by
  apply Reads.of_run
  rw [guardLastAdmin,Script.run_bind_of_ok _ (run_countActiveAdmins (some userId)),
    Script.run_require]
  rfl

end
end UserAdminService

section
variable (env : Env) (ctx : Context) (db : Database)

def decideUser (path : String) (userId : UUID)
    (method : AccessScope → UserRow → Except Exc Decision) : Except Exc Decision := do
  let actor ← Deps.authorized ctx path .userManage db
  actor.require .userManage
  let row ← UserAdminService.userRow userId db
  method actor row

def decideRegister (payload : RegisterRequest) : Except Exc Decision := do
  let normalized := AuthService.normalize env payload.username
  check (RegistrationService.usernamePattern normalized)
    (.validation "아이디는 3~64자의 영문 소문자·숫자·`.`·`_`·`-`만 사용할 수 있습니다."
      (some "username") [])
  validatePasswordPolicy payload.password
  let existing ← (Query.userByUsername normalized).eval db
  match existing with
  | some _ =>
    .ok ⟨[],RegistrationService.registerEvent env ctx .userRegisterDuplicate .failure normalized,
      .accepted Routes.registerAcceptedMessage⟩
  | none => do
    let passwordHash ← hashPassword env ctx payload.password
    .ok ⟨[.insertUser (UserRepository.newRow ctx normalized passwordHash payload.displayName
        payload.email .viewer .pending)],
      RegistrationService.registerEvent env ctx .userRegister .success normalized,
      .accepted Routes.registerAcceptedMessage⟩

def decideApprove (userId : UUID) (role : Role) (connectionIds : List UUID) :
    Except Exc Decision :=
  decideUser ctx db (Routes.userPath userId "/approve") userId fun actor row => do
    checkTransition row.status .active
    let ids := UserAdminService.grantedIds role connectionIds
    .ok ⟨[.patchUser userId (UserRepository.statusPatch ctx.now .active (some actor.username) none),
        .patchUser userId (UserRepository.rolePatch ctx.now role),
        .replaceScopes userId ids (some actor.username) ctx.now],
      UserAdminService.adminEvent env ctx actor .userApprove userId
        [("username",.text row.username),("role",.text role.value),
          ("connection_count",.int ids.length)],.noContent⟩

def decideReject (userId : UUID) (reason : Option String) : Except Exc Decision :=
  decideUser ctx db (Routes.userPath userId "/reject") userId fun actor row => do
    checkTransition row.status .rejected
    .ok ⟨[.patchUser userId (UserRepository.statusPatch ctx.now .rejected none reason)],
      UserAdminService.adminEvent env ctx actor .userReject userId
        [("username",.text row.username),("reason",reason.elim .null .text)],.noContent⟩

def decideDisable (userId : UUID) : Except Exc Decision :=
  decideUser ctx db (Routes.userPath userId "/disable") userId fun actor row => do
    UserAdminService.guardSelf actor userId "자기 자신의 계정 상태는 변경할 수 없습니다."
    checkTransition row.status .disabled
    if row.role = .admin then UserAdminService.otherAdminRemains userId db else .ok ()
    .ok ⟨[.patchUser userId (UserRepository.statusPatch ctx.now .disabled none none)],
      UserAdminService.adminEvent env ctx actor .userDisable userId
        [("username",.text row.username)],.noContent⟩

def decideEnable (userId : UUID) : Except Exc Decision :=
  decideUser ctx db (Routes.userPath userId "/enable") userId fun actor row => do
    checkTransition row.status .active
    .ok ⟨[.patchUser userId (UserRepository.statusPatch ctx.now .active (some actor.username) none)],
      UserAdminService.adminEvent env ctx actor .userEnable userId
        [("username",.text row.username)],.noContent⟩

def decideChangeRole (userId : UUID) (role : Role) : Except Exc Decision :=
  decideUser ctx db (Routes.userPath userId "") userId fun actor row => do
    UserAdminService.guardSelf actor userId "자기 자신의 역할은 변경할 수 없습니다."
    if row.role = .admin ∧ role ≠ .admin then UserAdminService.otherAdminRemains userId db
      else .ok ()
    .ok ⟨.patchUser userId (UserRepository.rolePatch ctx.now role)::
        (if role = .admin then [.replaceScopes userId [] (some actor.username) ctx.now] else []),
      UserAdminService.adminEvent env ctx actor .userRoleChange userId
        [("username",.text row.username),("role",.text role.value)],.noContent⟩

def decideSetScopes (userId : UUID) (connectionIds : List UUID) : Except Exc Decision :=
  decideUser ctx db (Routes.userPath userId "/scopes") userId fun actor row => do
    check (row.role ≠ .admin)
      (.validation "관리자는 범위 제한을 받지 않습니다." (some "role") [])
    .ok ⟨[.replaceScopes userId connectionIds (some actor.username) ctx.now],
      UserAdminService.adminEvent env ctx actor .scopeUpdate userId
        [("username",.text row.username),("connection_count",.int connectionIds.length)],
      .noContent⟩

def decideResetPassword (userId : UUID) : Except Exc Decision :=
  decideUser ctx db (Routes.userPath userId "/reset-password") userId fun actor row => do
    let passwordHash ← hashPassword env ctx (generateTemporaryPassword ctx)
    .ok ⟨[.patchUser userId (UserRepository.hashPatch ctx.now passwordHash true)],
      UserAdminService.adminEvent env ctx actor .userPasswordReset userId
        [("username",.text row.username)],.temporaryPassword (generateTemporaryPassword ctx)⟩

def decideChangePassword (current new : String) : Except Exc Decision := do
  let user ← Deps.currentUser ctx.cookie db
  let user ← Deps.getActiveUser "/api/v1/auth/change-password" user
  match db.users.find? user.userId with
  | none => .error (.authentication AuthService.invalidSession)
  | some row => do
    check (verifyPassword env ctx current row.passwordHash).1
      (.validation "현재 비밀번호가 올바르지 않습니다." (some "current_password") [])
    validatePasswordPolicy new
    check (new ≠ current)
      (.validation "이전과 다른 비밀번호를 사용하세요." (some "new_password") [])
    let newHash ← hashPassword env ctx new
    .ok ⟨[.patchUser user.userId (UserRepository.hashPatch ctx.now newHash false)],
      AuthService.selfEvent env ctx .passwordChange user,.noContent⟩

def decideCreateConnection (payload : ConnectionCreateInput) : Except Exc Decision := do
  let scope ← Deps.authorized ctx "/api/v1/connections" .connectionManage db
  scope.require .connectionManage
  let existing ← (Query.connectionByTarget payload.address payload.username).eval db
  match existing with
  | some row => .error (ConnectionService.duplicateError row)
  | none => do
    let conn := ConnectionService.toConnection ctx payload
    conn.validate
    let row := ConnectionRepository.toRow ctx.now conn (env.encrypt payload.password)
    .ok ⟨[.insertConnection row],
      ConnectionService.connectionEvent env ctx scope .connectionCreate row.connectionId
        (ConnectionService.createDetail payload),
      .created (ConnectionResponse.fromDomain (ConnectionRepository.toDomain row) 0)⟩

def decideDeleteConnection (connectionId : UUID) : Except Exc Decision := do
  let scope ← Deps.authorized ctx (Routes.connectionPath connectionId) .connectionManage db
  scope.require .connectionManage
  match db.connections.find? connectionId with
  | none => .error (.notFound "연결을 찾을 수 없습니다.")
  | some conn => do
    check (db.countActiveVms connectionId = 0)
      (ConnectionService.hasVmsError (db.countActiveVms connectionId))
    .ok ⟨[.deleteConnection connectionId],
      ConnectionService.connectionEvent env ctx scope .connectionDelete connectionId
        [("display_name",.text conn.displayName),
          ("impact",.counts [("virtual_machine",db.countActiveVms connectionId)])],.noContent⟩

/-- The checks of a request and, when they pass, what it is going to write. -/
def Request.decide : Request → Except Exc Decision
  | .register payload => decideRegister env ctx db payload
  | .approve userId role ids => decideApprove env ctx db userId role ids
  | .reject userId reason => decideReject env ctx db userId reason
  | .disable userId => decideDisable env ctx db userId
  | .enable userId => decideEnable env ctx db userId
  | .changeRole userId role => decideChangeRole env ctx db userId role
  | .setScopes userId ids => decideSetScopes env ctx db userId ids
  | .resetPassword userId => decideResetPassword env ctx db userId
  | .changePassword current new => decideChangePassword env ctx db current new
  | .createConnection payload => decideCreateConnection env ctx db payload
  | .deleteConnection connectionId => decideDeleteConnection env ctx db connectionId

end

section
variable {dbms : Dbms} {env : Env} {ctx : Context} {db : Database}

open UserRepository UserAdminService

theorem follows_userRoute {path : String} {userId : UUID}
    {rest : AccessScope → UserRow → Service Response}
    {method : AccessScope → UserRow → Except Exc Decision}
    (h : ∀ actor row, db.users.find? userId = some row →
      Follows dbms ctx.now db db (rest actor row) (method actor row)) :
    Follows dbms ctx.now db db
      (Deps.authorize ctx path .userManage >>= fun actor =>
        liftExcept (actor.require .userManage) >>= fun _ =>
          requireUser userId >>= fun row => rest actor row)
      (decideUser ctx db path userId method) := by
  refine (Deps.reads_authorize ctx path .userManage).follows fun actor _ => ?_
  refine (reads_liftExcept _).follows fun _ _ => ?_
  exact (reads_requireUser userId).follows fun row hrow => h actor row (userRow_eq_ok.mp hrow)

theorem find?_patched {userId : UUID} {row : UserRow} (h : db.users.find? userId = some row)
    (p : UserPatch) : (db.patchUser userId p).users.find? userId = some (p.apply row) := by
  rw [find?_patchUser,if_pos rfl,h]
  rfl

theorem approve_follows (userId : UUID) (role : Role) (ids : List UUID) :
    Follows dbms ctx.now db db (Routes.approveUser env ctx userId role ids)
      (decideApprove env ctx db userId role ids) := by
  simp only [Routes.approveUser,Routes.userRoute,UserAdminService.approve,bind_assoc]
  refine follows_userRoute fun actor row hrow => ?_
  refine (reads_liftExcept _).follows fun _ _ => ?_
  refine follows_assign hrow ?_
  refine follows_assign (find?_patched hrow _) ?_
  refine follows_flush fun w _ => ?_
  exact follows_record _ _

theorem reject_follows (userId : UUID) (reason : Option String) :
    Follows dbms ctx.now db db (Routes.rejectUser env ctx userId reason)
      (decideReject env ctx db userId reason) := by
  simp only [Routes.rejectUser,Routes.userRoute,UserAdminService.reject,bind_assoc]
  refine follows_userRoute fun actor row hrow => ?_
  refine (reads_liftExcept _).follows fun _ _ => ?_
  refine follows_assign hrow ?_
  exact follows_record _ _

theorem disable_follows (userId : UUID) :
    Follows dbms ctx.now db db (Routes.disableUser env ctx userId)
      (decideDisable env ctx db userId) := by
  simp only [Routes.disableUser,Routes.userRoute,UserAdminService.disable,bind_assoc]
  refine follows_userRoute fun actor row hrow => ?_
  refine (reads_liftExcept _).follows fun _ _ => ?_
  refine (reads_liftExcept _).follows fun _ _ => ?_
  by_cases ha : row.role = .admin
  · simp only [ha,if_true,bind_assoc]
    refine (reads_guardLastAdmin userId).follows fun _ _ => ?_
    refine follows_assign hrow ?_
    exact follows_record _ _
  · simp only [ha,if_false,bind_assoc]
    refine follows_assign hrow ?_
    exact follows_record _ _

theorem enable_follows (userId : UUID) :
    Follows dbms ctx.now db db (Routes.enableUser env ctx userId)
      (decideEnable env ctx db userId) := by
  simp only [Routes.enableUser,Routes.userRoute,UserAdminService.enable,bind_assoc]
  refine follows_userRoute fun actor row hrow => ?_
  refine (reads_liftExcept _).follows fun _ _ => ?_
  refine follows_assign hrow ?_
  exact follows_record _ _

theorem changeRole_follows (userId : UUID) (role : Role) :
    Follows dbms ctx.now db db (Routes.updateUser env ctx userId role)
      (decideChangeRole env ctx db userId role) := by
  simp only [Routes.updateUser,Routes.userRoute,UserAdminService.changeRole,bind_assoc]
  refine follows_userRoute fun actor row hrow => ?_
  refine (reads_liftExcept _).follows fun _ _ => ?_
  by_cases hd : row.role = .admin ∧ role ≠ .admin
  · simp only [hd,if_true,if_false,bind_assoc,ne_eq,not_false_eq_true,and_self]
    refine (reads_guardLastAdmin userId).follows fun _ _ => ?_
    refine follows_assign hrow ?_
    exact follows_record _ _
  · simp only [hd,if_false,bind_assoc]
    refine follows_assign hrow ?_
    by_cases ha : role = .admin
    · simp only [ha,if_true,bind_assoc]
      refine follows_flush fun w _ => ?_
      exact follows_record _ _
    · simp only [ha,if_false]
      exact follows_record _ _

theorem setScopes_follows (userId : UUID) (ids : List UUID) :
    Follows dbms ctx.now db db (Routes.replaceScopes env ctx userId ids)
      (decideSetScopes env ctx db userId ids) := by
  simp only [Routes.replaceScopes,Routes.userRoute,UserAdminService.setScopes,bind_assoc]
  refine follows_userRoute fun actor row hrow => ?_
  refine (reads_require _ _).follows fun _ _ => ?_
  refine follows_flush fun w _ => ?_
  exact follows_record _ _

theorem resetPassword_follows (userId : UUID) :
    Follows dbms ctx.now db db (Routes.resetPassword env ctx userId)
      (decideResetPassword env ctx db userId) := by
  simp only [Routes.resetPassword,UserAdminService.resetPassword,bind_assoc,pure_bind]
  refine follows_userRoute fun actor row hrow => ?_
  refine (reads_liftExcept _).follows fun passwordHash _ => ?_
  refine follows_assign hrow ?_
  exact follows_record _ _

theorem changePassword_follows (current new : String) :
    Follows dbms ctx.now db db (Routes.changePassword env ctx current new)
      (decideChangePassword env ctx db current new) := by
  simp only [Routes.changePassword,AuthService.changePassword,bind_assoc]
  refine (Deps.reads_getCurrentUser ctx.cookie).follows fun user _ => ?_
  refine (reads_liftExcept _).follows fun user _ => ?_
  have hrow : Reads dbms db db (getRow user.userId) (.ok (db.users.find? user.userId)) :=
    reads_getRow user.userId
  unfold Follows
  rw [finish_bind_of_ok hrow]
  cases hfind : db.users.find? user.userId with
  | none => exact follows_throw _
  | some row =>
    simp only [bind_assoc]
    refine (reads_require _ _).follows fun _ _ => ?_
    refine (reads_liftExcept _).follows fun _ _ => ?_
    refine (reads_require _ _).follows fun _ _ => ?_
    refine (reads_liftExcept _).follows fun newHash _ => ?_
    refine follows_assign hfind ?_
    exact follows_record _ _

theorem register_follows (payload : RegisterRequest) :
    Follows dbms ctx.now db db (Routes.register env ctx payload)
      (decideRegister env ctx db payload) := by
  simp only [Routes.register,RegistrationService.register,bind_assoc]
  refine (reads_require _ _).follows fun _ _ => ?_
  refine (reads_liftExcept _).follows fun _ _ => ?_
  refine (reads_ask (.userByUsername _)).follows fun existing _ => ?_
  cases existing with
  | some row => exact follows_record _ _
  | none =>
    simp only [bind_assoc]
    refine (reads_liftExcept _).follows fun passwordHash _ => ?_
    refine follows_flush fun w _ => ?_
    exact follows_record _ _

theorem createConnection_follows (payload : ConnectionCreateInput) :
    Follows dbms ctx.now db db (Routes.createConnection env ctx payload)
      (decideCreateConnection env ctx db payload) := by
  simp only [Routes.createConnection,ConnectionService.create,bind_assoc]
  refine (Deps.reads_authorize ctx _ _).follows fun scope _ => ?_
  refine (reads_liftExcept _).follows fun _ _ => ?_
  refine (reads_ask (.connectionByTarget _ _)).follows fun existing _ => ?_
  cases existing with
  | some row => exact follows_throw _
  | none =>
    simp only [ConnectionRepository.insert,bind_assoc,pure_bind]
    refine (reads_liftExcept _).follows fun _ _ => ?_
    refine follows_flush fun w _ => ?_
    exact follows_record _ _

theorem deleteConnection_follows (connectionId : UUID) :
    Follows dbms ctx.now db db (Routes.deleteConnection env ctx connectionId)
      (decideDeleteConnection env ctx db connectionId) := by
  simp only [Routes.deleteConnection,ConnectionService.delete,ConnectionRepository.get,bind_assoc]
  refine (Deps.reads_authorize ctx _ _).follows fun scope _ => ?_
  refine (reads_liftExcept _).follows fun _ _ => ?_
  have hget : Reads dbms db db (ask (.connectionById connectionId))
      (.ok (db.connections.find? connectionId)) := reads_ask (.connectionById connectionId)
  have hcount : Reads dbms db db (ask (.countActiveVms connectionId))
      (.ok (db.countActiveVms connectionId)) := reads_ask (.countActiveVms connectionId)
  unfold Follows
  rw [finish_bind_of_ok hget]
  cases hfind : db.connections.find? connectionId with
  | none => exact follows_throw _
  | some conn =>
    simp only [bind_assoc]
    rw [finish_bind_of_ok hcount]
    refine (reads_require _ _).follows fun _ _ => ?_
    simp only [ConnectionRepository.remove,bind_assoc]
    unfold Follows
    rw [finish_bind_of_ok hget,hfind]
    refine follows_flush fun w _ => ?_
    exact follows_record _ _

/-- The committed database after a request is the one its decision describes. -/
theorem serve_handler (req : Request) :
    serve dbms (req.handler env ctx) db = settle dbms ctx.now db db (req.decide env ctx db) := by
  cases req with
  | register payload => exact register_follows payload
  | approve userId role ids => exact approve_follows userId role ids
  | reject userId reason => exact reject_follows userId reason
  | disable userId => exact disable_follows userId
  | enable userId => exact enable_follows userId
  | changeRole userId role => exact changeRole_follows userId role
  | setScopes userId ids => exact setScopes_follows userId ids
  | resetPassword userId => exact resetPassword_follows userId
  | changePassword current new => exact changePassword_follows current new
  | createConnection payload => exact createConnection_follows payload
  | deleteConnection connectionId => exact deleteConnection_follows connectionId

end
end WzonePortal
