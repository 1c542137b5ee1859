import WzonePortal.RequestEffect

/-! What holds when a request succeeds: who was authorized, which row was loaded, which
checks passed and which writes reached the database. Later proofs split on these cases and
never on the handlers. -/
namespace WzonePortal

theorem scope_require_eq_ok {scope : AccessScope} {p : Permission} {u : Unit} :
    scope.require p = .ok u ↔ p ∈ rolePermissions scope.role := by
  unfold AccessScope.require
  split <;> simp_all

theorem checkTransition_eq_ok {current target : UserStatus} {u : Unit} :
    checkTransition current target = .ok u ↔ target ∈ allowedTransitions current := by
  unfold checkTransition
  split <;> simp_all

namespace Deps

theorem currentUser_eq_ok {cookie : Cookie} {db : Database} {user : AuthenticatedUser} :
    currentUser cookie db = .ok user ↔ ∃ claims row, cookie = .valid claims ∧
      db.users.find? claims.sub = some row ∧ row.status = .active ∧
      user = UserRepository.toAuthenticated row := by
  cases cookie with
  | missing => simp [currentUser]
  | invalid => simp [currentUser]
  | valid claims =>
    simp only [currentUser,Cookie.valid.injEq]
    cases hf : db.users.find? claims.sub with
    | none => simp [hf]
    | some row =>
      by_cases hs : row.status = .active
      · simp [hf,hs,AuthenticatedUser.canSignIn,UserRepository.toAuthenticated,loginAllowed,eq_comm]
      · simp [hf,hs,AuthenticatedUser.canSignIn,UserRepository.toAuthenticated,loginAllowed]

@[simp] theorem accessScope_userId (user : AuthenticatedUser) (db : Database) :
    (accessScope user db).userId = user.userId := by
  unfold accessScope; split <;> rfl

@[simp] theorem accessScope_username (user : AuthenticatedUser) (db : Database) :
    (accessScope user db).username = user.username := by
  unfold accessScope; split <;> rfl

@[simp] theorem accessScope_role (user : AuthenticatedUser) (db : Database) :
    (accessScope user db).role = user.role := by
  unfold accessScope; split <;> rfl

theorem authorized_ok {ctx : Context} {path : String} {p : Permission} {db : Database}
    {scope : AccessScope} (h : authorized ctx path p db = .ok scope) :
    ∃ row, db.users.find? scope.userId = some row ∧ row.status = .active ∧
      row.role = scope.role ∧ row.username = scope.username ∧ p ∈ rolePermissions scope.role := by
  obtain ⟨current,hcurrent,hrest⟩ := bind_eq_ok.mp h
  obtain ⟨user,hactive,hrest⟩ := bind_eq_ok.mp hrest
  obtain ⟨_,hrequire,hrest⟩ := bind_eq_ok.mp hrest
  have hscope : scope = accessScope user db := (Except.ok.inj hrest).symm
  obtain ⟨claims,row,_,hrow,hs,rfl⟩ := currentUser_eq_ok.mp hcurrent
  have huser : user = UserRepository.toAuthenticated row := by
    unfold getActiveUser at hactive
    split at hactive <;> cases hactive
    rfl
  subst hscope huser
  have hid : row.userId = claims.sub := Table.find?_key hrow
  refine ⟨row,?_,hs,by simp [UserRepository.toAuthenticated],
    by simp [UserRepository.toAuthenticated],?_⟩
  · simpa [UserRepository.toAuthenticated,hid] using hrow
  · unfold require at hrequire
    split at hrequire
    · rename_i hp
      simpa [UserRepository.toAuthenticated] using of_decide_eq_true hp
    · cases hrequire

end Deps

section
variable {dbms : Dbms} {env : Env} {ctx : Context} {db db' : Database}

open UserRepository UserAdminService

/-- A successful request applied its writes and recorded its row. -/
theorem serve_ok {req : Request} {r : Response}
    (h : serve dbms (req.handler env ctx) db = (.ok r,db')) :
    ∃ d w, req.decide env ctx db = .ok d ∧ Write.applyAll dbms d.writes db = .ok w ∧
      dbms.acceptsAudit (AuditRepository.eventRow ctx.now d.event) = true ∧ r = d.response ∧
      db' = w.addAudit (AuditRepository.eventRow ctx.now d.event) := by
  rw [serve_handler] at h
  unfold settle at h
  cases hd : req.decide env ctx db with
  | error e => rw [hd] at h; cases h
  | ok d =>
    rw [hd] at h
    simp only at h
    cases hw : Write.applyAll dbms d.writes db with
    | error e => rw [hw] at h; cases h
    | ok w =>
      rw [hw] at h
      simp only at h
      split at h
      · rename_i ha
        cases h
        exact ⟨d,w,rfl,hw,ha,rfl,rfl⟩
      · cases h

theorem serve_failed {req : Request} {e : Exc}
    (h : serve dbms (req.handler env ctx) db = (.error e,db')) : db' = db := by
  rw [serve_handler] at h
  unfold settle at h
  split at h
  · cases h; rfl
  · split at h
    · cases h; rfl
    · split at h <;> cases h
      rfl

theorem decideUser_ok {path : String} {userId : UUID}
    {method : AccessScope → UserRow → Except Exc Decision} {d : Decision}
    (h : decideUser ctx db path userId method = .ok d) :
    ∃ actor row, Deps.authorized ctx path .userManage db = .ok actor ∧
      db.users.find? userId = some row ∧ method actor row = .ok d := by
  obtain ⟨actor,hactor,h⟩ := bind_eq_ok.mp h
  obtain ⟨_,_,h⟩ := bind_eq_ok.mp h
  obtain ⟨row,hrow,h⟩ := bind_eq_ok.mp h
  exact ⟨actor,row,hactor,userRow_eq_ok.mp hrow,h⟩

theorem register_ok {payload : RegisterRequest} {d : Decision}
    (h : decideRegister env ctx db payload = .ok d) :
    let normalized := AuthService.normalize env payload.username
    let taken := db.users.rows.find? fun r => r.username = normalized
    (∃ row, taken = some row ∧ d.writes = [] ∧ d.event =
      RegistrationService.registerEvent env ctx .userRegisterDuplicate .failure normalized) ∨
    (∃ passwordHash, taken = none ∧ d.writes = [.insertUser (newRow ctx normalized passwordHash
        payload.displayName payload.email .viewer .pending)] ∧ d.event =
      RegistrationService.registerEvent env ctx .userRegister .success normalized) := by
  intro normalized taken
  obtain ⟨_,_,h⟩ := bind_eq_ok.mp h
  obtain ⟨_,_,h⟩ := bind_eq_ok.mp h
  obtain ⟨existing,hexisting,h⟩ := bind_eq_ok.mp h
  have htaken : existing = taken := by
    simp only [Query.eval] at hexisting
    split at hexisting <;> cases hexisting
    rfl
  cases existing with
  | some row =>
    cases h
    exact .inl ⟨row,htaken.symm,rfl,rfl⟩
  | none =>
    obtain ⟨passwordHash,_,h⟩ := bind_eq_ok.mp h
    cases h
    exact .inr ⟨passwordHash,htaken.symm,rfl,rfl⟩

theorem approve_ok {userId : UUID} {role : Role} {ids : List UUID} {d : Decision}
    (h : decideApprove env ctx db userId role ids = .ok d) :
    ∃ actor row, Deps.authorized ctx (Routes.userPath userId "/approve") .userManage db = .ok actor ∧
      db.users.find? userId = some row ∧ .active ∈ allowedTransitions row.status ∧
      d.writes = [.patchUser userId (statusPatch ctx.now .active (some actor.username) none),
        .patchUser userId (rolePatch ctx.now role),
        .replaceScopes userId (grantedIds role ids) (some actor.username) ctx.now] ∧
      d.event = adminEvent env ctx actor .userApprove userId
        [("username",.text row.username),("role",.text role.value),
          ("connection_count",.int (grantedIds role ids).length)] := by
  obtain ⟨actor,row,hactor,hrow,h⟩ := decideUser_ok h
  obtain ⟨_,ht,h⟩ := bind_eq_ok.mp h
  cases h
  exact ⟨actor,row,hactor,hrow,checkTransition_eq_ok.mp ht,rfl,rfl⟩

theorem reject_ok {userId : UUID} {reason : Option String} {d : Decision}
    (h : decideReject env ctx db userId reason = .ok d) :
    ∃ row, db.users.find? userId = some row ∧ .rejected ∈ allowedTransitions row.status ∧
      d.writes = [.patchUser userId (statusPatch ctx.now .rejected none reason)] := by
  obtain ⟨actor,row,_,hrow,h⟩ := decideUser_ok h
  obtain ⟨_,ht,h⟩ := bind_eq_ok.mp h
  cases h
  exact ⟨row,hrow,checkTransition_eq_ok.mp ht,rfl⟩

theorem disable_ok {userId : UUID} {d : Decision}
    (h : decideDisable env ctx db userId = .ok d) :
    ∃ row, db.users.find? userId = some row ∧ .disabled ∈ allowedTransitions row.status ∧
      d.writes = [.patchUser userId (statusPatch ctx.now .disabled none none)] := by
  obtain ⟨actor,row,_,hrow,h⟩ := decideUser_ok h
  obtain ⟨_,_,h⟩ := bind_eq_ok.mp h
  obtain ⟨_,ht,h⟩ := bind_eq_ok.mp h
  split at h
  · obtain ⟨_,_,h⟩ := bind_eq_ok.mp h
    cases h
    exact ⟨row,hrow,checkTransition_eq_ok.mp ht,rfl⟩
  · cases h
    exact ⟨row,hrow,checkTransition_eq_ok.mp ht,rfl⟩

theorem enable_ok {userId : UUID} {d : Decision}
    (h : decideEnable env ctx db userId = .ok d) :
    ∃ actor row, Deps.authorized ctx (Routes.userPath userId "/enable") .userManage db = .ok actor ∧
      db.users.find? userId = some row ∧ .active ∈ allowedTransitions row.status ∧
      d.writes = [.patchUser userId (statusPatch ctx.now .active (some actor.username) none)] := by
  obtain ⟨actor,row,hactor,hrow,h⟩ := decideUser_ok h
  obtain ⟨_,ht,h⟩ := bind_eq_ok.mp h
  cases h
  exact ⟨actor,row,hactor,hrow,checkTransition_eq_ok.mp ht,rfl⟩

theorem changeRole_ok {userId : UUID} {role : Role} {d : Decision}
    (h : decideChangeRole env ctx db userId role = .ok d) :
    ∃ row grantedBy, db.users.find? userId = some row ∧
      d.writes = .patchUser userId (rolePatch ctx.now role)::
        (if role = .admin then [.replaceScopes userId [] grantedBy ctx.now] else []) := by
  obtain ⟨actor,row,_,hrow,h⟩ := decideUser_ok h
  obtain ⟨_,_,h⟩ := bind_eq_ok.mp h
  by_cases hd : row.role = .admin ∧ role ≠ .admin
  · simp only [hd.1,hd.2,if_true,if_false,ne_eq,not_false_eq_true,and_self] at h
    obtain ⟨_,_,h⟩ := bind_eq_ok.mp h
    cases h
    exact ⟨row,none,hrow,by simp [hd.2]⟩
  · simp only [hd,if_false] at h
    by_cases ha : role = .admin
    · simp only [ha,if_true] at h
      cases h
      exact ⟨row,some actor.username,hrow,by simp [ha]⟩
    · simp only [ha,if_false] at h
      cases h
      exact ⟨row,none,hrow,by simp [ha]⟩

theorem setScopes_ok {userId : UUID} {ids : List UUID} {d : Decision}
    (h : decideSetScopes env ctx db userId ids = .ok d) :
    ∃ row grantedBy, db.users.find? userId = some row ∧ row.role ≠ .admin ∧
      d.writes = [.replaceScopes userId ids grantedBy ctx.now] := by
  obtain ⟨actor,row,_,hrow,h⟩ := decideUser_ok h
  obtain ⟨_,hr,h⟩ := bind_eq_ok.mp h
  cases h
  exact ⟨row,_,hrow,by simpa using check_eq_ok.mp hr,rfl⟩

theorem resetPassword_ok {userId : UUID} {d : Decision}
    (h : decideResetPassword env ctx db userId = .ok d) :
    ∃ row passwordHash, db.users.find? userId = some row ∧
      d.writes = [.patchUser userId (hashPatch ctx.now passwordHash true)] := by
  obtain ⟨actor,row,_,hrow,h⟩ := decideUser_ok h
  obtain ⟨passwordHash,_,h⟩ := bind_eq_ok.mp h
  cases h
  exact ⟨row,passwordHash,hrow,rfl⟩

theorem changePassword_ok {current new : String} {d : Decision}
    (h : decideChangePassword env ctx db current new = .ok d) :
    ∃ row passwordHash, db.users.find? row.userId = some row ∧
      d.writes = [.patchUser row.userId (hashPatch ctx.now passwordHash false)] := by
  obtain ⟨_,_,h⟩ := bind_eq_ok.mp h
  obtain ⟨user,_,h⟩ := bind_eq_ok.mp h
  split at h
  · cases h
  · rename_i row hrow
    obtain ⟨_,_,h⟩ := bind_eq_ok.mp h
    obtain ⟨_,_,h⟩ := bind_eq_ok.mp h
    obtain ⟨_,_,h⟩ := bind_eq_ok.mp h
    obtain ⟨passwordHash,_,h⟩ := bind_eq_ok.mp h
    cases h
    have hid : row.userId = user.userId := Table.find?_key hrow
    rw [← hid] at hrow ⊢
    exact ⟨row,passwordHash,hrow,rfl⟩

theorem createConnection_ok {payload : ConnectionCreateInput} {d : Decision}
    (h : decideCreateConnection env ctx db payload = .ok d) :
    ∃ row, row.connectionId = ctx.uuid4 ∧ d.writes = [.insertConnection row] := by
  obtain ⟨scope,_,h⟩ := bind_eq_ok.mp h
  obtain ⟨_,_,h⟩ := bind_eq_ok.mp h
  obtain ⟨existing,_,h⟩ := bind_eq_ok.mp h
  cases existing with
  | some row => cases h
  | none =>
    obtain ⟨_,_,h⟩ := bind_eq_ok.mp h
    cases h
    exact ⟨_,rfl,rfl⟩

theorem deleteConnection_ok {connectionId : UUID} {d : Decision}
    (h : decideDeleteConnection env ctx db connectionId = .ok d) :
    ∃ conn, db.connections.find? connectionId = some conn ∧
      db.countActiveVms connectionId = 0 ∧ d.writes = [.deleteConnection connectionId] := by
  obtain ⟨scope,_,h⟩ := bind_eq_ok.mp h
  obtain ⟨_,_,h⟩ := bind_eq_ok.mp h
  split at h
  · cases h
  · rename_i conn hconn
    obtain ⟨_,hc,h⟩ := bind_eq_ok.mp h
    cases h
    exact ⟨conn,hconn,by simpa using check_eq_ok.mp hc,rfl⟩

end
end WzonePortal
