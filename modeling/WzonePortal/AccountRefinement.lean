import WzonePortal.AccountMachine

/-! Every successful request is an event of the account machine that is enabled in the
state before, and the state after is the one the event describes. -/
namespace WzonePortal

section
variable {dbms : Dbms} {db db' : Database}

theorem accounts_addAudit (db : Database) (row : AuditEventRow) :
    (db.addAudit row).accounts = db.accounts := rfl

theorem accounts_patchUser (db : Database) (userId : UUID) (p : UserPatch) :
    (db.patchUser userId p).accounts = db.accounts.update userId fun a =>
      ⟨p.role.getD a.role,p.status.getD a.status,a.scope⟩ := by
  funext u
  have hscopes : (db.patchUser userId p).scopesOf u = db.scopesOf u := rfl
  by_cases hu : u = userId
  · subst hu
    simp only [Database.accounts,find?_patchUser,hscopes,Accounts.update_self,if_true,
      Option.map_map]
    rfl
  · simp only [Database.accounts,find?_patchUser,hscopes,Accounts.update_of_ne _ hu,if_neg hu]

theorem scopesOf_replaceScopes {userId : UUID} {ids : List UUID} {grantedBy : Option String}
    {at_ : Timestamp} (hx : (Write.replaceScopes userId ids grantedBy at_).apply dbms db = .ok db')
    (u : UUID) : db'.scopesOf u = if u = userId then ids.eraseDups else db.scopesOf u := by
  obtain ⟨_,scopes,hs,rfl⟩ := Write.apply_replaceScopes hx
  have hrows := ((Table.insertAll_eq_some _ _ _).mp hs).2.2
  simp only [Database.scopesOf,hrows,List.filter_append,List.map_append,Table.deleteWhere,
    List.filter_filter]
  by_cases hu : u = userId
  · subst hu
    have hkept : (db.userConnectionScopes.rows.filter fun r =>
        decide (r.userId = u) && !decide (r.userId = u)) = [] := by
      simp
    have hnew : (scopeRows u ids grantedBy at_).filter (fun r => decide (r.userId = u)) =
        scopeRows u ids grantedBy at_ := by
      rw [List.filter_eq_self]
      intro r hr
      obtain ⟨c,_,rfl⟩ := List.mem_map.mp hr
      simp
    rw [hkept,hnew,if_pos rfl]
    simp [scopeRows,Function.comp_def]
  · have hnew : (scopeRows userId ids grantedBy at_).filter (fun r => decide (r.userId = u)) =
        [] := by
      rw [List.filter_eq_nil_iff]
      intro r hr
      obtain ⟨c,_,rfl⟩ := List.mem_map.mp hr
      simpa using fun h => hu h.symm
    rw [hnew,if_neg hu,List.map_nil,List.append_nil]
    congr 1
    apply List.filter_congr
    intro r _
    by_cases hr : r.userId = u
    · have hne : r.userId ≠ userId := by rw [hr]; exact hu
      simp [hr,hu]
    · simp [hr]

theorem users_replaceScopes {userId : UUID} {ids : List UUID} {grantedBy : Option String}
    {at_ : Timestamp} (hx : (Write.replaceScopes userId ids grantedBy at_).apply dbms db = .ok db') :
    db'.users = db.users := by
  obtain ⟨_,_,_,rfl⟩ := Write.apply_replaceScopes hx
  rfl

theorem accounts_replaceScopes {userId : UUID} {ids : List UUID} {grantedBy : Option String}
    {at_ : Timestamp} (hx : (Write.replaceScopes userId ids grantedBy at_).apply dbms db = .ok db') :
    db'.accounts = db.accounts.update userId fun a => { a with scope := ids.toFinset } := by
  have hfinset : ids.eraseDups.toFinset = ids.toFinset := by
    ext c
    simp
  funext u
  by_cases hu : u = userId
  · subst hu
    simp only [Database.accounts,users_replaceScopes hx,scopesOf_replaceScopes hx,if_true,hfinset,
      Accounts.update_self,Option.map_map]
    rfl
  · simp only [Database.accounts,users_replaceScopes hx,scopesOf_replaceScopes hx,if_neg hu,
      Accounts.update_of_ne _ hu]

/-- A new row starts without scope rows, because those belong to existing users. -/
theorem accounts_insertUser (h : db.WellFormed) {row : UserRow}
    (hx : (Write.insertUser row).apply dbms db = .ok db') :
    db.accounts row.userId = none ∧ db'.accounts = fun u =>
      if u = row.userId then some ⟨row.role,row.status,∅⟩ else db.accounts u := by
  obtain ⟨_,users,hu,rfl⟩ := Write.apply_insertUser hx
  have hnone : db.users.find? row.userId = none := by
    rw [Table.find?_eq_none]
    intro r hr hk
    exact (Table.insert_eq_some.mp hu).1 (List.mem_map.mpr ⟨r,hr,hk⟩)
  have hempty : db.scopesOf row.userId = [] := by
    simp only [Database.scopesOf,List.map_eq_nil_iff,List.filter_eq_nil_iff,decide_eq_true_eq]
    intro r hr hk
    have hs := h.scopes r hr
    rw [hk,hnone] at hs
    cases hs
  refine ⟨by simp [Database.accounts,hnone],?_⟩
  funext u
  have hscopes : ({ db with users := users } : Database).scopesOf u = db.scopesOf u := rfl
  simp only [Database.accounts,Table.find?_insert hu,hscopes]
  by_cases he : u = row.userId
  · subst he
    simp [hempty]
  · rw [if_neg (Ne.symm he),if_neg he]

theorem accounts_deleteConnection {c : UUID}
    (hx : (Write.deleteConnection c).apply dbms db = .ok db') :
    db'.accounts = (AccountEvent.connectionDeleted c).apply db.accounts := by
  cases Write.apply_deleteConnection hx
  funext u
  simp only [Database.accounts,AccountEvent.apply,Option.map_map]
  congr 1
  funext r
  simp only [Function.comp,Account.mk.injEq,true_and]
  ext d
  simp only [Database.scopesOf,Table.deleteWhere,List.mem_toFinset,List.mem_map,List.mem_filter,
    Finset.mem_erase,Bool.not_eq_true',decide_eq_true_eq,decide_eq_false_iff_not]
  constructor
  · rintro ⟨r,⟨⟨hr,hc⟩,hu⟩,rfl⟩
    exact ⟨hc,r,⟨hr,hu⟩,rfl⟩
  · rintro ⟨hc,r,⟨hr,hu⟩,rfl⟩
    exact ⟨r,⟨⟨hr,hc⟩,hu⟩,rfl⟩

theorem accounts_insertConnection {row : ConnectionRow}
    (hx : (Write.insertConnection row).apply dbms db = .ok db') : db'.accounts = db.accounts := by
  obtain ⟨_,_,rfl⟩ := Write.apply_insertConnection hx
  rfl

end

/-- The event of a request, should it succeed. -/
def Request.event (env : Env) (ctx : Context) (db : Database) : Request → AccountEvent
  | .register payload =>
    if (db.users.rows.find? fun r => r.username = AuthService.normalize env payload.username).isSome
    then .unrelated else .registered ctx.uuid4
  | .approve userId role ids =>
    .approved userId role (UserAdminService.grantedIds role ids).toFinset
  | .reject userId _ => .rejected userId
  | .disable userId => .disabled userId
  | .enable userId => .enabled userId
  | .changeRole userId role => .roleChanged userId role
  | .setScopes userId ids => .scopesSet userId ids.toFinset
  | .resetPassword _ => .unrelated
  | .changePassword _ _ => .unrelated
  | .createConnection _ => .unrelated
  | .deleteConnection c => .connectionDeleted c

def Call.event (env : Env) (call : Call) (db : Database) : AccountEvent :=
  call.request.event env call.ctx db

section
variable {dbms : Dbms} {env : Env} {ctx : Context} {db db' : Database}

open UserRepository

theorem applyAll_singleton {x : Write} (h : Write.applyAll dbms [x] db = .ok db') :
    x.apply dbms db = .ok db' := by
  obtain ⟨mid,hx,hnil⟩ := Write.applyAll_cons h
  cases hnil
  exact hx

theorem accounts_statusPatch {userId : UUID} {status : UserStatus}
    {approvedBy rejectReason : Option String}
    (h : Write.applyAll dbms
      [.patchUser userId (statusPatch ctx.now status approvedBy rejectReason)] db = .ok db') :
    db'.accounts = db.accounts.update userId fun a => { a with status := status } := by
  rw [(Write.apply_patchUser (applyAll_singleton h)).2,accounts_patchUser]
  rfl

theorem accounts_hashPatch {userId : UUID} {passwordHash : String} {mustChange : Bool}
    (h : Write.applyAll dbms [.patchUser userId (hashPatch ctx.now passwordHash mustChange)] db =
      .ok db') : db'.accounts = db.accounts := by
  rw [(Write.apply_patchUser (applyAll_singleton h)).2,accounts_patchUser]
  funext u
  by_cases hu : u = userId
  · subst hu
    rw [Accounts.update_self]
    cases db.accounts u <;> rfl
  · rw [Accounts.update_of_ne _ hu]

theorem accounts_of_find {userId : UUID} {row : UserRow} (h : db.users.find? userId = some row) :
    db.accounts userId = some ⟨row.role,row.status,(db.scopesOf userId).toFinset⟩ := by
  simp [Database.accounts,h]

theorem approve_refines {userId : UUID} {role : Role} {ids : List UUID} {d : Decision}
    (hd : decideApprove env ctx db userId role ids = .ok d)
    (hw : Write.applyAll dbms d.writes db = .ok db') :
    db'.accounts = (AccountEvent.approved userId role
      (UserAdminService.grantedIds role ids).toFinset).apply db.accounts := by
  obtain ⟨actor,row,_,_,_,hwrites,_⟩ := approve_ok hd
  rw [hwrites] at hw
  obtain ⟨mid,h1,hw⟩ := Write.applyAll_cons hw
  obtain ⟨mid',h2,hw⟩ := Write.applyAll_cons hw
  rw [accounts_replaceScopes (applyAll_singleton hw),(Write.apply_patchUser h2).2,accounts_patchUser,
    (Write.apply_patchUser h1).2,accounts_patchUser]
  funext u
  by_cases hu : u = userId
  · subst hu
    simp only [AccountEvent.apply,Accounts.update_self,Option.map_map]
    rfl
  · simp only [AccountEvent.apply,Accounts.update_of_ne _ hu]

theorem changeRole_refines {userId : UUID} {role : Role} {d : Decision}
    (hd : decideChangeRole env ctx db userId role = .ok d)
    (hw : Write.applyAll dbms d.writes db = .ok db') :
    db'.accounts = (AccountEvent.roleChanged userId role).apply db.accounts := by
  obtain ⟨row,grantedBy,_,hwrites⟩ := changeRole_ok hd
  rw [hwrites] at hw
  obtain ⟨mid,h1,hw⟩ := Write.applyAll_cons hw
  have hmid := (Write.apply_patchUser h1).2
  by_cases ha : role = .admin
  · rw [if_pos ha] at hw
    rw [accounts_replaceScopes (applyAll_singleton hw),hmid,accounts_patchUser]
    funext u
    by_cases hu : u = userId
    · subst hu
      simp only [AccountEvent.apply,Accounts.update_self,Option.map_map,ha,if_true]
      rfl
    · simp only [AccountEvent.apply,Accounts.update_of_ne _ hu]
  · rw [if_neg ha] at hw
    cases hw
    rw [hmid,accounts_patchUser]
    simp only [AccountEvent.apply,ha,if_false]
    rfl

/-- The refinement: a successful request is its event. -/
theorem serve_refines (h : db.WellFormed) {call : Call} {r : Response}
    (hs : call.serve dbms env db = (.ok r,db')) :
    (call.event env db).Enabled db.accounts ∧
      db'.accounts = (call.event env db).apply db.accounts := by
  obtain ⟨d,w,hd,hw,_,_,rfl⟩ := serve_ok hs
  rw [accounts_addAudit]
  rcases call with ⟨ctx,request⟩
  cases request with
  | register payload =>
    rcases register_ok hd with ⟨row,htaken,hwrites,_⟩ | ⟨hash,htaken,hwrites,_⟩
    · rw [hwrites] at hw
      cases hw
      simp only [Call.event,Request.event,htaken,Option.isSome_some,if_true]
      exact ⟨trivial,rfl⟩
    · rw [hwrites] at hw
      simp only [Call.event,Request.event,htaken,Option.isSome_none,Bool.false_eq_true,if_false]
      exact accounts_insertUser h (applyAll_singleton hw)
  | approve userId role ids =>
    obtain ⟨actor,row,_,hrow,ht,_,_⟩ := approve_ok hd
    refine ⟨⟨⟨_,accounts_of_find hrow,ht⟩,fun hadmin => ?_⟩,approve_refines hd hw⟩
    simp [UserAdminService.grantedIds,hadmin]
  | reject userId reason =>
    obtain ⟨row,hrow,ht,hwrites⟩ := reject_ok hd
    rw [hwrites] at hw
    exact ⟨⟨_,accounts_of_find hrow,ht⟩,accounts_statusPatch hw⟩
  | disable userId =>
    obtain ⟨row,hrow,ht,hwrites⟩ := disable_ok hd
    rw [hwrites] at hw
    exact ⟨⟨_,accounts_of_find hrow,ht⟩,accounts_statusPatch hw⟩
  | enable userId =>
    obtain ⟨actor,row,_,hrow,ht,hwrites⟩ := enable_ok hd
    rw [hwrites] at hw
    exact ⟨⟨_,accounts_of_find hrow,ht⟩,accounts_statusPatch hw⟩
  | changeRole userId role =>
    obtain ⟨row,_,hrow,_⟩ := changeRole_ok hd
    exact ⟨⟨_,accounts_of_find hrow⟩,changeRole_refines hd hw⟩
  | setScopes userId ids =>
    obtain ⟨row,grantedBy,hrow,hrole,hwrites⟩ := setScopes_ok hd
    rw [hwrites] at hw
    exact ⟨⟨_,accounts_of_find hrow,hrole⟩,accounts_replaceScopes (applyAll_singleton hw)⟩
  | resetPassword userId =>
    obtain ⟨row,hash,_,hwrites⟩ := resetPassword_ok hd
    rw [hwrites] at hw
    exact ⟨trivial,accounts_hashPatch hw⟩
  | changePassword current new =>
    obtain ⟨row,hash,_,hwrites⟩ := changePassword_ok hd
    rw [hwrites] at hw
    exact ⟨trivial,accounts_hashPatch hw⟩
  | createConnection payload =>
    obtain ⟨row,_,hwrites⟩ := createConnection_ok hd
    rw [hwrites] at hw
    exact ⟨trivial,accounts_insertConnection (applyAll_singleton hw)⟩
  | deleteConnection c =>
    obtain ⟨conn,_,_,hwrites⟩ := deleteConnection_ok hd
    rw [hwrites] at hw
    exact ⟨trivial,accounts_deleteConnection (applyAll_singleton hw)⟩

end
end WzonePortal
