import WzonePortal.ApprovalGate
import WzonePortal.PasswordReset
import WzonePortal.UsersPageRuns

/-! What becomes of the requests of the account page. The server refuses one and changes nothing,
or does to the named account what the dialog said; and as long as the account and its caller are
what the page took them for, it refuses none. -/
namespace WzonePortal

section
variable {dbms : Dbms} {env : Env} {ctx : Context} {db : Database} {actor : AccessScope}
  {userId : UUID} {row : UserRow}

open UserRepository

/-- The checks of a request pass and its writes can be applied. -/
def Request.Applies (dbms : Dbms) (env : Env) (ctx : Context) (db : Database) (req : Request) :
    Prop :=
  ∃ d w, req.decide env ctx db = .ok d ∧ Write.applyAll dbms d.writes db = .ok w

theorem applyAll_patch {p : UserPatch} (h : p.storable = true) (ws : List Write) :
    Write.applyAll dbms (.patchUser userId p::ws) db =
      Write.applyAll dbms ws (db.patchUser userId p) := by
  simp only [Write.applyAll,Write.apply,h,if_true]

theorem applyAll_scopes {ids : List UUID} (grantedBy : Option String) (at_ : Timestamp)
    (hids : ∀ c ∈ ids, (db.connections.find? c).isSome) (huser : (db.users.find? userId).isSome) :
    ∃ w, Write.applyAll dbms [.replaceScopes userId ids grantedBy at_] db = .ok w := by
  obtain ⟨w,hw⟩ := @replaceScopes_succeeds dbms db userId ids grantedBy at_ hids huser
  exact ⟨w,by simp only [Write.applyAll,hw]⟩

theorem rolePatch_storable (now : Timestamp) (role : Role) :
    (rolePatch now role).storable = true := rfl

theorem isSome_patched (h : db.users.find? userId = some row) (p : UserPatch) :
    ((db.patchUser userId p).users.find? userId).isSome := by
  rw [find?_patched h]
  rfl

theorem authorized_of_admin {claims : TokenClaims} (hcookie : ctx.cookie = .valid claims)
    (hrow : db.users.find? claims.sub = some row) (hactive : row.status = .active)
    (hadmin : row.role = .admin) (hflag : row.mustChangePassword = false) :
    ∃ actor : AccessScope, actor.userId = claims.sub ∧
      ∀ path, Deps.authorized ctx path .userManage db = .ok actor := by
  have huser : Deps.currentUser ctx.cookie db = .ok (toAuthenticated row) :=
    Deps.currentUser_eq_ok.mpr ⟨claims,row,hcookie,hrow,hactive,rfl⟩
  have hpath : ∀ path, Deps.getActiveUser path (toAuthenticated row) = .ok (toAuthenticated row) :=
    fun path => if_neg fun hc => by
      have hmust : row.mustChangePassword = true := hc.1
      rw [hflag] at hmust
      cases hmust
  have hpermission : Deps.require .userManage (toAuthenticated row) = .ok () := by
    unfold Deps.require AuthenticatedUser.has toAuthenticated
    rw [hadmin]
    rfl
  refine ⟨Deps.accessScope (toAuthenticated row) db,?_,fun path => ?_⟩
  · rw [Deps.accessScope_userId]
    have hid : row.userId = claims.sub := Table.find?_key hrow
    exact hid
  · unfold Deps.authorized
    rw [huser,ok_bind,hpath,ok_bind,hpermission]
    rfl

theorem otherAdminRemains_of_caller {caller : UserRow} (h : caller ∈ db.users.rows)
    (hactive : caller.status = .active) (hadmin : caller.role = .admin)
    (hne : caller.userId ≠ userId) : UserAdminService.otherAdminRemains userId db = .ok () := by
  have hmem : caller ∈ db.users.rows.filter fun r =>
      Database.isActiveAdmin r && some userId ≠ some r.userId := by
    simp [h,Database.isActiveAdmin,hactive,hadmin,Ne.symm hne]
  refine check_eq_ok.mpr (decide_eq_true ?_)
  exact Nat.pos_iff_ne_zero.mp (List.length_pos_of_mem hmem)

theorem generateTemporaryPassword_valid (ctx : Context) :
    validatePasswordPolicy (generateTemporaryPassword ctx) = .ok () := by
  have hlength : minPasswordLength ≤ (generateTemporaryPassword ctx).length := by
    rw [← String.length_toList]
    simp [generateTemporaryPassword,minPasswordLength]
  have hbytes := temporary_size ctx
  unfold validatePasswordPolicy
  rw [if_neg (by omega),if_neg (by omega)]

section
variable (ha : ∀ path, Deps.authorized ctx path .userManage db = .ok actor)
  (hrow : db.users.find? userId = some row)

include ha hrow

theorem approve_applies (hwf : db.WellFormed) (ht : .active ∈ allowedTransitions row.status)
    {role : Role} {ids : List UUID}
    (hids : ∀ c ∈ UserAdminService.grantedIds role ids, (db.connections.find? c).isSome) :
    (Request.approve userId role ids).Applies dbms env ctx db := by
  have hname := approverName_storable hwf (ha "") .active
  have hrole := rolePatch_storable ctx.now role
  obtain ⟨w,hw⟩ := @applyAll_scopes dbms
    ((db.patchUser userId (statusPatch ctx.now .active (some actor.username) none)).patchUser
      userId (rolePatch ctx.now role)) userId _ (some actor.username) ctx.now hids
    (isSome_patched (find?_patched hrow _) _)
  exact ⟨_,w,decideApprove_eq (ha _) hrow ht,
    (applyAll_patch hname _).trans ((applyAll_patch hrole _).trans hw)⟩

theorem enable_applies (hwf : db.WellFormed) (ht : .active ∈ allowedTransitions row.status) :
    (Request.enable userId).Applies dbms env ctx db :=
  ⟨_,_,decideEnable_eq (ha _) hrow ht,
    applyAll_patch (approverName_storable hwf (ha "") .active) _⟩

theorem reject_applies (ht : .rejected ∈ allowedTransitions row.status) :
    (Request.reject userId none).Applies dbms env ctx db := by
  have hcheck : checkTransition row.status .rejected = .ok () := checkTransition_eq_ok.mpr ht
  have hpatch : (statusPatch ctx.now .rejected none none).storable = true := rfl
  refine ⟨?d,?w,?decided,?applied⟩
  case decided =>
    refine (decideUser_eq (ha _) hrow _).trans ?_
    rw [hcheck]
    rfl
  case applied => exact applyAll_patch hpatch _

theorem disable_applies (hself : actor.userId ≠ userId)
    (ht : .disabled ∈ allowedTransitions row.status)
    (hothers : UserAdminService.otherAdminRemains userId db = .ok ()) :
    (Request.disable userId).Applies dbms env ctx db := by
  have hguard : UserAdminService.guardSelf actor userId "자기 자신의 계정 상태는 변경할 수 없습니다." =
      .ok () := if_neg hself
  have hpatch : (statusPatch ctx.now .disabled none none).storable = true := rfl
  have hcheck : checkTransition row.status .disabled = .ok () := checkTransition_eq_ok.mpr ht
  refine ⟨?d,?w,?decided,?applied⟩
  case decided =>
    refine (decideUser_eq (ha _) hrow _).trans ?_
    rw [hguard,ok_bind,hcheck,ok_bind,hothers,ite_self]
    rfl
  case applied => exact applyAll_patch hpatch _

theorem changeRole_applies (hself : actor.userId ≠ userId)
    (hothers : UserAdminService.otherAdminRemains userId db = .ok ()) (role : Role) :
    (Request.changeRole userId role).Applies dbms env ctx db := by
  have hguard : UserAdminService.guardSelf actor userId "자기 자신의 역할은 변경할 수 없습니다." =
      .ok () := if_neg hself
  have hrole := rolePatch_storable ctx.now role
  obtain ⟨w,hw⟩ : ∃ w, Write.applyAll dbms (if role = .admin then
      [.replaceScopes userId [] (some actor.username) ctx.now] else [])
      (db.patchUser userId (rolePatch ctx.now role)) = .ok w := by
    split
    · exact applyAll_scopes _ _ (fun c hc => by cases hc) (isSome_patched hrow _)
    · exact ⟨_,rfl⟩
  refine ⟨?d,w,?decided,?applied⟩
  case decided =>
    refine (decideUser_eq (ha _) hrow _).trans ?_
    rw [hguard,ok_bind,hothers,ite_self]
    rfl
  case applied => exact (applyAll_patch hrole _).trans hw

theorem setScopes_applies (hrole : row.role ≠ .admin) {ids : List UUID}
    (hids : ∀ c ∈ ids, (db.connections.find? c).isSome) :
    (Request.setScopes userId ids).Applies dbms env ctx db := by
  have hcheck : check (row.role ≠ .admin)
      (.validation "관리자는 범위 제한을 받지 않습니다." (some "role") []) = .ok () :=
    check_eq_ok.mpr (decide_eq_true hrole)
  obtain ⟨w,hw⟩ := @applyAll_scopes dbms db userId ids (some actor.username) ctx.now hids
    (by rw [hrow]; rfl)
  refine ⟨?d,w,?decided,?applied⟩
  case decided =>
    refine (decideUser_eq (ha _) hrow _).trans ?_
    rw [hcheck]
    rfl
  case applied => exact hw

theorem resetPassword_applies
    (hhash : storable (env.hashpw (generateTemporaryPassword ctx) ctx.salt) = true) :
    (Request.resetPassword userId).Applies dbms env ctx db := by
  have hpassword : hashPassword env ctx (generateTemporaryPassword ctx) =
      .ok (env.hashpw (generateTemporaryPassword ctx) ctx.salt) := by
    unfold hashPassword
    rw [generateTemporaryPassword_valid]
  have hpatch : (hashPatch ctx.now (env.hashpw (generateTemporaryPassword ctx) ctx.salt)
      true).storable = true := by
    simp [UserPatch.storable,hashPatch,hhash]
  refine ⟨?d,?w,?decided,?applied⟩
  case decided =>
    refine (decideUser_eq (ha _) hrow _).trans ?_
    rw [hpassword]
    rfl
  case applied => exact applyAll_patch hpatch _

end
end

namespace UsersPage

/-- The change of an account that a request asks for. -/
def ApiCall.event (call : ApiCall) : AccountEvent :=
  match call.action with
  | .approveUser role ids => .approved call.user.userId role ids.toFinset
  | .rejectUser => .rejected call.user.userId
  | .setUserEnabled true => .enabled call.user.userId
  | .setUserEnabled false => .disabled call.user.userId
  | .changeUserRole role => .roleChanged call.user.userId role
  | .setUserScopes ids => .scopesSet call.user.userId ids.toFinset
  | .resetUserPassword => .unrelated

def Action.connectionIds : Action → List UUID
  | .approveUser _ ids | .setUserScopes ids => ids
  | _ => []

/-- The caller is still the administrator of the session, the account is what the list said, and
the chosen connections exist; the database takes the hash of a reset and the audit row. -/
structure Served.Current (dbms : Dbms) (env : Env) (me : MeResponse) (s : Served) : Prop where
  caller : ∃ claims row, s.ctx.cookie = .valid claims ∧ claims.sub = me.user.userId ∧
    s.db.users.find? claims.sub = some row ∧ row.status = .active ∧ row.role = .admin ∧
    row.mustChangePassword = false
  account : ∃ a, s.db.accounts s.call.user.userId = some a ∧ a.role = s.call.user.role ∧
    a.status = s.call.user.status
  connections : ∀ c ∈ s.call.action.connectionIds, (s.db.connections.find? c).isSome
  hash : s.call.action = .resetUserPassword →
    storable (env.hashpw (generateTemporaryPassword s.ctx) s.ctx.salt) = true
  audit : ∀ d, s.call.request.decide env s.ctx s.db = .ok d →
    dbms.acceptsAudit (AuditRepository.eventRow s.ctx.now d.event) = true

/-- A request was announced by its dialog, does what was announced or nothing at all, and is
granted as long as nothing it rests on has changed and the database takes its hash and audit row. -/
structure Served.KeepsWord (dbms : Dbms) (env : Env) (me : MeResponse) (o : Office)
    (s : Served) : Prop where
  announced : s.call.Announced me o.Listed
  effect : (∃ e, s.result dbms env = (.error e,s.db)) ∨
    ∃ r, (s.result dbms env).1 = .ok r ∧ s.call.event.Enabled s.db.accounts ∧
      (s.result dbms env).2.accounts = s.call.event.apply s.db.accounts
  temporary : s.call.action = .resetUserPassword → ∀ r, (s.result dbms env).1 = .ok r →
    MustChange s.call.user.userId (s.result dbms env).2
  granted : s.Current dbms env me → (∃ r, (s.result dbms env).1 = .ok r) ∧
    ¬ Misrouted dbms env ⟨s.ctx,s.call.request⟩ s.db s.call.user.userId

section
variable {dbms : Dbms} {env : Env} {me : MeResponse} {s : Served} {user : UserResponse}

theorem event_of_offered (h : s.call.action.Offered me s.call.user) (db : Database) :
    (⟨s.ctx,s.call.request⟩ : Call).event env db = s.call.event := by
  unfold Call.event ApiCall.request ApiCall.event
  cases hact : s.call.action with
  | approveUser role ids =>
    rw [hact] at h
    have hids : UserAdminService.grantedIds role ids = ids := by
      unfold UserAdminService.grantedIds
      split
      · rename_i hrole
        exact (h.2.2 hrole).symm
      · rfl
    simp only [Request.event,hids]
  | setUserEnabled enabled => cases enabled <;> rfl
  | _ => rfl

/-- A served request is refused without a trace, or is the event of its action. -/
theorem served_effect (hwf : s.db.WellFormed) (h : s.call.action.Offered me s.call.user) :
    (∃ e, s.result dbms env = (.error e,s.db)) ∨
      ∃ r, (s.result dbms env).1 = .ok r ∧ s.call.event.Enabled s.db.accounts ∧
        (s.result dbms env).2.accounts = s.call.event.apply s.db.accounts := by
  rcases hr : s.result dbms env with ⟨x,after⟩
  cases x with
  | error e =>
    have hsame : after = s.db := serve_failed hr
    exact .inl ⟨e,by rw [hsame]⟩
  | ok r =>
    have hrefines := serve_refines hwf hr
    rw [event_of_offered h] at hrefines
    exact .inr ⟨r,rfl,hrefines⟩

/-- Nothing stands in the way of a request that was offered, one case for each action. -/
theorem applies_of_current (hwf : s.db.WellFormed) (h : s.call.action.Offered me s.call.user)
    (hcurrent : s.Current dbms env me) : s.call.request.Applies dbms env s.ctx s.db := by
  obtain ⟨claims,caller,hcookie,hsub,hcaller,hactive,hadmin,hflag⟩ := hcurrent.caller
  obtain ⟨actor,hactor,ha⟩ := authorized_of_admin hcookie hcaller hactive hadmin hflag
  obtain ⟨account,haccount,hrole,hstatus⟩ := hcurrent.account
  obtain ⟨row,hrow,rfl⟩ := Option.map_eq_some_iff.mp haccount
  have hconnections := hcurrent.connections
  have hself : Changeable me s.call.user → actor.userId ≠ s.call.user.userId := by
    intro hc
    rw [hactor,hsub]
    exact Ne.symm hc.1
  have hothers : Changeable me s.call.user →
      UserAdminService.otherAdminRemains s.call.user.userId s.db = .ok () := by
    intro hc
    have hid : caller.userId = claims.sub := Table.find?_key hcaller
    refine otherAdminRemains_of_caller ((Table.find?_eq_some _ _ _).mp hcaller).1 hactive hadmin ?_
    rw [hid,hsub]
    exact Ne.symm hc.1
  unfold ApiCall.request
  cases hact : s.call.action with
  | approveUser role ids =>
    rw [hact] at h hconnections
    refine approve_applies ha hrow hwf ?_ fun c hc => hconnections c ?_
    · rw [show row.status = .pending from hstatus.trans h.1]
      decide
    · unfold UserAdminService.grantedIds at hc
      split at hc
      · cases hc
      · exact hc
  | rejectUser =>
    rw [hact] at h
    refine reject_applies ha hrow ?_
    rw [show row.status = .pending from hstatus.trans h]
    decide
  | setUserEnabled enabled =>
    rw [hact] at h
    obtain ⟨hchange,hlisted⟩ := h
    cases enabled with
    | true =>
      refine enable_applies ha hrow hwf ?_
      rw [show row.status = .disabled from hstatus.trans hlisted]
      decide
    | false =>
      refine disable_applies ha hrow (hself hchange) ?_ (hothers hchange)
      rw [show row.status = .active from hstatus.trans hlisted]
      decide
  | changeUserRole role =>
    rw [hact] at h
    exact changeRole_applies ha hrow (hself h.1) (hothers h.1) role
  | setUserScopes ids =>
    rw [hact] at h hconnections
    refine setScopes_applies ha hrow ?_ hconnections
    rw [show row.role = s.call.user.role from hrole]
    exact h.2.1
  | resetUserPassword => exact resetPassword_applies ha hrow (hcurrent.hash hact)

theorem granted_of_current (hwf : s.db.WellFormed) (h : s.call.action.Offered me s.call.user)
    (hcurrent : s.Current dbms env me) : ∃ r, (s.result dbms env).1 = .ok r := by
  obtain ⟨d,w,hd,hw⟩ := applies_of_current hwf h hcurrent
  obtain ⟨r,hr⟩ := serve_of_succeeded (serve_succeeds hd hw (hcurrent.audit d hd))
  exact ⟨r,congrArg Prod.fst hr⟩

/-- The page enables no applicant and approves nobody who was disabled. -/
theorem not_misrouted (h : s.call.action.Offered me s.call.user)
    (hcurrent : s.Current dbms env me) :
    ¬ Misrouted dbms env ⟨s.ctx,s.call.request⟩ s.db s.call.user.userId := by
  obtain ⟨account,haccount,-,hstatus⟩ := hcurrent.account
  obtain ⟨row,hrow,rfl⟩ := Option.map_eq_some_iff.mp haccount
  rintro ⟨actor,row',hrow',hcases⟩
  rw [hrow,Option.some.injEq] at hrow'
  subst hrow'
  have hlisted : row.status = s.call.user.status := hstatus
  rcases hcases with ⟨hreq,hpending,-⟩ | ⟨role,ids,hreq,hdisabled,-⟩
  · have hact : s.call.action = .setUserEnabled true := by
      cases hact : s.call.action with
      | setUserEnabled enabled => cases enabled <;> simp_all [ApiCall.request]
      | _ => simp [ApiCall.request,hact] at hreq
    rw [hact] at h
    rw [hlisted,h.2] at hpending
    cases hpending
  · have hact : ∃ role ids, s.call.action = .approveUser role ids := by
      cases hact : s.call.action with
      | approveUser role ids => exact ⟨role,ids,rfl⟩
      | setUserEnabled enabled => cases enabled <;> simp [ApiCall.request,hact] at hreq
      | _ => simp [ApiCall.request,hact] at hreq
    obtain ⟨role,ids,hact⟩ := hact
    rw [hact] at h
    rw [hlisted,h.1] at hdisabled
    cases hdisabled

def Button.leadsTo : Button → Option UserStatus
  | .approve | .enable => some .active
  | .reject => some .rejected
  | .disable => some .disabled
  | .scope | .role | .password => none

theorem buttons_transitions (s : Page) (h : user.userId ≠ s.session.user.userId)
    (target : UserStatus) : (∃ b ∈ s.buttons user, b.leadsTo = some target) ↔
      target ∈ allowedTransitions user.status := by
  have hrow : s.rowButtons user = if user.status ≠ .pending ∧ user.status ≠ .rejected then
      (if user.role ≠ .admin then [.scope] else []) ++
        [.role,.password,if user.status = .active then .disable else .enable] else [] := by
    simp only [Page.rowButtons,h,ne_eq,not_false_eq_true,true_and]
  unfold Page.buttons Page.pendingButtons
  rw [hrow]
  by_cases hrole : user.role = .admin <;> cases user.status <;> cases target <;>
    simp [hrole,Button.leadsTo,allowedTransitions]

end
/-- Whatever is done on the page with its row buttons pressed only in view (`Step.inView`), in
whatever order its requests and answers get through, and whatever everybody else does meanwhile:
each request of the page that is served was offered for a row that the server had listed and
announced by the dialog it was confirmed in; it is refused without a trace or does to that account
what was announced; and none is refused that is still current (`Served.Current`). A password is
shown under the name of the account that was reset to it, and for other people's accounts the
buttons are the transitions of the account machine. -/
theorem users_page_keeps_its_word (dbms : Dbms) (env : Env) (me : MeResponse) (db : Database)
    (hwf : db.WellFormed) (steps : List Step)
    (hview : ∀ p ∈ (Office.opened me db).trace dbms env steps, p.2.inView p.1 = true)
    (o : Office) (ho : o = (Office.opened me db).run dbms env steps) :
    (∀ s ∈ o.served, s.KeepsWord dbms env me o) ∧
    (∀ modal, o.page.secret = some modal → ∃ s ∈ o.served,
      s.call.action = .resetUserPassword ∧ modal.name = shownName s.call.user ∧
      (s.result dbms env).1 = .ok (.temporaryPassword modal.value)) ∧
    ∀ user ∈ o.page.users, o.Listed user ∧ (user.userId ≠ me.user.userId → ∀ target,
      (∃ b ∈ o.page.buttons user, b.leadsTo = some target) ↔
        target ∈ allowedTransitions user.status) := by
  subst ho
  have h := (@Office.Kept.opened dbms env db me hwf).run steps hview
  refine ⟨fun s hs => ?_,h.secret,fun user hu => ⟨h.page.users user hu,fun hself target => ?_⟩⟩
  · obtain ⟨hannounced,hwf'⟩ := h.served s hs
    refine ⟨hannounced,served_effect hwf' hannounced.offered,fun hreset r hr => ?_,
      fun hcurrent => ⟨granted_of_current hwf' hannounced.offered hcurrent,
        not_misrouted hannounced.offered hcurrent⟩⟩
    have hreq : s.call.request = .resetPassword s.call.user.userId := by
      simp only [ApiCall.request,hreset]
    exact @mustChange_of_reset dbms env _ s.db _ ⟨s.ctx,s.call.request⟩ r hreq (Prod.ext hr rfl)
  · exact buttons_transitions _ (by rw [h.session]; exact hself) target

/-- Rows that a dialog covers can still be reached by the keyboard; the dialog then names one
account and the request goes to another. -/
example (s : Page) (alice bob : UserResponse) :
    (((s.press alice .approve).press bob .scope).confirmApprove).2 =
      [.act ⟨bob,.approveUser .viewer (selectedScopes (s.scopeBoxes [])),
        .approve (shownName alice) .viewer (s.scopeBoxes [])⟩] := rfl

/-- Connection 7 exists and `alice` has applied. -/
def applicantDatabase : Database :=
  replay .lenient plainEnv rootDatabase [registerAlice,
    ⟨contextOf 1 7 5,.createConnection ⟨"vc","10.0.0.9",443,"svc","pw",true,.vcenter,"https",
      none,none⟩⟩]

def rootSession : MeResponse where
  user := toUserResponse (UserRepository.toAuthenticated root) (some root) none
  permissions := rolePermissions .admin
  accessibleConnections := [⟨7,"vc"⟩]

def listedAlice : UserResponse where
  userId := 2
  username := "alice"
  displayName := none
  email := none
  role := .viewer
  status := .pending
  mustChangePassword := false
  scopes := some []
  lastLoginAt := none
  createdAt := some 10

/-- The list arrives; `alice` is approved as an operator for the connection, while she tries to
sign in. -/
def aliceOffered : List Step :=
  [.serve 0 (contextOf 1 0 20),.deliver 0,.use (.press listedAlice .approve),
    .use (.chooseRole .operator),.use (.tickApprove 0),.use .confirmApprove,
    .other (.login (attemptAt 25 "alice" "longenough1")),.serve 0 (contextOf 1 0 30)]

theorem users_page_keeps_its_word_alice :
    ∃ s ∈ (Office.run .lenient plainEnv aliceOffered
        (.opened rootSession applicantDatabase)).served,
      s.call.user = listedAlice ∧ s.call.action = .approveUser .operator [7] ∧
      (∃ r, (s.result .lenient plainEnv).1 = .ok r) ∧
      (s.result .lenient plainEnv).2.accounts 2 = some ⟨.operator,.active,{7}⟩ := by
  have hserved := (users_page_keeps_its_word .lenient plainEnv rootSession applicantDatabase
    (replay_wellFormed rootDatabase_bootstrapped.wellFormed _) aliceOffered (by decide +kernel)
    _ rfl).1
  obtain ⟨s,hs⟩ : ∃ s, (Office.run .lenient plainEnv aliceOffered
      (.opened rootSession applicantDatabase)).served = [s] :=
    List.length_eq_one_iff.mp (by decide +kernel)
  have hfacts : ∀ s ∈ (Office.run .lenient plainEnv aliceOffered
      (.opened rootSession applicantDatabase)).served,
      s.call.user = listedAlice ∧ s.call.action = .approveUser .operator [7] ∧
      s.ctx.cookie = .valid ⟨1,"",.viewer,0,0,""⟩ ∧ s.db.users.find? 1 = some root ∧
      s.db.accounts 2 = some ⟨.viewer,.pending,∅⟩ ∧ (s.db.connections.find? 7).isSome = true := by
    decide +kernel
  have hmem : s ∈ (Office.run .lenient plainEnv aliceOffered
      (.opened rootSession applicantDatabase)).served := by
    rw [hs]
    exact List.mem_singleton_self s
  obtain ⟨huser,haction,hcookie,hroot,hpending,hconnection⟩ := hfacts s hmem
  have hkept := hserved s hmem
  obtain ⟨r,hr⟩ := (hkept.granted {
    caller := ⟨_,root,hcookie,rfl,hroot,rfl,rfl,rfl⟩
    account := ⟨_,by rw [huser]; exact hpending,by rw [huser]; rfl,by rw [huser]; rfl⟩
    connections := by
      rw [haction]
      simpa [Action.connectionIds] using hconnection
    hash := fun _ => plainEnv_hashpw_storable _ _
    audit := fun _ _ => rfl }).1
  refine ⟨s,hmem,huser,haction,⟨r,hr⟩,?_⟩
  rcases hkept.effect with ⟨e,he⟩ | ⟨r',-,-,hafter⟩
  · rw [he] at hr
    cases hr
  · rw [hafter,ApiCall.event,haction,huser]
    change (s.db.accounts.update 2 _) 2 = _
    rw [Accounts.update_self,hpending]
    rfl

end UsersPage
end WzonePortal
