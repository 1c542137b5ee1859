import WzonePortal.ScopeHistory
import WzonePortal.AuditFailure

/-! Who activates an account. The transition table names target states only, so enabling
takes the edge of an approval out of the pending state, and approving takes the edge of
enabling out of the disabled state. -/
namespace WzonePortal

namespace AccountEvent

/-- Role and scope that a disabled user is to get back, followed from the disabling on. -/
def carries (userId : UUID) (s : Accounts) (before : Option (Role × Finset UUID)) :
    AccountEvent → Option (Role × Finset UUID)
  | .disabled u => if u = userId then (s u).map fun a => (a.role,a.scope) else before
  | .roleChanged u role =>
    if u = userId then before.map fun p => (role,if role = .admin then ∅ else p.2) else before
  | .scopesSet u scope => if u = userId then before.map fun p => (p.1,scope) else before
  | .connectionDeleted c => before.map fun p => (p.1,p.2.erase c)
  | .registered _ => before
  | .approved _ _ _ => before
  | .rejected _ => before
  | .enabled _ => before
  | .unrelated => before

theorem unchanged_of_disabled {s : Accounts} {u v : UUID} {f : Account → Account} {a : Account}
    (ha : s.update v f u = some a) (hf : ∀ b, (f b).status ≠ .disabled)
    (hd : a.status = .disabled) : s u = some a := by
  obtain ⟨b,hb,rfl⟩ := update_eq_some ha
  by_cases hu : u = v
  · rw [if_pos hu] at hd
    exact absurd hd (hf b)
  · rw [if_neg hu]
    exact hb

theorem apply_carries {s : Accounts} {e : AccountEvent} {u : UUID} {a : Account}
    {before : Option (Role × Finset UUID)}
    (hs : ∀ b, s u = some b → b.status = .disabled → before = some (b.role,b.scope))
    (ha : e.apply s u = some a) (hd : a.status = .disabled) :
    e.carries u s before = some (a.role,a.scope) := by
  cases e with
  | registered v =>
    simp only [apply] at ha
    by_cases hu : u = v
    · rw [if_pos hu] at ha
      cases ha
      cases hd
    · rw [if_neg hu] at ha
      exact hs a ha hd
  | connectionDeleted c =>
    obtain ⟨b,hb,rfl⟩ := Option.map_eq_some_iff.mp ha
    simp [carries,hs b hb hd]
  | unrelated => exact hs a ha hd
  | disabled v =>
    obtain ⟨b,hb,rfl⟩ := update_eq_some ha
    by_cases hu : u = v
    · subst hu
      simp [carries,hb]
    · rw [if_neg hu] at hd
      simp [carries,hu,Ne.symm hu,hs b hb hd]
  | roleChanged v role =>
    obtain ⟨b,hb,rfl⟩ := update_eq_some ha
    by_cases hu : u = v
    · subst hu
      rw [if_pos rfl] at hd
      simp [carries,hs b hb hd]
    · rw [if_neg hu] at hd
      simp [carries,hu,Ne.symm hu,hs b hb hd]
  | scopesSet v scope =>
    obtain ⟨b,hb,rfl⟩ := update_eq_some ha
    by_cases hu : u = v
    · subst hu
      rw [if_pos rfl] at hd
      simp [carries,hs b hb hd]
    · rw [if_neg hu] at hd
      simp [carries,hu,Ne.symm hu,hs b hb hd]
  | approved v role scope => exact hs a (unchanged_of_disabled ha (by simp) hd) hd
  | rejected v => exact hs a (unchanged_of_disabled ha (by simp) hd) hd
  | enabled v => exact hs a (unchanged_of_disabled ha (by simp) hd) hd

theorem apply_active {s : Accounts} {e : AccountEvent} {u : UUID} {a : Account}
    (he : e.Enabled s) (ha : e.apply s u = some a) (hactive : a.status = .active) :
    (∃ b, s u = some b ∧ b.status = .active) ∨
    (∃ b, s u = some b ∧ .active ∈ allowedTransitions b.status ∧
      ((∃ role scope, e = .approved u role scope ∧ a.role = role ∧ a.scope = scope) ∨
        (e = .enabled u ∧ a.role = b.role ∧ a.scope = b.scope))) := by
  rcases status_cases ha with ⟨b,hb,hs⟩ | ⟨_,hs⟩ | ⟨role,scope,rfl,rfl⟩ | ⟨_,hs⟩ | ⟨_,hs⟩ |
    ⟨b,rfl,hb,rfl⟩
  · exact .inl ⟨b,hb,hs ▸ hactive⟩
  · rw [hs] at hactive
    cases hactive
  · obtain ⟨⟨b,hb,ht⟩,_⟩ := he
    exact .inr ⟨b,hb,ht,.inl ⟨role,scope,rfl,rfl,rfl⟩⟩
  · rw [hs] at hactive
    cases hactive
  · rw [hs] at hactive
    cases hactive
  · obtain ⟨b',hb',ht⟩ := he
    rw [hb] at hb'
    cases hb'
    exact .inr ⟨b,hb,ht,.inr ⟨rfl,rfl,rfl⟩⟩

theorem apply_disabled {s : Accounts} {e : AccountEvent} {u : UUID} {a : Account}
    (he : e.Enabled s) (ha : e.apply s u = some a) (hd : a.status = .disabled) :
    ∃ b, s u = some b ∧ (b.status = .active ∨ b.status = .disabled) := by
  rcases status_cases ha with ⟨b,hb,hs⟩ | ⟨_,hs⟩ | ⟨_,_,rfl,rfl⟩ | ⟨_,hs⟩ | ⟨rfl,_⟩ |
    ⟨_,rfl,_,rfl⟩
  · exact ⟨b,hb,.inr (hs ▸ hd)⟩
  · rw [hs] at hd
    cases hd
  · cases hd
  · rw [hs] at hd
    cases hd
  · obtain ⟨b,hb,ht⟩ := he
    refine ⟨b,hb,?_⟩
    cases hs : b.status <;> simp_all [allowedTransitions]
  · cases hd

end AccountEvent

/-- What a disabled user is to get back, over a history listed newest first. -/
def carried (dbms : Dbms) (env : Env) (db : Database) (userId : UUID) :
    List Call → Option (Role × Finset UUID)
  | [] => none
  | call::earlier =>
    let before := replay dbms env db earlier
    if call.succeeded dbms env before then
      (call.event env before).carries userId before.accounts (carried dbms env db userId earlier)
    else carried dbms env db userId earlier

/-- Calls that activate an account keep to their edge: out of the pending state only an
approval, with its role, scopes and audit row; out of the disabled state only enabling,
which gives back role and scopes. -/
structure GatedStep (dbms : Dbms) (env : Env) (db : Database) (call : Call) (earlier : List Call)
    (u : UUID) : Prop where
  origin : ∀ b, (replay dbms env db (call::earlier)).accounts u = some b → b.status = .active →
    ∃ a, (replay dbms env db earlier).accounts u = some a ∧ a.status ∈ [.pending,.active,.disabled]
  activation : ∀ a b, (replay dbms env db earlier).accounts u = some a → a.status = .pending →
    (replay dbms env db (call::earlier)).accounts u = some b → b.status = .active →
    ∃ role ids, call.request = .approve u role ids ∧ b.role = role ∧
      b.scope = (UserAdminService.grantedIds role ids).toFinset ∧
      ∃ row, (replay dbms env db (call::earlier)).auditEvents =
          (replay dbms env db earlier).auditEvents ++ [row] ∧
        row.action = .userApprove ∧ row.result = .success ∧ row.targetId = some u.str
  reactivation : ∀ a b, (replay dbms env db earlier).accounts u = some a → a.status = .disabled →
    (replay dbms env db (call::earlier)).accounts u = some b → b.status = .active →
    call.request = .enable u ∧ carried dbms env db u earlier = some (b.role,b.scope)

/-- Every call of a history is gated, and an active account has once left the pending
state for the active one. -/
structure ApprovalGate (dbms : Dbms) (env : Env) (db : Database) (admin : UUID)
    (calls : List Call) : Prop where
  steps : ∀ call earlier, call::earlier <:+ calls → ∀ u, u ≠ admin →
    GatedStep dbms env db call earlier u
  activated : ∀ u, u ≠ admin → ∀ a, (replay dbms env db calls).accounts u = some a →
    a.status = .active → ∃ call earlier b c, call::earlier <:+ calls ∧
      (replay dbms env db earlier).accounts u = some b ∧ b.status = .pending ∧
      (replay dbms env db (call::earlier)).accounts u = some c ∧ c.status = .active

/-- An authorized administrator enables a pending user, or approves a disabled one with
connections that exist; the database takes the audit row. -/
def Misrouted (dbms : Dbms) (env : Env) (call : Call) (db : Database) (u : UUID) : Prop :=
  ∃ actor row, db.users.find? u = some row ∧
    ((call.request = .enable u ∧ row.status = .pending ∧
      Deps.authorized call.ctx (Routes.userPath u "/enable") .userManage db = .ok actor ∧
      dbms.acceptsAudit (AuditRepository.eventRow call.ctx.now
        (UserAdminService.adminEvent env call.ctx actor .userEnable u
          [("username",.text row.username)])) = true) ∨
    (∃ role ids, call.request = .approve u role ids ∧ row.status = .disabled ∧
      Deps.authorized call.ctx (Routes.userPath u "/approve") .userManage db = .ok actor ∧
      (∀ c ∈ UserAdminService.grantedIds role ids, (db.connections.find? c).isSome) ∧
      dbms.acceptsAudit (AuditRepository.eventRow call.ctx.now
        (UserAdminService.adminEvent env call.ctx actor .userApprove u
          [("username",.text row.username),("role",.text role.value),
            ("connection_count",.int (UserAdminService.grantedIds role ids).length)])) = true))

theorem nodup_eraseDups {α : Type} [DecidableEq α] (l : List α) : l.eraseDups.Nodup := by
  induction h : l.length using Nat.strong_induction_on generalizing l with
  | _ n ih =>
    cases l with
    | nil => simp
    | cons a as =>
      have hlt : (as.filter fun b => !b == a).length < n := by
        have hle := List.length_filter_le (fun b => !b == a) as
        simp only [List.length_cons] at h
        omega
      rw [List.eraseDups_cons,List.nodup_cons]
      exact ⟨by simp,ih _ hlt _ rfl⟩

section
variable {dbms : Dbms} {env : Env} {ctx : Context} {db : Database}

open UserRepository

theorem replaceScopes_succeeds {userId : UUID} {ids : List UUID} (grantedBy : Option String)
    (at_ : Timestamp) (hids : ∀ c ∈ ids, (db.connections.find? c).isSome)
    (huser : (db.users.find? userId).isSome) :
    ∃ db', (Write.replaceScopes userId ids grantedBy at_).apply dbms db = .ok db' := by
  have hall : ids.all (fun c => (db.connections.find? c).isSome &&
      (db.users.find? userId).isSome) = true := by
    simpa [huser] using hids
  have hkeys : ((scopeRows userId ids grantedBy at_).map UserConnectionScopeRow.key).Nodup := by
    simp only [scopeRows,List.map_map]
    refine (nodup_eraseDups ids).map fun c d h => ?_
    exact congrArg Prod.snd h
  have hnew : ∀ r ∈ scopeRows userId ids grantedBy at_, r.key ∉
      (db.userConnectionScopes.deleteWhere fun r => r.userId = userId).rows.map
        UserConnectionScopeRow.key := by
    intro r hr hm
    obtain ⟨c,_,rfl⟩ := List.mem_map.mp hr
    obtain ⟨q,hq,hk⟩ := List.mem_map.mp hm
    have hne := ((Table.mem_deleteWhere _ _ _).mp hq).2
    have heq : q.userId = userId := congrArg Prod.fst hk
    simp [heq] at hne
  obtain ⟨scopes,hs⟩ := Table.insertAll_isSome hkeys hnew
  simp only [Write.apply,hall,if_true,hs]
  exact ⟨_,rfl⟩

theorem approverName_storable (h : db.WellFormed) {path : String} {actor : AccessScope}
    (ha : Deps.authorized ctx path .userManage db = .ok actor) (status : UserStatus)  :
    (statusPatch ctx.now status (some actor.username) none).storable = true := by
  obtain ⟨row,hrow,_,_,hname,_⟩ := Deps.authorized_ok ha
  have hs := h.usernames row ((Table.find?_eq_some _ _ _).mp hrow).1
  rw [hname] at hs
  cases status <;> simp [UserPatch.storable,statusPatch,hs]

theorem serve_succeeds {req : Request} {d : Decision} {w : Database}
    (hd : req.decide env ctx db = .ok d) (hw : Write.applyAll dbms d.writes db = .ok w)
    (ha : dbms.acceptsAudit (AuditRepository.eventRow ctx.now d.event) = true) :
    (⟨ctx,req⟩ : Call).succeeded dbms env db = true := by
  have hserve : (⟨ctx,req⟩ : Call).serve dbms env db =
      (.ok d.response,w.addAudit (AuditRepository.eventRow ctx.now d.event)) := by
    unfold Call.serve
    rw [serve_handler,hd]
    simp only [settle,hw,ha,if_true]
  simp only [Call.succeeded,hserve]

theorem decideUser_eq {path : String} {userId : UUID} {actor : AccessScope} {row : UserRow}
    (ha : Deps.authorized ctx path .userManage db = .ok actor)
    (hrow : db.users.find? userId = some row)
    (method : AccessScope → UserRow → Except Exc Decision) :
    decideUser ctx db path userId method = method actor row := by
  obtain ⟨_,_,_,_,_,hp⟩ := Deps.authorized_ok ha
  have hrequire : actor.require .userManage = .ok () := scope_require_eq_ok.mpr hp
  unfold decideUser
  rw [ha,UserAdminService.userRow_eq_ok.mpr hrow]
  change (actor.require .userManage >>= fun _ => method actor row) = _
  rw [hrequire]
  rfl

theorem decideEnable_eq {userId : UUID} {actor : AccessScope} {row : UserRow}
    (ha : Deps.authorized ctx (Routes.userPath userId "/enable") .userManage db = .ok actor)
    (hrow : db.users.find? userId = some row) (ht : .active ∈ allowedTransitions row.status) :
    decideEnable env ctx db userId = .ok ⟨
      [.patchUser userId (statusPatch ctx.now .active (some actor.username) none)],
      UserAdminService.adminEvent env ctx actor .userEnable userId [("username",.text row.username)],
      .noContent⟩ := by
  have hcheck : checkTransition row.status .active = .ok () := checkTransition_eq_ok.mpr ht
  unfold decideEnable
  rw [decideUser_eq ha hrow,hcheck]
  rfl

theorem decideApprove_eq {userId : UUID} {role : Role} {ids : List UUID} {actor : AccessScope}
    {row : UserRow}
    (ha : Deps.authorized ctx (Routes.userPath userId "/approve") .userManage db = .ok actor)
    (hrow : db.users.find? userId = some row) (ht : .active ∈ allowedTransitions row.status) :
    decideApprove env ctx db userId role ids = .ok ⟨
      [.patchUser userId (statusPatch ctx.now .active (some actor.username) none),
        .patchUser userId (rolePatch ctx.now role),
        .replaceScopes userId (UserAdminService.grantedIds role ids) (some actor.username) ctx.now],
      UserAdminService.adminEvent env ctx actor .userApprove userId
        [("username",.text row.username),("role",.text role.value),
          ("connection_count",.int (UserAdminService.grantedIds role ids).length)],
      .noContent⟩ := by
  have hcheck : checkTransition row.status .active = .ok () := checkTransition_eq_ok.mpr ht
  unfold decideApprove
  rw [decideUser_eq ha hrow,hcheck]
  rfl

theorem misrouted_succeeds (h : db.WellFormed) {call : Call} {u : UUID}
    (hm : Misrouted dbms env call db u) : call.succeeded dbms env db = true := by
  rcases call with ⟨ctx,request⟩
  obtain ⟨actor,row,hrow,⟨hreq,hs,hactor,haudit⟩ | ⟨role,ids,hreq,hs,hactor,hids,haudit⟩⟩ := hm
  · cases hreq
    have hd := @decideEnable_eq env ctx db u actor row hactor hrow (by rw [hs]; decide)
    have hstorable := approverName_storable h hactor .active
    have hw : Write.applyAll dbms
        [.patchUser u (statusPatch ctx.now .active (some actor.username) none)] db =
          .ok (db.patchUser u (statusPatch ctx.now .active (some actor.username) none)) := by
      simp only [Write.applyAll,Write.apply,hstorable,if_true]
    exact serve_succeeds hd hw haudit
  · cases hreq
    have hd := @decideApprove_eq env ctx db u role ids actor row hactor hrow (by rw [hs]; decide)
    have hstorable := approverName_storable h hactor .active
    have hrole : (rolePatch ctx.now role).storable = true := rfl
    obtain ⟨w,hw⟩ : ∃ w, (Write.replaceScopes u (UserAdminService.grantedIds role ids)
        (some actor.username) ctx.now).apply dbms
        ((db.patchUser u (statusPatch ctx.now .active (some actor.username) none)).patchUser u
          (rolePatch ctx.now role)) = .ok w := by
      refine replaceScopes_succeeds _ _ hids ?_
      rw [find?_patched (find?_patched hrow _) _]
      rfl
    have hall : Write.applyAll dbms
        [.patchUser u (statusPatch ctx.now .active (some actor.username) none),
          .patchUser u (rolePatch ctx.now role),
          .replaceScopes u (UserAdminService.grantedIds role ids) (some actor.username) ctx.now] db =
        .ok w := by
      simp only [Write.applyAll,Write.apply,hstorable,hrole,if_true] at hw ⊢
      rw [hw]
    exact serve_succeeds hd hall haudit

theorem event_eq_approved {call : Call} {u : UUID} {role : Role} {scope : Finset UUID}
    (h : call.event env db = .approved u role scope) : ∃ ids,
    call.request = .approve u role ids ∧ scope = (UserAdminService.grantedIds role ids).toFinset := by
  rcases call with ⟨ctx,request⟩
  cases request with
  | approve v r ids =>
    cases h
    exact ⟨ids,rfl,rfl⟩
  | register payload =>
    simp only [Call.event,Request.event] at h
    split at h <;> cases h
  | _ => cases h

theorem event_eq_enabled {call : Call} {u : UUID} (h : call.event env db = .enabled u) :
    call.request = .enable u := by
  rcases call with ⟨ctx,request⟩
  cases request with
  | enable v => cases h; rfl
  | register payload =>
    simp only [Call.event,Request.event] at h
    split at h <;> cases h
  | _ => cases h

theorem enable_pending_misrouted {call : Call} {u : UUID} {a : Account}
    (hs : call.succeeded dbms env db = true) (hreq : call.request = .enable u)
    (ha : db.accounts u = some a) (hp : a.status = .pending) : Misrouted dbms env call db u := by
  obtain ⟨r,hr⟩ := serve_of_succeeded hs
  obtain ⟨d,w,hd,_,haudit,_,_⟩ := serve_ok hr
  rw [hreq] at hd
  obtain ⟨actor,row,hactor,hrow,ht,_⟩ := enable_ok hd
  rw [accounts_of_find hrow] at ha
  cases ha
  have heq := @decideEnable_eq env call.ctx db u actor row hactor hrow ht
  rw [Request.decide,heq] at hd
  cases hd
  exact ⟨actor,row,hrow,.inl ⟨hreq,hp,hactor,haudit⟩⟩

theorem approve_connections {userId : UUID} {role : Role} {ids : List UUID} {d : Decision}
    {w : Database} (hd : decideApprove env ctx db userId role ids = .ok d)
    (hw : Write.applyAll dbms d.writes db = .ok w) :
    ∀ c ∈ UserAdminService.grantedIds role ids, (db.connections.find? c).isSome := by
  obtain ⟨actor,row,_,_,_,hwrites,_⟩ := approve_ok hd
  rw [hwrites] at hw
  obtain ⟨mid,h1,hw⟩ := Write.applyAll_cons hw
  obtain ⟨mid',h2,hw⟩ := Write.applyAll_cons hw
  have h3 := applyAll_singleton hw
  have hconn : mid'.connections = db.connections := by
    rw [(Write.apply_patchUser h2).2,(Write.apply_patchUser h1).2]
    rfl
  intro c hc
  have hc := (Write.apply_replaceScopes h3).1 c hc
  rw [hconn] at hc
  exact hc.1

theorem approve_disabled_misrouted {call : Call} {u : UUID} {a : Account} {role : Role}
    {ids : List UUID} (hs : call.succeeded dbms env db = true)
    (hreq : call.request = .approve u role ids) (ha : db.accounts u = some a)
    (hp : a.status = .disabled) : Misrouted dbms env call db u := by
  obtain ⟨r,hr⟩ := serve_of_succeeded hs
  obtain ⟨d,w,hd,hw,haudit,_,_⟩ := serve_ok hr
  rw [hreq] at hd
  have hids := approve_connections hd hw
  obtain ⟨actor,row,hactor,hrow,ht,_,_⟩ := approve_ok hd
  rw [accounts_of_find hrow] at ha
  cases ha
  have heq := @decideApprove_eq env call.ctx db u role ids actor row hactor hrow ht
  rw [Request.decide,heq] at hd
  cases hd
  exact ⟨actor,row,hrow,.inr ⟨role,ids,hreq,hp,hactor,hids,haudit⟩⟩

theorem approve_audited {call : Call} {u : UUID} {role : Role} {ids : List UUID}
    (hs : call.succeeded dbms env db = true) (hreq : call.request = .approve u role ids) :
    ∃ row, (call.serve dbms env db).2.auditEvents = db.auditEvents ++ [row] ∧
      row.action = .userApprove ∧ row.result = .success ∧ row.targetId = some u.str := by
  obtain ⟨r,hr⟩ := serve_of_succeeded hs
  obtain ⟨d,w,hd,hw,_,_,hdb⟩ := serve_ok hr
  have hevents : w.auditEvents = db.auditEvents := applyAll_plain_auditEvents (decide_plain hd) hw
  rw [hreq] at hd
  obtain ⟨actor,row,_,_,_,_,hevent⟩ := approve_ok hd
  refine ⟨AuditRepository.eventRow call.ctx.now d.event,?_,?_,?_,?_⟩
  · rw [hdb,Database.addAudit,hevents]
  all_goals
    rw [hevent]
    rfl

end

section
variable {dbms : Dbms} {env : Env} {db : Database}

theorem carried_eq (dbms : Dbms) (env : Env) (h : db.WellFormed)
    (h0 : ∀ u a, db.accounts u = some a → a.status = .active) (u : UUID) (calls : List Call) :
    ∀ a, (replay dbms env db calls).accounts u = some a → a.status = .disabled →
      carried dbms env db u calls = some (a.role,a.scope) := by
  induction calls with
  | nil =>
    intro a ha hd
    rw [h0 u a ha] at hd
    cases hd
  | cons call earlier ih =>
    intro a ha hd
    rcases replay_cons_accounts dbms env h call earlier with ⟨hs,_,hafter⟩ | ⟨hs,hafter⟩
    · rw [hafter] at ha
      simp only [carried,hs,if_true]
      exact AccountEvent.apply_carries ih ha hd
    · rw [hafter] at ha
      simp only [carried,hs,Bool.false_eq_true,if_false]
      exact ih a ha hd

theorem Bootstrapped.account_admin {admin : UUID} (h : Bootstrapped db admin) :
    ∀ u a, db.accounts u = some a → u = admin ∧ a.status = .active := by
  intro u a ha
  obtain ⟨r,hr,rfl⟩ := Option.map_eq_some_iff.mp ha
  obtain ⟨row,hrow,hid,_,hs,_⟩ := h.users
  obtain ⟨hmem,hkey⟩ := (Table.find?_eq_some _ _ _).mp hr
  rw [hrow,List.mem_singleton] at hmem
  subst hmem
  exact ⟨by rw [← hkey,hid],hs⟩

/-- A call without a misrouted user is gated. -/
theorem gatedStep (hwf : db.WellFormed)
    (h0 : ∀ u a, db.accounts u = some a → a.status = .active) {call : Call} {earlier : List Call}
    {u : UUID} (hm : ¬ Misrouted dbms env call (replay dbms env db earlier) u) :
    GatedStep dbms env db call earlier u := by
  rcases replay_cons_accounts dbms env hwf call earlier with ⟨hs,he,hafter⟩ | ⟨_,hafter⟩
  · refine ⟨fun b hb hactive => ?_,fun a b ha hp hb hactive => ?_,fun a b ha hd hb hactive => ?_⟩
    · rw [hafter] at hb
      rcases AccountEvent.apply_active he hb hactive with ⟨a,ha,hs'⟩ | ⟨a,ha,ht,_⟩
      · exact ⟨a,ha,by simp [hs']⟩
      · exact ⟨a,ha,by cases hst : a.status <;> simp_all [allowedTransitions]⟩
    · rw [hafter] at hb
      rcases AccountEvent.apply_active he hb hactive with
        ⟨a',ha',hs'⟩ | ⟨a',ha',_,⟨role,scope,hevent,hrole,hscope⟩ | ⟨hevent,_,_⟩⟩
      · rw [ha] at ha'
        cases ha'
        rw [hp] at hs'
        cases hs'
      · obtain ⟨ids,hreq,hids⟩ := event_eq_approved hevent
        exact ⟨role,ids,hreq,hrole,hscope.trans hids,approve_audited hs hreq⟩
      · exact absurd (enable_pending_misrouted hs (event_eq_enabled hevent) ha hp) hm
    · rw [hafter] at hb
      have hcarried := carried_eq dbms env hwf h0 u earlier a ha hd
      rcases AccountEvent.apply_active he hb hactive with
        ⟨a',ha',hs'⟩ | ⟨a',ha',_,⟨role,scope,hevent,_,_⟩ | ⟨hevent,hrole,hscope⟩⟩
      · rw [ha] at ha'
        cases ha'
        rw [hd] at hs'
        cases hs'
      · obtain ⟨ids,hreq,_⟩ := event_eq_approved hevent
        exact absurd (approve_disabled_misrouted hs hreq ha hd) hm
      · rw [ha] at ha'
        cases ha'
        exact ⟨event_eq_enabled hevent,by rw [hcarried,hrole,hscope]⟩
  · refine ⟨fun b hb hactive => ?_,fun a b ha hp hb hactive => ?_,fun a b ha hd hb hactive => ?_⟩
    · rw [hafter] at hb
      exact ⟨b,hb,by simp [hactive]⟩
    · rw [hafter,ha] at hb
      cases hb
      rw [hp] at hactive
      cases hactive
    · rw [hafter,ha] at hb
      cases hb
      rw [hd] at hactive
      cases hactive

/-- A user who is active or disabled has once been activated out of the pending state. -/
theorem activated_once (hwf : db.WellFormed) {u : UUID} (h0 : db.accounts u = none)
    (calls : List Call) : ∀ a, (replay dbms env db calls).accounts u = some a →
      a.status = .active ∨ a.status = .disabled → ∃ call earlier b c, call::earlier <:+ calls ∧
        (replay dbms env db earlier).accounts u = some b ∧ b.status = .pending ∧
        (replay dbms env db (call::earlier)).accounts u = some c ∧ c.status = .active := by
  induction calls with
  | nil =>
    intro a ha
    have hnone : (replay dbms env db []).accounts u = none := h0
    rw [hnone] at ha
    cases ha
  | cons call earlier ih =>
    intro a ha hstatus
    have hextend : ∀ b, (replay dbms env db earlier).accounts u = some b →
        b.status = .active ∨ b.status = .disabled → ∃ call' earlier' b c,
          call'::earlier' <:+ call::earlier ∧
          (replay dbms env db earlier').accounts u = some b ∧ b.status = .pending ∧
          (replay dbms env db (call'::earlier')).accounts u = some c ∧ c.status = .active := by
      intro b hb hs
      obtain ⟨call',earlier',b',c',hsuffix,hrest⟩ := ih b hb hs
      exact ⟨call',earlier',b',c',hsuffix.trans (List.suffix_cons call earlier),hrest⟩
    rcases replay_cons_accounts dbms env hwf call earlier with ⟨_,he,hafter⟩ | ⟨_,hafter⟩
    · have hnow := ha
      rw [hafter] at ha
      rcases hstatus with hactive | hd
      · rcases AccountEvent.apply_active he ha hactive with ⟨b,hb,hs⟩ | ⟨b,hb,ht,_⟩
        · exact hextend b hb (.inl hs)
        · cases hs : b.status with
          | pending => exact ⟨call,earlier,b,a,List.suffix_rfl,hb,hs,hnow,hactive⟩
          | disabled => exact hextend b hb (.inr hs)
          | active => exact hextend b hb (.inl hs)
          | rejected => simp [hs,allowedTransitions] at ht
      · obtain ⟨b,hb,hs⟩ := AccountEvent.apply_disabled he ha hd
        exact hextend b hb hs
    · rw [hafter] at ha
      exact hextend a ha hstatus

theorem misrouted_not_gated (hwf : db.WellFormed) {call : Call} {earlier : List Call} {u : UUID}
    (hm : Misrouted dbms env call (replay dbms env db earlier) u) :
    ¬ GatedStep dbms env db call earlier u := by
  intro hg
  have hs := misrouted_succeeds (replay_wellFormed hwf earlier) hm
  have hafter : (replay dbms env db (call::earlier)).accounts =
      (call.event env (replay dbms env db earlier)).apply (replay dbms env db earlier).accounts := by
    rcases replay_cons_accounts dbms env hwf call earlier with ⟨_,_,hafter⟩ | ⟨hf,_⟩
    · exact hafter
    · rw [hs] at hf
      cases hf
  obtain ⟨actor,row,hrow,⟨hreq,hst,_⟩ | ⟨role,ids,hreq,hst,_⟩⟩ := hm
  · have hevent : call.event env (replay dbms env db earlier) = .enabled u := by
      rw [Call.event,hreq,Request.event]
    have hb : (replay dbms env db (call::earlier)).accounts u =
        some ⟨row.role,.active,((replay dbms env db earlier).scopesOf u).toFinset⟩ := by
      rw [hafter,hevent,AccountEvent.apply,Accounts.update_self,accounts_of_find hrow]
      rfl
    obtain ⟨role,ids,happrove,_⟩ := hg.activation _ _ (accounts_of_find hrow) hst hb rfl
    rw [hreq] at happrove
    cases happrove
  · have hevent : call.event env (replay dbms env db earlier) =
        .approved u role (UserAdminService.grantedIds role ids).toFinset := by
      rw [Call.event,hreq,Request.event]
    have hb : (replay dbms env db (call::earlier)).accounts u =
        some ⟨role,.active,(UserAdminService.grantedIds role ids).toFinset⟩ := by
      rw [hafter,hevent,AccountEvent.apply,Accounts.update_self,accounts_of_find hrow]
      rfl
    obtain ⟨henable,_⟩ := hg.reactivation _ _ (accounts_of_find hrow) hst hb rfl
    rw [hreq] at henable
    cases henable

end

/-- Over every history from the first start, the gate holds exactly when no call enables a
pending user or approves a disabled one. -/
theorem approval_gate_iff_not_misrouted (dbms : Dbms) (env : Env) (db : Database) (admin : UUID)
    (hboot : Bootstrapped db admin) (calls : List Call) :
    ApprovalGate dbms env db admin calls ↔ ∀ call earlier, call::earlier <:+ calls →
      ∀ u, u ≠ admin → ¬ Misrouted dbms env call (replay dbms env db earlier) u := by
  have hwf := hboot.wellFormed
  constructor
  · intro h call earlier hsuffix u hu hm
    exact misrouted_not_gated hwf hm (h.steps call earlier hsuffix u hu)
  · intro h
    refine ⟨fun call earlier hsuffix u hu => ?_,fun u hu a ha hactive => ?_⟩
    · exact gatedStep hwf (fun v a ha => (hboot.account_admin v a ha).2) (h call earlier hsuffix u hu)
    · have h0 : db.accounts u = none := by
        rw [Option.eq_none_iff_forall_ne_some]
        intro b hb
        exact hu (hboot.account_admin u b hb).1
      exact activated_once hwf h0 calls a ha (.inl hactive)

theorem approval_gate_iff_not_misrouted_alice :
    ApprovalGate .lenient plainEnv rootDatabase 1 aliceApproved ↔
      ∀ call earlier, call::earlier <:+ aliceApproved →
        ∀ u, u ≠ 1 → ¬ Misrouted .lenient plainEnv call
          (replay .lenient plainEnv rootDatabase earlier) u :=
  approval_gate_iff_not_misrouted .lenient plainEnv rootDatabase 1 rootDatabase_bootstrapped
    aliceApproved

/-- The administrator enables a registration that nobody has approved. -/
def aliceEnabled : List Call := [byRoot 30 (.enable 2),registerAlice]

theorem enabled_without_approval :
    ¬ ApprovalGate .lenient plainEnv rootDatabase 1 aliceEnabled := by
  intro h
  have hstep := h.steps _ _ (List.suffix_rfl) 2 (by decide)
  have hbefore : (replay .lenient plainEnv rootDatabase [registerAlice]).accounts 2 =
      some ⟨.viewer,.pending,∅⟩ := by decide
  have hafter : (replay .lenient plainEnv rootDatabase aliceEnabled).accounts 2 =
      some ⟨.viewer,.active,∅⟩ := by decide
  obtain ⟨role,ids,hreq,_⟩ := hstep.activation _ _ hbefore rfl hafter rfl
  cases hreq

end WzonePortal
