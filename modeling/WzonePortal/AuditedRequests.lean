import WzonePortal.SessionRoutes
import WzonePortal.TransactionRules

/-! What a transaction has flushed when it commits: nothing, or the statements of one act and
behind them the audit row that tells of it. -/
namespace WzonePortal

namespace AuditAction

def status? : AuditAction → Option UserStatus
  | .userApprove => some .active
  | .userEnable => some .active
  | .userReject => some .rejected
  | .userDisable => some .disabled
  | _ => none

def silent : AuditAction → Bool
  | .userApprove | .userEnable | .userReject | .userDisable | .userRegister => false
  | _ => true

def administrative : AuditAction → Bool
  | .login | .logout | .passwordChange | .userRegister | .userRegisterDuplicate => false
  | _ => true

/-- The columns of an account that an act may change. -/
structure Permits (action : AuditAction) (p : UserPatch) : Prop where
  status : p.status = none ∨ p.status = action.status?
  role : p.role ≠ none → action = .userApprove ∨ action = .userRoleChange
  passwordHash : p.passwordHash ≠ none →
    action = .login ∨ action = .passwordChange ∨ action = .userPasswordReset

theorem Permits.changedFrom {action : AuditAction} {p : UserPatch} (h : action.Permits p)
    (r : UserRow) : action.Permits (p.changedFrom r) := by
  refine ⟨?_,fun hrole => h.role ?_,fun hhash => h.passwordHash ?_⟩
  · rcases h.status with hs | hs
    · exact .inl (by simp [UserPatch.changedFrom,hs])
    · rw [UserPatch.changedFrom,← hs]
      cases p.status with
      | none => exact .inl rfl
      | some s => by_cases hne : s = r.status <;> simp [Option.filter,hne]
  · intro hnone
    exact hrole (by simp [UserPatch.changedFrom,hnone])
  · intro hnone
    exact hhash (by simp [UserPatch.changedFrom,hnone])

end AuditAction

namespace AuditEventRow

/-- The row tells of a successful act on the account of a user. -/
def Names (row : AuditEventRow) (userId : UUID) : Prop :=
  row.result = .success ∧ row.targetType = some "user" ∧ row.targetId = some userId.str

instance (row : AuditEventRow) (userId : UUID) : Decidable (row.Names userId) :=
  inferInstanceAs (Decidable (_ ∧ _))

/-- The row tells of a successful act on a connection. -/
def NamesConnection (row : AuditEventRow) (connectionId : UUID) : Prop :=
  row.result = .success ∧ row.targetType = some "connection" ∧
    row.targetId = some connectionId.str

/-- The row names the actor. -/
def By (name : String) (row : AuditEventRow) : Prop := row.actor = some name

/-- The row tells of an act that everybody may do. -/
def Own (row : AuditEventRow) : Prop := row.action.administrative = false

/-- The status of a user after what the row tells: a registration names him, everything else
his account. -/
def toldStatus (row : AuditEventRow) (userId : UUID) (username : String) : Option UserStatus :=
  if row.action = .userRegister then
    if row.actor = some username then some .pending else none
  else if row.Names userId then row.action.status?
  else none

/-- The statement belongs to the act that the row tells of. -/
def Covers (row : AuditEventRow) : Write → Prop
  | .patchUser userId p => row.Names userId ∧ row.action.Permits p
  | .insertUser r => row.action = .userRegister ∧ row.actor = some r.username ∧
      r.status = .pending ∧ r.role = .viewer
  | .replaceScopes userId _ _ _ => row.Names userId ∧
      (row.action = .userApprove ∨ row.action = .userRoleChange ∨ row.action = .scopeUpdate)
  | .insertConnection r => row.NamesConnection r.connectionId ∧ row.action = .connectionCreate
  | .deleteConnection c => row.NamesConnection c ∧ row.action = .connectionDelete
  | .insertAudit _ => False

/-- The row accounts for the statements, and what it tells of is done by one of them. -/
structure Explains (row : AuditEventRow) (ws : List Write) : Prop where
  covers : ∀ w ∈ ws, row.Covers w
  told : ∀ u s, row.Names u → row.action.status? = some s →
    ∃ p, .patchUser u p ∈ ws ∧ p.status = some s
  registered : row.action = .userRegister →
    ∃ r, .insertUser r ∈ ws ∧ row.actor = some r.username

theorem explains_of_silent {row : AuditEventRow} {ws : List Write} (h : ∀ w ∈ ws, row.Covers w)
    (hsilent : row.action.silent = true) : row.Explains ws := by
  refine ⟨h,fun u s _ hs => ?_,fun ha => ?_⟩
  · cases ha : row.action <;> simp [ha,AuditAction.status?,AuditAction.silent] at hs hsilent
  · rw [ha] at hsilent
    cases hsilent

theorem explains_of_status {row : AuditEventRow} {ws : List Write} {userId : UUID}
    {target : UserStatus} (hname : row.Names userId) (h : ∀ w ∈ ws, row.Covers w)
    (htarget : row.action.status? = some target)
    (htold : ∃ p, .patchUser userId p ∈ ws ∧ p.status = some target) : row.Explains ws := by
  refine ⟨h,fun u s hu hs => ?_,fun ha => by rw [ha] at htarget; cases htarget⟩
  have he : u.str = userId.str := Option.some.inj (hu.2.2.symm.trans hname.2.2)
  rw [UUID.str_injective he,← Option.some.inj (htarget.symm.trans hs)]
  exact htold

end AuditEventRow

namespace Transaction

/-- The transaction has flushed nothing, or an act and its audit row, with `φ` of the row. -/
def Accounted (φ : AuditEventRow → Prop) (tx : Transaction) : Prop :=
  tx.pending = [] ∨ ∃ ws row, tx.pending = ws ++ [.insertAudit row] ∧ φ row ∧ row.Explains ws

/-- What holds at every commit: an administrative act is told of an administrator who was
active when the transaction read his row. -/
def Justified (tx : Transaction) : Prop :=
  tx.inactive = true ∨ tx.pending = [] ∨ ∃ ws row, tx.pending = ws ++ [.insertAudit row] ∧
    row.Explains ws ∧ (row.action.administrative = true →
      ∃ r ∈ tx.read, Database.isActiveAdmin r = true ∧ row.actor = some r.username)

theorem accounted_fail (φ : AuditEventRow → Prop) : Transaction.fail.Accounted φ := .inl rfl

end Transaction

open Transaction ReadCommitted AuditEventRow

/-- Rows are read from the database before the first write only. -/
def ReadsFirst (q : Query) (tx : Transaction) : Prop :=
  tx.pending = [] ∨ (tx.cached q).isSome = true

/-- The contract of a service method: it reads, then writes, and leaves the end to its route. -/
def Flushing : Stmt → Transaction → Prop
  | .query q, tx => ReadsFirst q tx
  | .write _, _ => True
  | .commit, _ => False
  | .rollback, _ => False

/-- The contract of a session. -/
def Audited : Stmt → Transaction → Prop
  | .query q, tx => ReadsFirst q tx
  | .write _, _ => True
  | .commit, tx => tx.Justified
  | .rollback, _ => True

theorem audited_of_flushing {o : Stmt} {tx : Transaction} (h : Flushing o tx) : Audited o tx := by
  cases o with
  | query q => exact h
  | write w => trivial
  | commit => exact h.elim
  | rollback => exact h.elim

def Stmt.IsQuery : Stmt → Prop
  | .query _ => True
  | _ => False

section
variable {dbms : Dbms} {C : Stmt → Transaction → Prop} {tx : Transaction} {userId : UUID}
  {row row' : UserRow} {α β : Type}

theorem remember_pending (tx : Transaction) (q : Query) (r : q.Res) :
    (tx.remember q r).pending = tx.pending := by
  have hload : ∀ found : Option UserRow,
      (Option.elim found tx tx.load).pending = tx.pending := by
    intro found
    cases found with
    | none => rfl
    | some row =>
      simp only [Option.elim_some,load]
      split <;> rfl
  cases q <;> first | exact hload _ | rfl

theorem execQuery_pending (h : tx.pending = []) (q : Query) (db : Database) :
    (execQuery dbms q db tx).2.2.pending = [] := by
  unfold execQuery
  split
  · exact h
  · split
    · exact h
    · split
      · exact (remember_pending tx q _).trans h
      · rfl

theorem wp_reads {p : Service β} {Q : Except Exc β → Transaction → Prop}
    (hflushing : ∀ o tx, Flushing o tx → C o tx)
    (h : p.wp (exec dbms) (OnCommit fun _ => True) Q tx) (hquery : p.Issues Stmt.IsQuery)
    (hpending : tx.pending = []) : p.wp (exec dbms) C Q tx := by
  have hboth := Script.wp_invariant (J:=fun tx => tx.pending = []) (Script.wp_and h hquery.wp)
    ?_ hpending
  · refine Script.wp_mono (Script.wp_contract hboth fun o tx ho => ?_) fun _ _ hr => hr.1.1
    cases o with
    | query q => exact hflushing _ _ (.inl ho.2)
    | write w => exact ho.1.2.elim
    | commit => exact ho.1.2.elim
    | rollback => exact ho.1.2.elim
  · intro o db tx ho htx
    cases o with
    | query q => exact execQuery_pending htx q db
    | write w => exact ho.2.elim
    | commit => exact ho.2.elim
    | rollback => exact ho.2.elim

theorem wp_readsThen {p : Service β} {f : β → Service α} {R : Except Exc β → Transaction → Prop}
    {Q : Except Exc α → Transaction → Prop} (hflushing : ∀ o tx, Flushing o tx → C o tx)
    (h : p.wp (exec dbms) (OnCommit fun _ => True) R tx) (hquery : p.Issues Stmt.IsQuery)
    (hpending : tx.pending = [])
    (hok : ∀ b tx', R (.ok b) tx' → (f b).wp (exec dbms) C Q tx')
    (herror : ∀ e tx', R (.error e) tx' → Q (.error e) tx') : (p >>= f).wp (exec dbms) C Q tx :=
  Script.wp_bind (wp_reads hflushing h hquery hpending) hok herror

theorem wp_liftThen {x : Except Exc β} {f : β → Service α} {Q : Except Exc α → Transaction → Prop}
    (hok : ∀ b, x = .ok b → (f b).wp (exec dbms) C Q tx) (herror : ∀ e, Q (.error e) tx) :
    (liftExcept x >>= f).wp (exec dbms) C Q tx := by
  cases x with
  | ok b => exact hok b rfl
  | error e => exact herror e

theorem reads_liftExcept_only (x : Except Exc α) : (liftExcept x).Issues Stmt.IsQuery := by
  cases x <;> trivial

theorem reads_ask_only (q : Query) : (ask q).Issues Stmt.IsQuery := Script.issues_perform trivial

theorem getCurrentUser_reads (cookie : Cookie) :
    (Deps.getCurrentUser cookie).Issues Stmt.IsQuery := by
  cases cookie with
  | missing => trivial
  | invalid => trivial
  | valid claims =>
    refine Script.Issues.bind ?_ fun found => ?_
    · exact Script.Issues.bind (reads_ask_only _) fun _ => trivial
    · cases found with
      | none => trivial
      | some user => exact Script.Issues.bind (Script.issues_require _ _) fun _ => trivial

theorem getAccessScope_reads (user : AuthenticatedUser) :
    (Deps.getAccessScope user).Issues Stmt.IsQuery := by
  unfold Deps.getAccessScope
  split
  · trivial
  · exact Script.Issues.bind (reads_ask_only _) fun _ => trivial

theorem authorize_reads (ctx : Context) (path : String) (p : Permission) :
    (Deps.authorize ctx path p).Issues Stmt.IsQuery := by
  refine Script.Issues.bind (getCurrentUser_reads _) fun current => ?_
  refine Script.Issues.bind (reads_liftExcept_only _) fun user => ?_
  exact Script.Issues.bind (reads_liftExcept_only _) fun _ => getAccessScope_reads user

theorem requireUser_reads (userId : UUID) :
    (UserAdminService.requireUser userId).Issues Stmt.IsQuery := by
  refine Script.Issues.bind (reads_ask_only _) fun found => ?_
  cases found <;> trivial

theorem guardLastAdmin_reads (userId : UUID) :
    (UserAdminService.guardLastAdmin userId).Issues Stmt.IsQuery :=
  Script.Issues.bind (reads_ask_only _) fun _ => Script.issues_require _ _

/-- The caller is an active row that the transaction has read. -/
theorem wp_currentUser (h : Reading tx) (cookie : Cookie) :
    (Deps.getCurrentUser cookie).wp (exec dbms) (OnCommit fun _ => True) (fun r tx' => Reading tx' ∧
      ∀ user, r = .ok user → ∃ row ∈ tx'.read, user = UserRepository.toAuthenticated row ∧
        row.status = .active) tx := by
  cases cookie with
  | missing => exact ⟨h,fun _ he => by cases he⟩
  | invalid => exact ⟨h,fun _ he => by cases he⟩
  | valid claims =>
    refine Script.wp_bind (R:=fun r tx' => Reading tx' ∧ ∀ user, r = .ok (some user) →
      ∃ row ∈ tx'.read, user = UserRepository.toAuthenticated row) ?_ (fun found tx' h' => ?_)
      fun e _ h' => ⟨h'.1,fun _ he => by cases he⟩
    · refine Script.wp_seq (wp_getRow h ⟨h,fun _ he => by cases he⟩ fun row _ hl => ?_)
      refine ⟨hl.toReading,fun user he => ?_⟩
      cases he
      exact ⟨row,hl.mem_read.1,rfl⟩
    · cases found with
      | none => exact ⟨h'.1,fun _ he => by cases he⟩
      | some user =>
        refine Script.wp_seq (Script.wp_require (fun hs => ?_) fun _ =>
          ⟨h'.1,fun _ he => by cases he⟩)
        refine ⟨h'.1,fun u he => ?_⟩
        cases he
        obtain ⟨row,hrow,rfl⟩ := h'.2 user rfl
        exact ⟨row,hrow,rfl,by
          simpa [AuthenticatedUser.canSignIn,loginAllowed,UserRepository.toAuthenticated] using hs⟩

theorem getActiveUser_eq_ok {path : String} {user active : AuthenticatedUser}
    (h : Deps.getActiveUser path user = .ok active) : active = user := by
  unfold Deps.getActiveUser at h
  split at h <;> cases h
  rfl

def Permission.isAdministrative (p : Permission) : Bool :=
  p = .userManage || p = .connectionManage

theorem admin_of_permission {p : Permission} (hp : p.isAdministrative = true) {role : Role}
    (h : p ∈ rolePermissions role) : role = .admin := by
  cases role <;> cases p <;> simp_all [Permission.isAdministrative,rolePermissions]

/-- Who is authorized for an administrative act is an active administrator in a row that the
transaction has read. -/
theorem wp_authorizeAdmin (h : Reading tx) (ctx : Context) (path : String) {p : Permission}
    (hp : p.isAdministrative = true) :
    (Deps.authorize ctx path p).wp (exec dbms) (OnCommit fun _ => True) (fun r tx' => Reading tx' ∧
      ∀ scope, r = .ok scope → ∃ row ∈ tx'.read, row.username = scope.username ∧
        Database.isActiveAdmin row = true) tx := by
  refine Script.wp_bind (wp_currentUser h ctx.cookie) (fun current tx' h' => ?_)
    fun _ _ h' => ⟨h'.1,fun _ he => by cases he⟩
  obtain ⟨row,hrow,rfl,hactive⟩ := h'.2 current rfl
  refine wp_liftThen (fun user hu => ?_) fun e => ⟨h'.1,fun _ he => by cases he⟩
  obtain rfl := getActiveUser_eq_ok hu
  refine wp_liftThen (fun _ hr => ?_) fun e => ⟨h'.1,fun _ he => by cases he⟩
  have hperm : p ∈ rolePermissions row.role := by
    unfold Deps.require at hr
    split at hr
    · rename_i hhas
      exact of_decide_eq_true hhas
    · cases hr
  have hrole : row.role = .admin := admin_of_permission hp hperm
  have hadmin : Database.isActiveAdmin row = true := by
    simp [Database.isActiveAdmin,hrole,hactive]
  have hscope : Deps.getAccessScope (UserRepository.toAuthenticated row) =
      pure (buildScope (UserRepository.toAuthenticated row) []) := if_pos hrole
  rw [hscope]
  refine ⟨h'.1,fun scope he => ?_⟩
  cases he
  exact ⟨row,hrow,rfl,hadmin⟩

/-- Unless it raises, the method has flushed an act and its audit row. -/
def Delivers (φ : AuditEventRow → Prop) (r : Except Exc α) (tx : Transaction) : Prop :=
  r.isOk = true → tx.Accounted φ

theorem delivers_error (φ : AuditEventRow → Prop) (e : Exc) (tx : Transaction) :
    Delivers φ (.error e : Except Exc α) tx := fun h => by cases h

theorem wp_flushing {w : Write} {Q : Except Exc Unit → Transaction → Prop}
    (hactive : tx.inactive = false) (hok : Q (.ok ()) (tx.flushed w))
    (herror : ∀ e, Q (.error e) .fail) : (flush w).wp (exec dbms) Flushing Q tx :=
  wp_flush trivial hactive hok herror

theorem wp_assigning {patch : UserRow → UserPatch} (hactive : tx.inactive = false)
    (hfound : tx.find? userId = some row) {Q : Except Exc Unit → Transaction → Prop}
    (hok : Q (.ok ()) (tx.flushed (.patchUser userId (patch row))))
    (herror : ∀ e, Q (.error e) .fail) :
    (UserRepository.assign userId patch).wp (exec dbms) Flushing Q tx := by
  have hcached : tx.cached (.userById userId) = some (some row) := by simp [cached,hfound]
  refine Script.wp_seq (Script.wp_perform (.inr (by simp [hcached])) fun db => ?_)
  simp only [exec,execQuery,hactive,hcached,Bool.false_eq_true,if_false]
  exact wp_flushing hactive hok herror

theorem wp_recording {now : Timestamp} {event : AuditEvent} {φ : AuditEventRow → Prop}
    {ws : List Write} (hactive : tx.inactive = false) (hpending : tx.pending = ws)
    (hrow : φ (AuditRepository.eventRow now event))
    (h : (AuditRepository.eventRow now event).Explains ws) :
    (AuditRepository.record now event).wp (exec dbms) Flushing (Delivers φ) tx := by
  refine Script.wp_tryCatch (R:=fun _ tx' => tx' = tx.flushed
    (.insertAudit (AuditRepository.eventRow now event)) ∨ tx' = .fail) ?_ ?_ ?_
  · exact wp_flushing hactive (.inl rfl) fun _ => .inr rfl
  · rintro _ tx' (rfl | rfl) _
    · exact .inr ⟨ws,_,by rw [flushed_pending_insertAudit,hpending],hrow,h⟩
    · exact accounted_fail φ
  · rintro e tx' (rfl | rfl) _
    · exact .inr ⟨ws,_,by rw [flushed_pending_insertAudit,hpending],hrow,h⟩
    · exact accounted_fail φ

section
open AuditAction UserRepository

variable {env : Env} {ctx : Context} {actor : AccessScope} {action : AuditAction}
  {raw : List (String × Detail)} {target : UserStatus} {approvedBy rejectReason : Option String}
  {role : Role}

theorem adminEvent_names : (AuditRepository.eventRow ctx.now
    (UserAdminService.adminEvent env ctx actor action userId raw)).Names userId := ⟨rfl,rfl,rfl⟩

theorem permits_statusPatch (h : action.status? = some target) :
    action.Permits (statusPatch ctx.now target approvedBy rejectReason) :=
  ⟨.inr h.symm,fun hn => absurd rfl hn,fun hn => absurd rfl hn⟩

theorem permits_rolePatch (h : action = .userApprove ∨ action = .userRoleChange) :
    action.Permits (rolePatch ctx.now role) :=
  ⟨.inl rfl,fun _ => h,fun hn => absurd rfl hn⟩

theorem permits_hashPatch {passwordHash : String} {mustChange : Bool}
    (h : action = .login ∨ action = .passwordChange ∨ action = .userPasswordReset) :
    action.Permits (hashPatch ctx.now passwordHash mustChange) :=
  ⟨.inl rfl,fun hn => absurd rfl hn,fun _ => h⟩

theorem statusPatch_changed (h : target ∈ allowedTransitions row.status) :
    ((statusPatch ctx.now target approvedBy rejectReason).changedFrom row).status =
      some target := by
  have hne : target ≠ row.status := by
    rintro rfl
    cases hs : row.status <;> simp [hs,allowedTransitions] at h
  simp [UserPatch.changedFrom,statusPatch,Option.filter,hne]

theorem wp_statusAct (h : Loaded tx userId row) (ht : target ∈ allowedTransitions row.status)
    (ha : action.status? = some target) :
    (do
      setStatus ctx.now userId target approvedBy rejectReason
      UserAdminService.record env ctx actor action userId raw : Service Unit).wp (exec dbms)
      Flushing (Delivers (By actor.username)) tx := by
  refine Script.wp_seq (wp_assigning h.active h.found ?_ fun _ => delivers_error _ _ _)
  refine wp_recording h.active (flushed_pending_patchUser h.found _) rfl ?_
  rw [h.pending]
  refine explains_of_status adminEvent_names ?_ ha
    ⟨_,List.mem_singleton.mpr rfl,statusPatch_changed ht⟩
  simp only [List.nil_append,List.mem_singleton]
  rintro _ rfl
  exact ⟨adminEvent_names,(permits_statusPatch ha).changedFrom row⟩

theorem wp_onUser (h : Reading tx) {x : Except Exc Unit} {f : UserRow → Service β}
    {φ : AuditEventRow → Prop} (hok : ∀ row tx', Loaded tx' userId row →
      (f row).wp (exec dbms) Flushing (Delivers φ) tx') :
    (liftExcept x >>= fun _ => UserAdminService.requireUser userId >>= f).wp (exec dbms) Flushing
      (Delivers φ) tx := by
  refine wp_liftThen (fun _ _ => ?_) fun e => delivers_error _ e tx
  refine wp_readsThen (R:=fun r tx' => ∀ row, r = .ok row → Loaded tx' userId row)
    (fun _ _ ho => ho) ?_ (requireUser_reads userId) h.pending
    (fun row tx' hr => hok row tx' (hr row rfl)) fun e tx' _ => delivers_error _ e tx'
  refine wp_requireUser h (fun row tx' hl q hq => ?_) fun e q hq => by cases hq
  cases hq
  exact hl

theorem wp_guardThen (h : Loaded tx userId row) {f : Unit → Service β} {φ : AuditEventRow → Prop}
    (hok : ∀ tx', Loaded tx' userId row → (f ()).wp (exec dbms) Flushing (Delivers φ) tx') :
    (UserAdminService.guardLastAdmin userId >>= f).wp (exec dbms) Flushing (Delivers φ) tx := by
  refine wp_readsThen (R:=fun _ tx' => Loaded tx' userId row) (fun _ _ ho => ho) ?_
    (guardLastAdmin_reads userId) h.pending (fun _ tx' hl => hok tx' hl)
    fun e tx' _ => delivers_error _ e tx'
  refine Script.wp_bind (R:=fun _ tx' => Loaded tx' userId row)
    (wp_countActiveAdmins h.toReading fun n => ⟨⟨h.pending,h.active,h.rows⟩,h.found⟩)
    (fun n tx' hl => ?_) fun _ _ hl => hl
  exact Script.wp_require (fun _ => hl) fun _ => hl

theorem wp_rejecting (h : Reading tx) (reason : Option String) :
    (UserAdminService.reject env ctx actor userId reason).wp (exec dbms) Flushing
      (Delivers (By actor.username)) tx :=
  wp_onUser h fun _ _ hl => wp_liftThen (fun _ ht =>
    wp_statusAct hl (checkTransition_eq_ok.mp ht) rfl) fun e => delivers_error _ e _

theorem wp_enabling (h : Reading tx) :
    (UserAdminService.enable env ctx actor userId).wp (exec dbms) Flushing
      (Delivers (By actor.username)) tx :=
  wp_onUser h fun _ _ hl => wp_liftThen (fun _ ht =>
    wp_statusAct hl (checkTransition_eq_ok.mp ht) rfl) fun e => delivers_error _ e _

theorem wp_disabling (h : Reading tx) :
    (UserAdminService.disable env ctx actor userId).wp (exec dbms) Flushing
      (Delivers (By actor.username)) tx := by
  refine wp_onUser h fun row tx' hl => ?_
  refine wp_liftThen (fun _ _ => ?_) fun e => delivers_error _ e _
  refine wp_liftThen (fun _ ht => ?_) fun e => delivers_error _ e _
  have hallowed := checkTransition_eq_ok.mp ht
  by_cases hr : row.role = .admin
  · rw [if_pos hr]
    exact wp_guardThen hl fun _ hl' => wp_statusAct hl' hallowed rfl
  · rw [if_neg hr]
    exact wp_statusAct hl hallowed rfl

theorem wp_roleAct (h : Loaded tx userId row) :
    (do
      setRole ctx.now userId role
      if role = .admin then ScopeRepository.replace ctx.now userId [] (some actor.username)
        else pure ()
      UserAdminService.record env ctx actor .userRoleChange userId raw : Service Unit).wp
      (exec dbms) Flushing (Delivers (By actor.username)) tx := by
  have hpending := flushed_pending_patchUser h.found (rolePatch ctx.now role)
  rw [h.pending,List.nil_append] at hpending
  have hpermits : AuditAction.userRoleChange.Permits ((rolePatch ctx.now role).changedFrom row) :=
    (permits_rolePatch (.inr rfl)).changedFrom row
  refine Script.wp_seq (wp_assigning h.active h.found ?_ fun _ => delivers_error _ _ _)
  by_cases hr : role = .admin
  · rw [if_pos hr]
    refine Script.wp_seq (wp_flushing h.active ?_ fun _ => delivers_error _ _ _)
    refine wp_recording h.active (flushed_pending_replaceScopes _ _ _ _) rfl ?_
    rw [hpending]
    refine explains_of_silent ?_ rfl
    simp only [List.singleton_append,List.mem_cons,List.not_mem_nil,or_false]
    rintro _ (rfl | rfl)
    · exact ⟨adminEvent_names,hpermits⟩
    · exact ⟨adminEvent_names,.inr (.inl rfl)⟩
  · rw [if_neg hr]
    refine wp_recording h.active hpending rfl ?_
    refine explains_of_silent ?_ rfl
    simp only [List.mem_singleton]
    rintro _ rfl
    exact ⟨adminEvent_names,hpermits⟩

theorem wp_changingRole (h : Reading tx) :
    (UserAdminService.changeRole env ctx actor userId role).wp (exec dbms) Flushing
      (Delivers (By actor.username)) tx := by
  refine wp_onUser h fun row tx' hl => ?_
  refine wp_liftThen (fun _ _ => ?_) fun e => delivers_error _ e _
  by_cases hr : row.role = .admin ∧ role ≠ .admin
  · rw [if_pos hr]
    exact wp_guardThen hl fun _ hl' => wp_roleAct hl'
  · rw [if_neg hr]
    exact wp_roleAct hl

theorem wp_approving (h : Reading tx) (ids : List UUID) :
    (UserAdminService.approve env ctx actor userId role ids).wp (exec dbms) Flushing
      (Delivers (By actor.username)) tx := by
  refine wp_onUser h fun row tx' hl => ?_
  refine wp_liftThen (fun _ ht => ?_) fun e => delivers_error _ e _
  have hallowed := checkTransition_eq_ok.mp ht
  have hfound := find?_flushed_patchUser hl.found
    (statusPatch ctx.now .active (some actor.username) none)
  have hfirst := flushed_pending_patchUser hl.found
    (statusPatch ctx.now .active (some actor.username) none)
  have hsecond := flushed_pending_patchUser hfound (rolePatch ctx.now role)
  rw [hl.pending,List.nil_append] at hfirst
  rw [hfirst,List.singleton_append] at hsecond
  refine Script.wp_seq (wp_assigning hl.active hl.found ?_ fun _ => delivers_error _ _ _)
  refine Script.wp_seq (wp_assigning (flushed_active hl.active) hfound ?_
    fun _ => delivers_error _ _ _)
  refine Script.wp_seq (wp_flushing hl.active ?_ fun _ => delivers_error _ _ _)
  refine wp_recording hl.active (flushed_pending_replaceScopes _ _ _ _) rfl ?_
  rw [hsecond]
  refine explains_of_status adminEvent_names ?_ rfl
    ⟨_,List.mem_cons_self,statusPatch_changed hallowed⟩
  simp only [List.cons_append,List.nil_append,List.mem_cons,List.not_mem_nil,or_false]
  rintro _ (rfl | rfl | rfl)
  · exact ⟨adminEvent_names,(permits_statusPatch rfl).changedFrom row⟩
  · exact ⟨adminEvent_names,(permits_rolePatch (.inl rfl)).changedFrom _⟩
  · exact ⟨adminEvent_names,.inl rfl⟩

theorem wp_settingScopes (h : Reading tx) (ids : List UUID) :
    (UserAdminService.setScopes env ctx actor userId ids).wp (exec dbms) Flushing
      (Delivers (By actor.username)) tx := by
  refine wp_onUser h fun row tx' hl => ?_
  refine Script.wp_seq (Script.wp_require (fun _ => ?_) fun _ => delivers_error _ _ _)
  refine Script.wp_seq (wp_flushing hl.active ?_ fun _ => delivers_error _ _ _)
  refine wp_recording hl.active (flushed_pending_replaceScopes _ _ _ _) rfl ?_
  rw [hl.pending]
  refine explains_of_silent ?_ rfl
  simp only [List.nil_append,List.mem_singleton]
  rintro _ rfl
  exact ⟨adminEvent_names,.inr (.inr rfl)⟩

theorem wp_resettingPassword (h : Reading tx) :
    (UserAdminService.resetPassword env ctx actor userId).wp (exec dbms) Flushing
      (Delivers (By actor.username)) tx := by
  refine wp_onUser h fun row tx' hl => ?_
  refine wp_liftThen (fun passwordHash _ => ?_) fun e => delivers_error _ e _
  refine Script.wp_seq (wp_assigning hl.active hl.found ?_ fun _ => delivers_error _ _ _)
  have hby : By actor.username (AuditRepository.eventRow ctx.now (UserAdminService.adminEvent env
      ctx actor .userPasswordReset userId [("username",.text row.username)])) := rfl
  refine Script.wp_bind (wp_recording hl.active (flushed_pending_patchUser hl.found _) hby ?_)
    (fun _ _ hd _ => hd rfl) fun e _ _ => delivers_error _ e _
  rw [hl.pending]
  refine explains_of_silent ?_ rfl
  simp only [List.nil_append,List.mem_singleton]
  rintro _ rfl
  exact ⟨adminEvent_names,(permits_hashPatch (.inr (.inr rfl))).changedFrom row⟩

theorem connectionEvent_names {connectionId : UUID} : (AuditRepository.eventRow ctx.now
    (ConnectionService.connectionEvent env ctx actor action connectionId raw)).NamesConnection
      connectionId := ⟨rfl,rfl,rfl⟩

theorem wp_asking {q : Query} {f : q.Res → Service β} {Q : Except Exc β → Transaction → Prop}
    (h : Reading tx) (hcached : tx.cached q = none) (hremember : ∀ r, tx.remember q r = tx)
    (hok : ∀ r, (f r).wp (exec dbms) Flushing Q tx) (herror : ∀ e, Q (.error e) .fail) :
    (ask q >>= f).wp (exec dbms) Flushing Q tx := by
  refine Script.wp_seq (Script.wp_perform (.inl h.pending) fun db => ?_)
  simp only [exec,execQuery_of_reading h,hcached]
  cases Query.eval db q with
  | error e => exact herror e
  | ok r =>
    simp only [hremember]
    exact hok _

theorem wp_connectionAct {connectionId : UUID} {ws : List Write} (hactive : tx.inactive = false)
    (hpending : tx.pending = ws) (hsilent : action.silent = true)
    (hcovers : ∀ w ∈ ws, (AuditRepository.eventRow ctx.now (ConnectionService.connectionEvent env
      ctx actor action connectionId raw)).Covers w) :
    (AuditRepository.record ctx.now (ConnectionService.connectionEvent env ctx actor action
      connectionId raw)).wp (exec dbms) Flushing (Delivers (By actor.username)) tx :=
  wp_recording hactive hpending rfl (explains_of_silent hcovers hsilent)

theorem wp_creatingConnection (h : Reading tx) (payload : ConnectionCreateInput) :
    (ConnectionService.create env ctx actor payload).wp (exec dbms) Flushing
      (Delivers (By actor.username)) tx := by
  refine wp_liftThen (fun _ _ => ?_) fun e => delivers_error _ e _
  refine wp_asking h rfl (fun _ => rfl) (fun found => ?_) fun e => delivers_error _ e _
  cases found with
  | some existing => exact delivers_error _ _ _
  | none =>
    refine wp_liftThen (fun _ _ => ?_) fun e => delivers_error _ e _
    simp only [ConnectionRepository.insert,bind_assoc,pure_bind]
    refine Script.wp_seq (wp_flushing h.active ?_ fun _ => delivers_error _ _ _)
    refine Script.wp_bind (wp_connectionAct h.active rfl rfl ?_) (fun _ _ hd _ => hd rfl)
      fun e _ _ => delivers_error _ e _
    change ∀ w ∈ tx.pending ++ [_],_
    rw [h.pending]
    simp only [List.nil_append,List.mem_singleton]
    rintro _ rfl
    exact ⟨connectionEvent_names,rfl⟩

theorem wp_deletingConnection (h : Reading tx) (connectionId : UUID) :
    (ConnectionService.delete env ctx actor connectionId).wp (exec dbms) Flushing
      (Delivers (By actor.username)) tx := by
  refine wp_liftThen (fun _ _ => ?_) fun e => delivers_error _ e _
  refine wp_asking h rfl (fun _ => rfl) (fun found => ?_) fun e => delivers_error _ e _
  cases found with
  | none => exact delivers_error _ _ _
  | some conn =>
    refine wp_asking h rfl (fun _ => rfl) (fun vmCount => ?_) fun e => delivers_error _ e _
    refine Script.wp_seq (Script.wp_require (fun _ => ?_) fun _ => delivers_error _ _ _)
    simp only [ConnectionRepository.remove,bind_assoc]
    refine wp_asking h rfl (fun _ => rfl) (fun again => ?_) fun e => delivers_error _ e _
    cases again with
    | none =>
      exact wp_connectionAct h.active h.pending rfl (by simp)
    | some row =>
      refine Script.wp_seq (wp_flushing h.active ?_ fun _ => delivers_error _ _ _)
      refine wp_connectionAct h.active rfl rfl ?_
      change ∀ w ∈ tx.pending ++ [_],_
      rw [h.pending]
      simp only [List.nil_append,List.mem_singleton]
      rintro _ rfl
      exact ⟨connectionEvent_names,rfl⟩

theorem wp_checkingUnsaved (h : Reading tx) (check : ReaderCheck)
    (payload : ConnectionCreateInput) :
    (ConnectionService.checkUnsaved env ctx actor check payload).wp (exec dbms) Flushing
      (Delivers (By actor.username)) tx := by
  refine wp_liftThen (fun _ _ => ?_) fun e => delivers_error _ e _
  refine wp_liftThen (fun _ _ => ?_) fun e => delivers_error _ e _
  refine wp_liftThen (fun result _ => ?_) fun e => delivers_error _ e _
  have hby : By actor.username (AuditRepository.eventRow ctx.now (ConnectionService.testEvent env
    ctx actor (ConnectionService.toConnection ctx payload) result)) := rfl
  refine Script.wp_bind (wp_recording h.active h.pending hby (explains_of_silent (by simp) rfl))
    (fun _ _ hd _ => hd rfl) fun e _ _ => delivers_error _ e _

theorem flushed_pending_insertUser (tx : Transaction) (row : UserRow) :
    (tx.flushed (.insertUser row)).pending = tx.pending ++ [.insertUser row] := rfl

theorem wp_registering (h : Reading tx) (payload : RegisterRequest) :
    (RegistrationService.register env ctx payload).wp (exec dbms) Flushing (Delivers Own) tx := by
  refine Script.wp_seq (Script.wp_require (fun _ => ?_) fun _ => delivers_error _ _ _)
  refine wp_liftThen (fun _ _ => ?_) fun e => delivers_error _ e _
  refine wp_readsThen (R:=fun r tx' => r.isOk = true → tx'.pending = [] ∧ tx'.inactive = false)
    (fun _ _ ho => ho) ?_ (reads_ask_only _) h.pending (fun found tx' ht => ?_)
    fun e _ _ => delivers_error _ e _
  · refine wp_findRow h _ (fun e hr => by cases hr) (fun _ => ⟨h.pending,h.active⟩)
      fun row tx' hl _ => ⟨hl.pending,hl.active⟩
  · obtain ⟨hpending,hactive⟩ := ht rfl
    cases found with
    | some row =>
      exact wp_recording hactive hpending rfl (explains_of_silent (by simp) rfl)
    | none =>
      refine wp_liftThen (fun passwordHash _ => ?_) fun e => delivers_error _ e _
      refine Script.wp_seq (wp_flushing hactive ?_ fun _ => delivers_error _ _ _)
      refine wp_recording hactive (flushed_pending_insertUser tx' _) rfl ?_
      rw [hpending,List.nil_append]
      refine ⟨?_,fun u s hu _ => (by cases hu.2.2),fun _ => ⟨_,List.mem_singleton.mpr rfl,rfl⟩⟩
      simp only [List.mem_singleton]
      rintro _ rfl
      exact ⟨rfl,rfl,rfl,rfl⟩

theorem selfEvent_names {user : AuthenticatedUser} : (AuditRepository.eventRow ctx.now
    (AuthService.selfEvent env ctx action user)).Names user.userId := ⟨rfl,rfl,rfl⟩

theorem wp_changingPassword (h : Reading tx) (user : AuthenticatedUser) (current new : String) :
    (AuthService.changePassword env ctx user current new).wp (exec dbms) Flushing
      (Delivers Own) tx := by
  refine wp_readsThen (R:=fun r tx' => ∀ row, r = .ok (some row) → Loaded tx' user.userId row)
    (fun _ _ ho => ho) ?_ (reads_ask_only _) h.pending (fun found tx' ht => ?_)
    fun e _ _ => delivers_error _ e _
  · refine wp_getRow h (fun row hr => by cases hr) fun row tx' hl q hq => ?_
    cases hq
    exact hl
  · cases found with
    | none => exact delivers_error _ _ _
    | some row =>
      have hl := ht row rfl
      refine Script.wp_seq (Script.wp_require (fun _ => ?_) fun _ => delivers_error _ _ _)
      refine wp_liftThen (fun _ _ => ?_) fun e => delivers_error _ e _
      refine Script.wp_seq (Script.wp_require (fun _ => ?_) fun _ => delivers_error _ _ _)
      refine wp_liftThen (fun newHash _ => ?_) fun e => delivers_error _ e _
      refine Script.wp_seq (wp_assigning hl.active hl.found ?_ fun _ => delivers_error _ _ _)
      refine wp_recording hl.active (flushed_pending_patchUser hl.found _) rfl
        (explains_of_silent ?_ rfl)
      rw [hl.pending]
      simp only [List.nil_append,List.mem_singleton]
      rintro _ rfl
      exact ⟨selfEvent_names,(permits_hashPatch (.inr (.inl rfl))).changedFrom row⟩

theorem permits_resetPatch {action : AuditAction} : action.Permits (resetPatch ctx.now) :=
  ⟨.inl rfl,fun hn => absurd rfl hn,fun hn => absurd rfl hn⟩

theorem wp_loginAct (hactive : tx.inactive = false) (hfound : tx.find? row.userId = some row')
    (hcovers : ∀ w ∈ tx.pending, (AuditRepository.eventRow ctx.now (AuthService.selfEvent env ctx
      .login (toAuthenticated row))).Covers w) (token : String) :
    (do
      resetFailures ctx.now row.userId
      AuditRepository.record ctx.now (AuthService.selfEvent env ctx .login (toAuthenticated row))
      pure (token,toAuthenticated row) : Service (String × AuthenticatedUser)).wp (exec dbms)
      Flushing (Delivers Own) tx := by
  refine Script.wp_seq (wp_assigning hactive hfound ?_ fun _ => delivers_error _ _ _)
  have hown : Own (AuditRepository.eventRow ctx.now (AuthService.selfEvent env ctx .login
    (toAuthenticated row))) := rfl
  refine Script.wp_bind (wp_recording hactive (flushed_pending_patchUser hfound _) hown
    (explains_of_silent (fun w hw => ?_) rfl)) (fun _ _ hd _ => hd rfl)
    fun e _ _ => delivers_error _ e _
  rcases List.mem_append.mp hw with hw | hw
  · exact hcovers w hw
  · rw [List.mem_singleton.mp hw]
    exact ⟨selfEvent_names,permits_resetPatch.changedFrom row'⟩

theorem wp_auditFailure (now : Timestamp) (event : AuditEvent) (tx : Transaction) :
    (AuditRepository.record now event).wp (exec dbms) Flushing (fun _ _ => True) tx := by
  refine Script.wp_tryCatch (R:=fun _ _ => True) (Script.wp_perform trivial fun _ => trivial)
    (fun _ _ _ => trivial) fun _ _ _ => trivial

theorem wp_refusing (now : Timestamp) (event : AuditEvent) (e : Exc) (tx : Transaction) :
    (do
      AuditRepository.record now event
      throw e : Service β).wp (exec dbms) Flushing (Delivers Own) tx :=
  Script.wp_bind (wp_auditFailure now event tx) (fun _ _ _ => delivers_error _ _ _)
    fun e _ _ => delivers_error _ e _

theorem wp_loggingIn (h : Reading tx) (username password : String) :
    (AuthService.login env ctx username password).wp (exec dbms) Flushing (Delivers Own) tx := by
  refine wp_readsThen (R:=fun r tx' => ∀ row, r = .ok (some row) → Loaded tx' row.userId row)
    (fun _ _ ho => ho) ?_ (reads_ask_only _) h.pending (fun found tx' ht => ?_)
    fun e _ _ => delivers_error _ e _
  · refine wp_findRow h _ (fun e row hr => by cases hr) (fun row hr => by cases hr)
      fun row tx' hl q hq => ?_
    cases hq
    exact hl
  · cases found with
    | none => exact wp_refusing _ _ _ _
    | some row =>
      have hl := ht row rfl
      dsimp only
      by_cases hlocked : AuthService.isLocked row ctx.now = true
      · rw [if_pos hlocked]
        exact wp_refusing _ _ _ _
      · rw [if_neg hlocked]
        by_cases hwrong : (!(verifyPassword env ctx password row.passwordHash).1) = true
        · rw [if_pos hwrong]
          refine Script.wp_seq (wp_assigning hl.active hl.found ?_ fun _ => delivers_error _ _ _)
          exact wp_refusing _ _ _ _
        · rw [if_neg hwrong]
          by_cases hstatus : row.status ∉ loginAllowed
          · rw [if_pos hstatus]
            cases hm : statusMessage row.status with
            | some message => exact wp_refusing _ _ _ _
            | none => exact wp_refusing _ _ _ _
          · rw [if_neg hstatus]
            cases hv : (verifyPassword env ctx password row.passwordHash).2 with
            | none =>
              refine wp_loginAct hl.active hl.found ?_ _
              simp [hl.pending]
            | some newHash =>
              refine Script.wp_seq (wp_assigning hl.active hl.found ?_
                fun _ => delivers_error _ _ _)
              refine wp_loginAct (flushed_active hl.active)
                (find?_flushed_patchUser hl.found _) ?_ _
              rw [flushed_pending_patchUser hl.found,hl.pending]
              simp only [List.nil_append,List.mem_singleton]
              rintro _ rfl
              exact ⟨selfEvent_names,(permits_hashPatch (.inl rfl)).changedFrom row⟩

end

/-- A row that was read is still read, unless the transaction has failed. -/
def Keeps (row : UserRow) (tx : Transaction) : Prop := tx.inactive = true ∨ row ∈ tx.read

theorem read_remember (tx : Transaction) (q : Query) (r : q.Res) (hrow : row ∈ tx.read) :
    row ∈ (tx.remember q r).read := by
  have hload : ∀ found : Option UserRow, row ∈ (Option.elim found tx tx.load).read := by
    intro found
    cases found with
    | none => exact hrow
    | some row' =>
      simp only [Option.elim_some,load]
      split
      · exact hrow
      · exact List.mem_cons_of_mem _ hrow
  cases q <;> first | exact hload _ | exact hrow

theorem keeps_flushing (o : Stmt) (db : Database) (tx : Transaction) (ho : Flushing o tx)
    (h : Keeps row tx) : Keeps row (exec dbms o db tx).2.2 := by
  rcases h with h | h
  · left
    cases o with
    | query q => simp only [exec,execQuery,h,if_true]
    | write w => simp only [exec,execWrite,h,if_true]
    | commit => exact ho.elim
    | rollback => exact ho.elim
  · cases o with
    | query q =>
      simp only [exec,execQuery]
      split
      · exact .inr h
      · split
        · exact .inr h
        · split
          · exact .inr (read_remember tx q _ h)
          · exact .inl rfl
    | write w =>
      simp only [exec,execWrite]
      split
      · exact .inr h
      · split
        · exact .inr h
        · exact .inl rfl
    | commit => exact ho.elim
    | rollback => exact ho.elim

/-- After the commit of a handler nothing is left to write. -/
def Settled (r : Except Exc α) (tx : Transaction) : Prop := r.isOk = true → tx.pending = []

theorem settled_error (e : Exc) (tx : Transaction) : Settled (.error e : Except Exc α) tx :=
  fun h => by cases h

theorem justified_of_idle (h : tx.pending = []) : tx.Justified := .inr (.inl h)

theorem justified_of_own (h : tx.Accounted Own) : tx.Justified := by
  rcases h with h | ⟨ws,told,hpending,hown,hexplains⟩
  · exact .inr (.inl h)
  · exact .inr (.inr ⟨ws,told,hpending,hexplains,fun ha => by cases hown.symm.trans ha⟩)

theorem justified_of_admin (hadmin : Database.isActiveAdmin row = true) (hkeeps : Keeps row tx)
    (h : tx.Accounted (By row.username)) : tx.Justified := by
  rcases hkeeps with hinactive | hread
  · exact .inl hinactive
  · rcases h with h | ⟨ws,told,hpending,hby,hexplains⟩
    · exact .inr (.inl h)
    · exact .inr (.inr ⟨ws,told,hpending,hexplains,fun _ => ⟨row,hread,hadmin,hby⟩⟩)

theorem wp_committing {f : Unit → Service α} (h : tx.Justified)
    (hf : ∀ tx', tx'.pending = [] → (f ()).wp (exec dbms) Audited Settled tx') :
    (commit >>= f).wp (exec dbms) Audited Settled tx := by
  refine Script.wp_bind (R:=fun r tx' => r.isOk = true → tx'.pending = [])
    (Script.wp_perform h fun db => ?_) (fun _ tx' ht => hf tx' (ht rfl))
    fun e _ _ => settled_error e _
  simp only [exec,execCommit]
  by_cases hi : tx.inactive = true
  · rw [if_pos hi]
    exact fun hr => by cases hr
  · rw [if_neg hi]
    cases Write.applyAll dbms tx.pending db with
    | ok db' => exact fun _ => rfl
    | error e => exact fun hr => by cases hr

theorem wp_ownRoute {p : Service β} {f : β → Unit → Service α}
    (hp : p.wp (exec dbms) Flushing (Delivers Own) tx)
    (hf : ∀ b tx', tx'.pending = [] → (f b ()).wp (exec dbms) Audited Settled tx') :
    (p >>= fun b => commit >>= f b).wp (exec dbms) Audited Settled tx :=
  Script.wp_bind (Script.wp_contract hp fun _ _ => audited_of_flushing)
    (fun b _ hd => wp_committing (justified_of_own (hd rfl)) (hf b)) fun e _ _ => settled_error e _

theorem wp_adminRoute {ctx : Context} {path : String} {p : Permission}
    (hp : p.isAdministrative = true) {method : AccessScope → Service β} {f : β → Unit → Service α}
    (hmethod : ∀ scope tx, Reading tx → (method scope).wp (exec dbms) Flushing
      (Delivers (By scope.username)) tx)
    (hf : ∀ b tx', tx'.pending = [] → (f b ()).wp (exec dbms) Audited Settled tx')
    (h : Reading tx) :
    (Deps.authorize ctx path p >>= fun scope => method scope >>= fun b => commit >>= f b).wp
      (exec dbms) Audited Settled tx := by
  refine wp_readsThen (fun _ _ => audited_of_flushing) (wp_authorizeAdmin h ctx path hp)
    (authorize_reads ctx path p) h.pending (fun scope tx' ht => ?_) fun e _ _ => settled_error e _
  obtain ⟨row,hrow,hname,hadmin⟩ := ht.2 scope rfl
  have hact := Script.wp_invariant (hmethod scope tx' ht.1) (J:=Keeps row)
    (fun o db tx ho hk => keeps_flushing o db tx ho hk) (.inr hrow)
  refine Script.wp_bind (Script.wp_contract hact fun _ _ ho => audited_of_flushing ho.1)
    (fun b tx'' hd => ?_) fun e _ _ => settled_error e _
  refine wp_committing (justified_of_admin hadmin hd.2 ?_) (hf b)
  rw [hname]
  exact hd.1 rfl

theorem settled_pure (a : α) (h : tx.pending = []) :
    (pure a : Service α).wp (exec dbms) Audited Settled tx := fun _ => h

section
variable {env : Env} {ctx : Context}

theorem wp_userAct {path : String} {method : AccessScope → Service Unit} (h : Reading tx)
    (hmethod : ∀ scope tx, Reading tx → (method scope).wp (exec dbms) Flushing
      (Delivers (By scope.username)) tx) :
    (Routes.userRoute ctx path method).wp (exec dbms) Audited Settled tx :=
  wp_adminRoute rfl hmethod (fun _ _ => settled_pure _) h

theorem wp_logoutRoute (h : Reading tx) :
    (Routes.logout env ctx).wp (exec dbms) Audited Settled tx := by
  refine wp_readsThen (fun _ _ => audited_of_flushing) (wp_currentUser h ctx.cookie)
    (getCurrentUser_reads _) h.pending (fun user tx' ht => ?_) fun e _ _ => settled_error e _
  have hrecord : (AuthService.recordLogout env ctx user).wp (exec dbms) Flushing (Delivers Own)
      tx' := wp_recording ht.1.active ht.1.pending rfl (explains_of_silent (by simp) rfl)
  have hroute := wp_ownRoute (f:=fun _ => pure) hrecord fun _ _ => settled_pure ()
  simpa only [bind_pure] using hroute

theorem wp_loginRoute (h : Reading tx) (username password : String) :
    (Routes.login env ctx username password).wp (exec dbms) Audited Settled tx := by
  refine wp_ownRoute (wp_loggingIn h username password) fun signedIn tx' ht => ?_
  refine Script.wp_bind (R:=fun _ tx' => tx'.pending = []) ?_ (fun row tx'' ht' => ?_)
    fun e _ _ => settled_error e _
  · exact Script.wp_perform (.inl ht) fun db => execQuery_pending ht _ db
  · by_cases hr : signedIn.2.role = .admin
    · rw [if_pos hr]
      exact settled_pure _ ht'
    · rw [if_neg hr]
      refine Script.wp_bind (R:=fun _ tx' => tx'.pending = []) ?_
        (fun _ _ => settled_pure _) fun e _ _ => settled_error e _
      exact Script.wp_perform (.inl ht') fun db => execQuery_pending ht' _ db

theorem wp_requestHandler (h : Reading tx) (req : Request) :
    (req.handler env ctx).wp (exec dbms) Audited Settled tx := by
  cases req with
  | register payload =>
    exact wp_ownRoute (wp_registering h payload) fun _ _ => settled_pure _
  | approve userId role ids => exact wp_userAct h fun _ _ h => wp_approving h ids
  | reject userId reason => exact wp_userAct h fun _ _ h => wp_rejecting h reason
  | disable userId => exact wp_userAct h fun _ _ h => wp_disabling h
  | enable userId => exact wp_userAct h fun _ _ h => wp_enabling h
  | changeRole userId role => exact wp_userAct h fun _ _ h => wp_changingRole h
  | setScopes userId ids => exact wp_userAct h fun _ _ h => wp_settingScopes h ids
  | resetPassword userId =>
    exact wp_adminRoute rfl (fun _ _ h => wp_resettingPassword h) (fun _ _ => settled_pure _) h
  | changePassword current new =>
    refine wp_readsThen (fun _ _ => audited_of_flushing) (wp_currentUser h ctx.cookie)
      (getCurrentUser_reads _) h.pending (fun user tx' ht => ?_) fun e _ _ => settled_error e _
    refine wp_liftThen (fun active _ => ?_) fun e => settled_error e _
    exact wp_ownRoute (wp_changingPassword ht.1 active current new) fun _ _ => settled_pure _
  | createConnection payload =>
    exact wp_adminRoute rfl (fun _ _ h => wp_creatingConnection h payload)
      (fun _ _ => settled_pure _) h
  | deleteConnection connectionId =>
    exact wp_adminRoute rfl (fun _ _ h => wp_deletingConnection h connectionId)
      (fun _ _ => settled_pure _) h

theorem wp_portalHandler (h : Reading tx) (req : PortalRequest) :
    (req.handler env ctx).wp (exec dbms) Audited Settled tx := by
  have hanswer : ∀ {γ : Type} {p : Service γ} {f : γ → PortalAnswer},
      p.wp (exec dbms) Audited Settled tx →
      (p >>= fun a => (pure (f a) : Service PortalAnswer)).wp (exec dbms) Audited Settled tx :=
    fun hp => Script.wp_bind hp (fun _ _ hs => settled_pure _ (hs rfl))
      fun e _ _ => settled_error e _
  cases req with
  | request req => exact hanswer (wp_requestHandler h req)
  | login username password => exact hanswer (wp_loginRoute h username password)
  | logout => exact hanswer (wp_logoutRoute h)
  | testConnection payload check =>
    exact hanswer (wp_adminRoute rfl (fun _ _ h => wp_checkingUnsaved h check payload)
      (fun _ _ => settled_pure _) h)

/-- Every session keeps the contract: it reads before it writes, and commits nothing but one
act with the audit row that tells of it. -/
theorem wp_portalCall (call : PortalCall) :
    (call.script env).wp (exec dbms) Audited (fun _ _ => True) {} := by
  refine Script.wp_tryCatch (R:=fun _ _ => True) ?_ (fun _ _ _ => trivial) fun e tx' _ => ?_
  · refine Script.wp_bind (wp_portalHandler reading_empty call.request) (fun answer tx' hs => ?_)
      fun _ _ _ => trivial
    refine Script.wp_bind (R:=fun _ _ => True) (Script.wp_perform (justified_of_idle (hs rfl))
      fun _ => trivial) (fun _ _ _ => trivial) fun _ _ _ => trivial
  · exact Script.wp_bind (R:=fun _ _ => True) (Script.wp_perform trivial fun _ => trivial)
      (fun _ _ _ => trivial) fun _ _ _ => trivial

end
end
end WzonePortal
