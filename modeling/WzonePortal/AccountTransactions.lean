import WzonePortal.TransactionRules

/-! What the account requests have read when they commit. Each of them changes one account,
after checks on the row it read and, for an active administrator, on a count. -/
namespace WzonePortal

def patched (userId : UUID) : List Write → UserRow → UserRow
  | [], r => r
  | .patchUser u p::ws, r => patched userId ws (if u = userId then p.apply r else r)
  | _::ws, r => patched userId ws r

/-- The statements of a request that changes the account of one user. -/
def AccountWrite (userId : UUID) : Write → Prop
  | .patchUser u _ => u = userId
  | .replaceScopes _ _ _ _ => True
  | .insertAudit _ => True
  | _ => False

namespace Transaction

/-- The user row that the transaction read says the same about role and status. -/
def ReadAs (tx : Transaction) (row : UserRow) : Prop :=
  ∀ r ∈ tx.read, r.userId = row.userId → r.role = row.role ∧ r.status = row.status

/-- The user row that the transaction read says the same about the status. -/
def ReadStatus (tx : Transaction) (row : UserRow) : Prop :=
  ∀ r ∈ tx.read, r.userId = row.userId → r.status = row.status

/-- What holds of an account request when it commits. -/
structure Sound (tx : Transaction) (userId : UUID) : Prop where
  own : ∀ w ∈ tx.pending, AccountWrite userId w
  guarded : ∀ row : UserRow, row.userId = userId → tx.ReadAs row →
    Database.isActiveAdmin row = true →
    Database.isActiveAdmin (patched userId tx.pending row) = false →
    ∃ n ≠ 0, (some userId,n) ∈ tx.counted
  legal : ∀ row : UserRow, row.userId = userId → tx.ReadStatus row →
    (patched userId tx.pending row).status ≠ row.status →
    (patched userId tx.pending row).status ∈ allowedTransitions row.status

end Transaction

open Transaction ReadCommitted

/-- A commit is issued by a request that is sound for some user. -/
def Commits (o : Stmt) (tx : Transaction) : Prop := o = .commit → ∃ userId, tx.Sound userId

theorem sound_of_pending_nil {tx : Transaction} (h : tx.pending = []) (userId : UUID) :
    tx.Sound userId := by
  refine ⟨by simp [h],?_,?_⟩
  · intro row _ _ hactive hnot
    rw [h,patched,hactive] at hnot
    cases hnot
  · intro row _ _ hne
    rw [h] at hne
    exact absurd rfl hne

theorem Transaction.Reading.sound {tx : Transaction} (h : Reading tx) (userId : UUID) :
    tx.Sound userId := sound_of_pending_nil h.pending userId

theorem sound_fail (userId : UUID) : Transaction.fail.Sound userId := sound_of_pending_nil rfl userId

section
variable {dbms : Dbms} {tx : Transaction} {userId : UUID} {row : UserRow}

theorem wp_guardLastAdmin (h : Loaded tx userId row) {Q : Except Exc Unit → Transaction → Prop}
    (hok : ∀ tx', Loaded tx' userId row → (∃ n ≠ 0, (some userId,n) ∈ tx'.counted) → Q (.ok ()) tx')
    (herror : ∀ e tx', Loaded tx' userId row → Q (.error e) tx') :
    (UserAdminService.guardLastAdmin userId).wp (exec dbms) Commits Q tx := by
  refine Script.wp_bind (R := fun r tx' => ∃ n, r = .ok n ∧ Loaded tx' userId row ∧
    (some userId,n) ∈ tx'.counted) (wp_countActiveAdmins h.toReading fun n => ?_) ?_ ?_
  · exact ⟨n,rfl,⟨⟨h.pending,h.active,h.rows⟩,h.found⟩,List.mem_cons_self⟩
  · rintro n tx' ⟨m,he,hl,hm⟩
    cases he
    refine Script.wp_require (fun hn => hok tx' hl ⟨n,by simpa using hn,hm⟩) fun _ => herror _ tx' hl
  · rintro e tx' ⟨_,he,_⟩
    cases he

theorem sound_of_effect {tx : Transaction} {row : UserRow} (role : Option Role)
    (status : Option UserStatus) (hread : row ∈ tx.read)
    (hown : ∀ w ∈ tx.pending, AccountWrite row.userId w)
    (hrole : ∀ q : UserRow, q.role = row.role →
      (patched row.userId tx.pending q).role = role.getD q.role)
    (hstatus : ∀ q : UserRow, q.status = row.status →
      (patched row.userId tx.pending q).status = status.getD q.status)
    (hlegal : ∀ s, status = some s → s ∈ allowedTransitions row.status)
    (hguard : row.role = .admin → row.status = .active →
      (role.getD .admin ≠ .admin ∨ status.getD .active ≠ .active) →
      ∃ n ≠ 0, (some row.userId,n) ∈ tx.counted) : tx.Sound row.userId := by
  refine ⟨hown,fun q hid hq hactive hnot => ?_,fun q hid hq hne => ?_⟩
  · obtain ⟨hqrole,hqstatus⟩ := hq row hread hid.symm
    simp only [Database.isActiveAdmin,Bool.and_eq_true,decide_eq_true_eq] at hactive
    simp only [Database.isActiveAdmin,Bool.and_eq_false_iff,decide_eq_false_iff_not,
      hrole q hqrole.symm,hstatus q hqstatus.symm,hactive.1,hactive.2] at hnot
    exact hguard (hqrole.trans hactive.1) (hqstatus.trans hactive.2) hnot
  · have hqstatus := hq row hread hid.symm
    rw [hstatus q hqstatus.symm] at hne ⊢
    cases hs : status with
    | none =>
      rw [hs] at hne
      exact absurd rfl hne
    | some s =>
      rw [← hqstatus]
      exact hlegal s hs

section
variable {env : Env} {ctx : Context} {actor : AccessScope} {role : Role}

theorem wp_changeStatus (h : Loaded tx userId row) {p : UserPatch} {target : UserStatus}
    (hstatus : p.status = some target) (hrole : p.role = none)
    (ht : target ∈ allowedTransitions row.status)
    (hguard : row.role = .admin → row.status = .active →
      ∃ n ≠ 0, (some userId,n) ∈ tx.counted) (event : AuditEvent) :
    (do
      UserRepository.assign userId fun _ => p
      AuditRepository.record ctx.now event : Service Unit).wp (exec dbms) Commits
      (fun _ tx' => tx'.Sound userId) tx := by
  have hsound : ∀ row', ((tx.flushed (.patchUser userId p)).flushed (.insertAudit row')).Sound
      userId := by
    intro row'
    obtain ⟨hread,hid⟩ := h.mem_read
    subst hid
    have hpending : ((tx.flushed (.patchUser row.userId p)).flushed (.insertAudit row')).pending =
        [.patchUser row.userId (p.changedFrom row),.insertAudit row'] := by
      simp only [flushed,emitted_patchUser h.found,h.pending]
      rfl
    refine sound_of_effect none (some target) hread ?_ ?_ ?_ ?_ ?_
    · rw [hpending]
      simp [AccountWrite]
    · intro q hq
      rw [hpending]
      simp only [patched,if_true]
      rw [UserPatch.changedFrom_role p hq.symm,UserPatch.apply_role,hrole]
    · intro q hq
      rw [hpending]
      simp only [patched,if_true]
      rw [UserPatch.changedFrom_status p hq.symm,UserPatch.apply_status,hstatus]
    · intro s hs
      cases hs
      exact ht
    · intro hr hs _
      exact hguard hr hs
  refine Script.wp_seq (wp_assign h.active h.found ?_ fun _ => sound_fail userId)
  exact wp_record h.active (hsound _) (sound_fail userId)

theorem wp_disable (h : Reading tx) :
    (UserAdminService.disable env ctx actor userId).wp (exec dbms) Commits
      (fun _ tx' => tx'.Sound userId) tx := by
  refine wp_checkedUser h (fun row tx' hl => ?_) fun _ => h.sound userId
  refine wp_check (fun _ => ?_) fun _ => hl.toReading.sound userId
  refine wp_check (fun ht => ?_) fun _ => hl.toReading.sound userId
  have hallowed := checkTransition_eq_ok.mp ht
  by_cases hr : row.role = .admin
  · rw [if_pos hr]
    refine Script.wp_seq (wp_guardLastAdmin hl (fun tx'' hl' hcount => ?_)
      fun _ _ hl' => hl'.toReading.sound userId)
    exact wp_changeStatus hl' rfl rfl hallowed (fun _ _ => hcount) _
  · rw [if_neg hr]
    exact wp_changeStatus hl rfl rfl hallowed (fun hadmin => absurd hadmin hr) _

theorem wp_moveStatus (h : Reading tx) {p : UserPatch} {target : UserStatus}
    (hstatus : p.status = some target) (hrole : p.role = none)
    (htarget : target ∉ allowedTransitions .active) (event : UserRow → AuditEvent) :
    (do
      liftExcept (actor.require .userManage)
      let row ← UserAdminService.requireUser userId
      liftExcept (checkTransition row.status target)
      UserRepository.assign userId fun _ => p
      AuditRepository.record ctx.now (event row) : Service Unit).wp (exec dbms) Commits
      (fun _ tx' => tx'.Sound userId) tx := by
  refine wp_checkedUser h (fun row tx' hl => ?_) fun _ => h.sound userId
  refine wp_check (fun ht => ?_) fun _ => hl.toReading.sound userId
  have hallowed := checkTransition_eq_ok.mp ht
  refine wp_changeStatus hl hstatus hrole hallowed (fun _ hactive => ?_) _
  rw [hactive] at hallowed
  exact absurd hallowed htarget

theorem wp_reject (h : Reading tx) (reason : Option String) :
    (UserAdminService.reject env ctx actor userId reason).wp (exec dbms) Commits
      (fun _ tx' => tx'.Sound userId) tx :=
  wp_moveStatus h rfl rfl (by decide) _

theorem wp_enable (h : Reading tx) :
    (UserAdminService.enable env ctx actor userId).wp (exec dbms) Commits
      (fun _ tx' => tx'.Sound userId) tx :=
  wp_moveStatus h rfl rfl (by decide) _

theorem sound_of_role (h : Loaded tx userId row) {p : UserPatch} (hrole : p.role = some role)
    (hstatus : p.status = none)
    (hguard : row.role = .admin → role ≠ .admin → ∃ n ≠ 0, (some userId,n) ∈ tx.counted)
    {tx' : Transaction} (hread : tx'.read = tx.read) (hcounted : tx'.counted = tx.counted)
    {m : List Write} (hpending : tx'.pending = .patchUser userId (p.changedFrom row)::m)
    (hown : ∀ w ∈ m, AccountWrite userId w) (hrest : patched userId m = id) :
    tx'.Sound userId := by
  obtain ⟨hmem,hid⟩ := h.mem_read
  subst hid
  have heffect : patched row.userId tx'.pending = (p.changedFrom row).apply := by
    funext q
    rw [hpending,patched,if_pos rfl,hrest]
    rfl
  refine sound_of_effect (some role) none (hread ▸ hmem) ?_ ?_ ?_ ?_ ?_
  · intro w hw
    rw [hpending,List.mem_cons] at hw
    rcases hw with rfl | hw
    · exact rfl
    · exact hown w hw
  · intro q hq
    rw [heffect,UserPatch.changedFrom_role p hq.symm,UserPatch.apply_role,hrole]
  · intro q hq
    rw [heffect,UserPatch.changedFrom_status p hq.symm,UserPatch.apply_status,hstatus]
  · intro s hs
    cases hs
  · intro hadmin _ hnot
    rw [hcounted]
    exact hguard hadmin (hnot.resolve_right (by simp))

theorem wp_assignRole (h : Loaded tx userId row)
    (hguard : row.role = .admin → role ≠ .admin → ∃ n ≠ 0, (some userId,n) ∈ tx.counted)
    (event : AuditEvent) :
    (do
      UserRepository.setRole ctx.now userId role
      if role = .admin then ScopeRepository.replace ctx.now userId [] (some actor.username)
        else pure ()
      AuditRepository.record ctx.now event : Service Unit).wp (exec dbms) Commits
      (fun _ tx' => tx'.Sound userId) tx := by
  have hpending := flushed_pending_patchUser h.found (UserRepository.rolePatch ctx.now role)
  rw [h.pending] at hpending
  refine Script.wp_seq (wp_assign h.active h.found ?_ fun _ => sound_fail userId)
  by_cases hr : role = .admin
  · rw [if_pos hr]
    refine Script.wp_seq (wp_write h.active ?_ fun _ => sound_fail userId)
    refine wp_record h.active (sound_of_role h (p := UserRepository.rolePatch ctx.now role) rfl rfl
      hguard rfl rfl (m := [.replaceScopes userId [] (some actor.username) ctx.now,
        .insertAudit (AuditRepository.eventRow ctx.now event)]) ?_ ?_ rfl) (sound_fail userId)
    · rw [flushed_pending_insertAudit,flushed_pending_replaceScopes,hpending]
      rfl
    · simp [AccountWrite]
  · rw [if_neg hr]
    refine wp_record h.active (sound_of_role h (p := UserRepository.rolePatch ctx.now role) rfl rfl
      hguard rfl rfl (m := [.insertAudit (AuditRepository.eventRow ctx.now event)]) ?_ ?_ rfl)
      (sound_fail userId)
    · rw [flushed_pending_insertAudit,hpending]
      rfl
    · simp [AccountWrite]

theorem wp_changeRole (h : Reading tx) :
    (UserAdminService.changeRole env ctx actor userId role).wp (exec dbms) Commits
      (fun _ tx' => tx'.Sound userId) tx := by
  refine wp_checkedUser h (fun row tx' hl => ?_) fun _ => h.sound userId
  refine wp_check (fun _ => ?_) fun _ => hl.toReading.sound userId
  by_cases hr : row.role = .admin ∧ role ≠ .admin
  · rw [if_pos hr]
    refine Script.wp_seq (wp_guardLastAdmin hl (fun tx'' hl' hcount => ?_)
      fun _ _ hl' => hl'.toReading.sound userId)
    exact wp_assignRole hl' (fun _ _ => hcount) _
  · rw [if_neg hr]
    exact wp_assignRole hl (fun hadmin hrole => absurd ⟨hadmin,hrole⟩ hr) _

theorem approve_effect (p p' : UserPatch) (hstatus : p.status = some .active)
    (hrole : p.role = none) (hstatus' : p'.status = none) (hrole' : p'.role = some role)
    (row q : UserRow) :
    (q.role = row.role →
      ((p'.changedFrom (p.apply row)).apply ((p.changedFrom row).apply q)).role = role) ∧
    (q.status = row.status →
      ((p'.changedFrom (p.apply row)).apply ((p.changedFrom row).apply q)).status = .active) := by
  constructor
  · intro hq
    have hfirst : ((p.changedFrom row).apply q).role = q.role := by
      rw [UserPatch.changedFrom_role p hq.symm,UserPatch.apply_role,hrole,Option.getD_none]
    have hrow : (p.apply row).role = ((p.changedFrom row).apply q).role := by
      rw [hfirst,hq,UserPatch.apply_role,hrole,Option.getD_none]
    rw [UserPatch.changedFrom_role p' hrow,UserPatch.apply_role,hrole',Option.getD_some]
  · intro hq
    have hfirst : ((p.changedFrom row).apply q).status = .active := by
      rw [UserPatch.changedFrom_status p hq.symm,UserPatch.apply_status,hstatus,Option.getD_some]
    have hrow : (p.apply row).status = ((p.changedFrom row).apply q).status := by
      rw [hfirst,UserPatch.apply_status,hstatus,Option.getD_some]
    rw [UserPatch.changedFrom_status p' hrow,UserPatch.apply_status,hstatus',Option.getD_none,hfirst]

theorem wp_approve (h : Reading tx) (ids : List UUID) :
    (UserAdminService.approve env ctx actor userId role ids).wp (exec dbms) Commits
      (fun _ tx' => tx'.Sound userId) tx := by
  refine wp_checkedUser h (fun row tx' hl => ?_) fun _ => h.sound userId
  refine wp_check (fun ht => ?_) fun _ => hl.toReading.sound userId
  have hallowed := checkTransition_eq_ok.mp ht
  have hfound := find?_flushed_patchUser hl.found
    (UserRepository.statusPatch ctx.now .active (some actor.username) none)
  have hpending := flushed_pending_patchUser hl.found
    (UserRepository.statusPatch ctx.now .active (some actor.username) none)
  have hpending' := flushed_pending_patchUser hfound (UserRepository.rolePatch ctx.now role)
  rw [hl.pending] at hpending
  rw [hpending] at hpending'
  obtain ⟨hread,hid⟩ := hl.mem_read
  subst hid
  refine Script.wp_seq (wp_assign hl.active hl.found ?_ fun _ => sound_fail row.userId)
  refine Script.wp_seq (wp_assign (flushed_active hl.active) hfound ?_ fun _ => sound_fail row.userId)
  refine Script.wp_seq (wp_write hl.active ?_ fun _ => sound_fail row.userId)
  have heffect := approve_effect
    (UserRepository.statusPatch ctx.now .active (some actor.username) none)
    (UserRepository.rolePatch ctx.now role) rfl rfl rfl rfl row
  refine wp_record hl.active (sound_of_effect (some role) (some .active) hread ?_ ?_ ?_ ?_ ?_)
    (sound_fail row.userId)
  · rw [flushed_pending_insertAudit,flushed_pending_replaceScopes,hpending']
    simp [AccountWrite]
  · intro q hq
    rw [flushed_pending_insertAudit,flushed_pending_replaceScopes,hpending']
    simp only [List.nil_append,List.cons_append,patched,if_true]
    exact (heffect q).1 hq
  · intro q hq
    rw [flushed_pending_insertAudit,flushed_pending_replaceScopes,hpending']
    simp only [List.nil_append,List.cons_append,patched,if_true]
    exact (heffect q).2 hq
  · intro s hs
    cases hs
    exact hallowed
  · intro _ hactive _
    rw [hactive] at hallowed
    exact absurd hallowed (by decide)

theorem wp_userRoute (h : Reading tx) (path : String) {method : AccessScope → Service Unit}
    (hmethod : ∀ scope tx', Reading tx' → (method scope).wp (exec dbms) Commits
      (fun _ tx' => tx'.Sound userId) tx') :
    (Routes.userRoute ctx path method).wp (exec dbms) Commits
      (fun _ tx' => tx'.Sound userId) tx := by
  refine Script.wp_bind (wp_authorize h ctx path .userManage) (fun scope tx' h' => ?_)
    fun _ _ h' => h'.sound userId
  refine Script.wp_bind (hmethod scope tx' h') (fun _ tx' hs => ?_) fun _ _ hs => hs
  have hnil : ∀ tx'' : Transaction, tx''.pending = [] → tx''.Sound userId :=
    fun _ h' => sound_of_pending_nil h' userId
  exact Script.wp_seq (wp_commit ⟨userId,hs⟩ hs hnil hnil fun _ _ hs' => hs')

end

/-- Approving, rejecting, disabling, enabling and changing a role. -/
def Request.isAccountRequest : Request → Bool
  | .approve _ _ _ => true
  | .reject _ _ => true
  | .disable _ => true
  | .enable _ => true
  | .changeRole _ _ => true
  | _ => false

/-- Whatever happens between its statements, an account request commits only soundly. -/
theorem wp_handler {env : Env} {ctx : Context} {request : Request}
    (h : request.isAccountRequest = true) :
    (getDb (request.handler env ctx)).wp (exec dbms) Commits (fun _ _ => True) {} := by
  have hroute : ∃ userId, (request.handler env ctx).wp (exec dbms) Commits
      (fun _ tx' => tx'.Sound userId) {} := by
    cases request with
    | approve u role ids =>
      exact ⟨u,wp_userRoute reading_empty _ fun _ _ h' => wp_approve h' ids⟩
    | reject u reason => exact ⟨u,wp_userRoute reading_empty _ fun _ _ h' => wp_reject h' reason⟩
    | disable u => exact ⟨u,wp_userRoute reading_empty _ fun _ _ h' => wp_disable h'⟩
    | enable u => exact ⟨u,wp_userRoute reading_empty _ fun _ _ h' => wp_enable h'⟩
    | changeRole u role => exact ⟨u,wp_userRoute reading_empty _ fun _ _ h' => wp_changeRole h'⟩
    | register payload => cases h
    | setScopes u ids => cases h
    | resetPassword u => cases h
    | changePassword current new => cases h
    | createConnection payload => cases h
    | deleteConnection c => cases h
  obtain ⟨userId,hhandler⟩ := hroute
  refine wp_getDb (P:=fun tx => ∃ userId, tx.Sound userId)
    (fun _ h' => ⟨userId,sound_of_pending_nil h' userId⟩) ?_
  exact Script.wp_mono hhandler fun _ _ hs => ⟨userId,hs⟩

end
end WzonePortal
