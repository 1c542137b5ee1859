import WzonePortal.ReadCommitted

/-! The repositories' calls inside an open transaction, one rule each: what has been read and
loaded after the call, and which statements have been flushed. Only a commit has an obligation;
what it is, each group of requests says for itself. -/
namespace WzonePortal

open Transaction ReadCommitted

namespace Transaction

/-- Nothing has been written yet. -/
structure Reading (tx : Transaction) : Prop where
  pending : tx.pending = []
  active : tx.inactive = false
  rows : tx.rows = tx.read

/-- The transaction has read the row of a user, and nothing has been written yet. -/
structure Loaded (tx : Transaction) (userId : UUID) (row : UserRow) : Prop extends Reading tx where
  found : tx.find? userId = some row

end Transaction

/-- Only a commit needs to be justified. -/
def OnCommit (P : Transaction → Prop) (o : Stmt) (tx : Transaction) : Prop := o = .commit → P tx

theorem onCommit_query {P : Transaction → Prop} (q : Query) (tx : Transaction) :
    OnCommit P (.query q) tx := by
  intro h
  cases h

theorem onCommit_write {P : Transaction → Prop} (w : Write) (tx : Transaction) :
    OnCommit P (.write w) tx := by
  intro h
  cases h

theorem onCommit_rollback {P : Transaction → Prop} (tx : Transaction) :
    OnCommit P .rollback tx := by
  intro h
  cases h

theorem reading_empty : Reading {} := ⟨rfl,rfl,rfl⟩

section
variable {tx : Transaction} {userId : UUID} {row : UserRow}

theorem find?_flushed_patchUser (h : tx.find? userId = some row) (p : UserPatch) :
    (tx.flushed (.patchUser userId p)).find? userId = some (p.apply row) := by
  simp only [Transaction.find?,flushed,List.find?_map] at h ⊢
  have hsame : ((fun r : UserRow => decide (r.userId = userId)) ∘
      fun r => if r.userId = userId then p.apply r else r) = fun r => decide (r.userId = userId) := by
    funext r
    by_cases hr : r.userId = userId <;> simp [hr]
  have hid : row.userId = userId := by simpa using List.find?_some h
  rw [hsame,h,Option.map_some,if_pos hid]

theorem emitted_patchUser (h : tx.find? userId = some row) (p : UserPatch) :
    tx.emitted (.patchUser userId p) = .patchUser userId (p.changedFrom row) := by
  simp [emitted,h]

theorem Transaction.Loaded.mem_read (h : tx.Loaded userId row) :
    row ∈ tx.read ∧ row.userId = userId := by
  have hf := h.found
  rw [Transaction.find?,h.rows] at hf
  exact ⟨List.mem_of_find?_eq_some hf,by simpa using List.find?_some hf⟩

theorem flushed_active (h : tx.inactive = false) {w : Write} : (tx.flushed w).inactive = false := h

theorem flushed_pending_patchUser (h : tx.find? userId = some row) (p : UserPatch) :
    (tx.flushed (.patchUser userId p)).pending =
      tx.pending ++ [.patchUser userId (p.changedFrom row)] := by
  simp only [flushed,emitted_patchUser h]

theorem flushed_pending_insertAudit (tx : Transaction) (row : AuditEventRow) :
    (tx.flushed (.insertAudit row)).pending = tx.pending ++ [.insertAudit row] := rfl

theorem flushed_pending_replaceScopes (tx : Transaction) (ids : List UUID)
    (grantedBy : Option String) (now : Timestamp) :
    (tx.flushed (.replaceScopes userId ids grantedBy now)).pending =
      tx.pending ++ [.replaceScopes userId ids grantedBy now] := rfl

end

section
variable {dbms : Dbms} {P : Transaction → Prop} {tx : Transaction} {userId : UUID} {row : UserRow}
  {α β : Type}

theorem wp_write {w : Write} {Q : Except Exc Unit → Transaction → Prop}
    (hactive : tx.inactive = false) (hok : Q (.ok ()) (tx.flushed w))
    (herror : ∀ e, Q (.error e) .fail) : (flush w).wp (exec dbms) (OnCommit P) Q tx :=
  wp_flush (onCommit_write w tx) hactive hok herror

theorem wp_rollback {Q : Except Exc Unit → Transaction → Prop} (h : Q (.ok ()) {}) :
    rollback.wp (exec dbms) (OnCommit P) Q tx :=
  Script.wp_perform (onCommit_rollback tx) fun _ => h

theorem wp_liftExcept {x : Except Exc α} {Q : Except Exc α → Transaction → Prop} (h : Q x tx) :
    (liftExcept x).wp (exec dbms) (OnCommit P) Q tx := by
  cases x <;> exact h

theorem execQuery_of_reading (h : Reading tx) (q : Query) (db : Database) :
    execQuery dbms q db tx = match tx.cached q with
      | some r => (.ok r,db,tx)
      | none => match q.eval db with
        | .ok r => (.ok (tx.resolve q r),db,tx.remember q r)
        | .error e => (.error e,db,.fail) := by
  rw [execQuery,h.active,h.pending]
  rfl

theorem reading_load (h : Reading tx) (row : UserRow) : Reading (tx.load row) := by
  unfold load
  split
  · exact h
  · exact ⟨h.pending,h.active,by rw [h.rows]⟩

theorem find?_load (h : tx.find? row.userId = none) : (tx.load row).find? row.userId = some row := by
  rw [load,h]
  simp [Transaction.find?]

theorem wp_getRow (h : Reading tx) {Q : Except Exc (Option UserRow) → Transaction → Prop}
    (hnone : Q (.ok none) tx) (hsome : ∀ row tx', Loaded tx' userId row → Q (.ok (some row)) tx') :
    (UserRepository.getRow userId).wp (exec dbms) (OnCommit P) Q tx := by
  refine Script.wp_perform (onCommit_query _ tx) fun db => ?_
  simp only [exec,execQuery_of_reading h]
  cases hcached : tx.find? userId with
  | some row =>
    simp only [cached,hcached,Option.map_some]
    exact hsome row tx ⟨h,hcached⟩
  | none =>
    simp only [cached,hcached,Option.map_none,Query.eval]
    cases hfound : db.users.find? userId with
    | none => exact hnone
    | some row =>
      have hid : row.userId = userId := Table.find?_key hfound
      subst hid
      exact hsome row _ ⟨reading_load h row,find?_load hcached⟩

theorem wp_listForUser (h : Reading tx) {Q : Except Exc (List UUID) → Transaction → Prop}
    (hQ : ∀ ids, Q (.ok ids) tx) :
    (ScopeRepository.listForUser userId).wp (exec dbms) (OnCommit P) Q tx := by
  refine Script.wp_perform (onCommit_query _ tx) fun db => ?_
  simp only [exec,execQuery_of_reading h]
  exact hQ _

theorem wp_countActiveAdmins (h : Reading tx) {Q : Except Exc ℕ → Transaction → Prop}
    (hQ : ∀ n, Q (.ok n) { tx with counted := (some userId,n)::tx.counted }) :
    (UserRepository.countActiveAdmins (some userId)).wp (exec dbms) (OnCommit P) Q tx := by
  refine Script.wp_perform (onCommit_query _ tx) fun db => ?_
  simp only [exec,execQuery_of_reading h]
  exact hQ _

theorem wp_getAccessScope (h : Reading tx) (user : AuthenticatedUser) :
    (Deps.getAccessScope user).wp (exec dbms) (OnCommit P) (fun _ tx' => Reading tx') tx := by
  unfold Deps.getAccessScope
  split
  · exact h
  · exact Script.wp_bind (wp_listForUser (Q := fun _ tx' => Reading tx') h fun _ => h)
      (fun _ _ h' => h') fun _ _ h' => h'

/-- Identifying the caller only reads, and the answer is the user that the cookie names. -/
theorem wp_getCurrentUser (h : Reading tx) (cookie : Cookie) :
    (Deps.getCurrentUser cookie).wp (exec dbms) (OnCommit P) (fun r tx' => Reading tx' ∧
      ∀ user, r = .ok user → ∃ claims, cookie = .valid claims ∧ user.userId = claims.sub) tx := by
  unfold Deps.getCurrentUser
  cases cookie with
  | missing => exact ⟨h,fun _ he => by cases he⟩
  | invalid => exact ⟨h,fun _ he => by cases he⟩
  | valid claims =>
    refine Script.wp_bind (R := fun r tx' => Reading tx' ∧ ∀ user, r = .ok (some user) →
      user.userId = claims.sub) ?_ (fun found tx' h' => ?_) fun e _ h' => ⟨h'.1,fun _ he => by cases he⟩
    · refine Script.wp_seq (wp_getRow h ⟨h,fun _ he => by cases he⟩ fun row _ hl => ?_)
      refine ⟨hl.toReading,fun user he => ?_⟩
      cases he
      exact hl.mem_read.2
    · cases found with
      | none => exact ⟨h'.1,fun _ he => by cases he⟩
      | some user =>
        refine Script.wp_seq (Script.wp_require (fun _ => ?_) fun _ => ⟨h'.1,fun _ he => by cases he⟩)
        refine ⟨h'.1,fun u he => ?_⟩
        cases he
        exact ⟨claims,rfl,h'.2 user rfl⟩

theorem wp_authorize (h : Reading tx) (ctx : Context) (path : String) (p : Permission) :
    (Deps.authorize ctx path p).wp (exec dbms) (OnCommit P) (fun _ tx' => Reading tx') tx := by
  refine Script.wp_bind (wp_getCurrentUser h ctx.cookie) (fun current tx' h' => ?_)
    fun _ _ h' => h'.1
  refine Script.wp_bind (R := fun _ tx' => Reading tx') (wp_liftExcept h'.1) (fun _ _ h' => ?_)
    fun _ _ h' => h'
  refine Script.wp_bind (R := fun _ tx' => Reading tx') (wp_liftExcept h') (fun _ _ h' => ?_)
    fun _ _ h' => h'
  exact wp_getAccessScope h' _

theorem wp_findRow (h : Reading tx) (username : String)
    {Q : Except Exc (Option UserRow) → Transaction → Prop} (herror : ∀ e, Q (.error e) .fail)
    (hnone : Q (.ok none) tx)
    (hsome : ∀ row tx', Loaded tx' row.userId row → Q (.ok (some row)) tx') :
    (UserRepository.findRowByUsername username).wp (exec dbms) (OnCommit P) Q tx := by
  refine Script.wp_perform (onCommit_query _ tx) fun db => ?_
  simp only [exec,execQuery_of_reading h,cached]
  cases (Query.userByUsername username).eval db with
  | error e => exact herror e
  | ok found =>
    cases found with
    | none => exact hnone
    | some row =>
      change Q (.ok (some ((tx.find? row.userId).getD row))) (tx.load row)
      cases hcached : tx.find? row.userId with
      | none => exact hsome row _ ⟨reading_load h row,find?_load hcached⟩
      | some r =>
        have hid : r.userId = row.userId := by simpa using List.find?_some hcached
        refine hsome r _ ⟨reading_load h row,?_⟩
        simp only [load,hcached,Option.isSome_some,if_true,hid]

theorem wp_ask_idle (h : tx.pending = []) (q : Query) {Q : Except Exc q.Res → Transaction → Prop}
    (hQ : ∀ r tx', tx'.pending = [] → Q r tx') : (ask q).wp (exec dbms) (OnCommit P) Q tx := by
  refine Script.wp_perform (onCommit_query q tx) fun db => ?_
  have hload : ∀ found : Option UserRow, (Option.elim found tx tx.load).pending = [] := by
    intro found
    cases found with
    | none => exact h
    | some row =>
      simp only [Option.elim_some,load]
      split <;> exact h
  simp only [exec,execQuery]
  split
  · exact hQ _ _ h
  · split
    · exact hQ _ _ h
    · split
      · refine hQ _ _ ?_
        cases q <;> first | exact hload _ | exact h
      · exact hQ _ _ rfl

theorem wp_requireUser (h : Reading tx) {Q : Except Exc UserRow → Transaction → Prop}
    (hok : ∀ row tx', Loaded tx' userId row → Q (.ok row) tx') (herror : ∀ e, Q (.error e) tx) :
    (UserAdminService.requireUser userId).wp (exec dbms) (OnCommit P) Q tx := by
  refine Script.wp_bind (R := fun r tx' => (r = .ok none ∧ tx' = tx) ∨
    ∃ row, r = .ok (some row) ∧ Loaded tx' userId row)
    (wp_getRow h (.inl ⟨rfl,rfl⟩) fun row tx' hl => .inr ⟨row,rfl,hl⟩) ?_ ?_
  · rintro found tx' (⟨he,rfl⟩ | ⟨row,he,hl⟩)
    · cases he
      exact herror _
    · cases he
      exact hok row tx' hl
  · rintro e tx' (⟨he,_⟩ | ⟨row,he,_⟩) <;> cases he

theorem wp_check {x : Except Exc Unit} {f : Unit → Service β}
    {Q : Except Exc β → Transaction → Prop}
    (hok : x = .ok () → (f ()).wp (exec dbms) (OnCommit P) Q tx) (herror : ∀ e, Q (.error e) tx) :
    (liftExcept x >>= f).wp (exec dbms) (OnCommit P) Q tx := by
  cases x with
  | ok u => exact hok rfl
  | error e => exact herror e

theorem wp_checkedUser (h : Reading tx) {x : Except Exc Unit} {f : UserRow → Service β}
    {Q : Except Exc β → Transaction → Prop}
    (hok : ∀ row tx', Loaded tx' userId row → (f row).wp (exec dbms) (OnCommit P) Q tx')
    (herror : ∀ e, Q (.error e) tx) :
    (liftExcept x >>= fun _ => UserAdminService.requireUser userId >>= f).wp (exec dbms)
      (OnCommit P) Q tx :=
  wp_check (fun _ => Script.wp_seq (wp_requireUser h hok herror)) herror

theorem wp_assign {patch : UserRow → UserPatch} (hactive : tx.inactive = false)
    (hfound : tx.find? userId = some row) {Q : Except Exc Unit → Transaction → Prop}
    (hok : Q (.ok ()) (tx.flushed (.patchUser userId (patch row)))) (herror : ∀ e, Q (.error e) .fail) :
    (UserRepository.assign userId patch).wp (exec dbms) (OnCommit P) Q tx := by
  refine Script.wp_seq (Script.wp_perform (onCommit_query _ tx) fun db => ?_)
  have hcached : tx.cached (.userById userId) = some (some row) := by simp [cached,hfound]
  simp only [exec,execQuery,hactive,hcached,Bool.false_eq_true,if_false]
  exact wp_write hactive hok herror

theorem wp_record {now : Timestamp} {event : AuditEvent} {Q : Except Exc Unit → Transaction → Prop}
    (hactive : tx.inactive = false)
    (hok : Q (.ok ()) (tx.flushed (.insertAudit (AuditRepository.eventRow now event))))
    (hfail : Q (.ok ()) .fail) :
    (AuditRepository.record now event).wp (exec dbms) (OnCommit P) Q tx := by
  refine Script.wp_tryCatch (R := fun r tx' => (r = .ok () ∧
    tx' = tx.flushed (.insertAudit (AuditRepository.eventRow now event))) ∨ tx' = .fail) ?_ ?_ ?_
  · exact wp_write hactive (.inl ⟨rfl,rfl⟩) fun _ => .inr rfl
  · rintro _ tx' (⟨_,rfl⟩ | rfl)
    · exact hok
    · exact hfail
  · rintro e tx' (⟨he,_⟩ | rfl)
    · cases he
    · exact hfail

/-- What a commit may do is checked before it; after it nothing is left to write. -/
theorem wp_commit {R : Transaction → Prop} (hP : P tx) (hR : R tx)
    (hnil : ∀ tx', tx'.pending = [] → R tx') {Q : Except Exc Unit → Transaction → Prop}
    (hok : ∀ tx', tx'.pending = [] → Q (.ok ()) tx') (herror : ∀ e tx', R tx' → Q (.error e) tx') :
    commit.wp (exec dbms) (OnCommit P) Q tx := by
  refine Script.wp_perform (fun _ => hP) fun db => ?_
  simp only [exec,execCommit]
  by_cases hi : tx.inactive = true
  · rw [if_pos hi]
    exact herror _ _ hR
  · rw [if_neg hi]
    cases Write.applyAll dbms tx.pending db with
    | ok db' => exact hok _ rfl
    | error e => exact herror _ _ (hnil _ rfl)

theorem wp_getDb {handler : Service α} (hnil : ∀ tx', tx'.pending = [] → P tx')
    (h : handler.wp (exec dbms) (OnCommit P) (fun _ => P) tx) :
    (getDb handler).wp (exec dbms) (OnCommit P) (fun _ _ => True) tx := by
  refine Script.wp_tryCatch (R := fun _ _ => True) ?_ (fun _ _ _ => trivial) fun e tx' _ => ?_
  · refine Script.wp_bind h (fun r tx' hs => ?_) fun _ _ _ => trivial
    exact Script.wp_seq (wp_commit hs hs hnil (fun _ _ => trivial) fun _ _ _ => trivial)
  · exact Script.wp_seq (wp_rollback trivial)

end

namespace ReadCommitted

/-- Any scripts in progress over one database, each in a transaction of its own. -/
abbrev Open (ι α : Type) := System ι Stmt.Res Exc α Database Transaction

def openAll {ι α : Type} (scripts : ι → Service α) (db : Database) : Open ι α where
  shared := db
  processes := fun i => ⟨scripts i,{}⟩

/-- The next statement of a process is a commit that applies what it has flushed. -/
def commits {ι α : Type} (dbms : Dbms) (i : ι) (sys : Open ι α) : Bool :=
  match (sys.processes i).script with
  | .call .commit _ => !(sys.processes i).state.inactive && (sys.processes i).state.pending ≠ [] &&
      (Write.applyAll dbms (sys.processes i).state.pending sys.shared).isOk
  | _ => false

section
variable {ι α : Type} {dbms : Dbms} {sys : Open ι α}

/-- A step changes the database only by a commit of flushed statements. -/
theorem step_shared [DecidableEq ι] (dbms : Dbms) (i : ι) (sys : Open ι α) :
    (commits dbms i sys = false ∧ (sys.step (exec dbms) i).shared = sys.shared) ∨
    (commits dbms i sys = true ∧ Write.applyAll dbms (sys.processes i).state.pending sys.shared =
      .ok (sys.step (exec dbms) i).shared) := by
  simp only [System.step,Process.step,commits]
  cases hscript : (sys.processes i).script with
  | ret a => exact .inl ⟨rfl,rfl⟩
  | raise e => exact .inl ⟨rfl,rfl⟩
  | call o next =>
    cases o with
    | commit =>
      simp only [exec,execCommit]
      cases hactive : (sys.processes i).state.inactive with
      | true => exact .inl ⟨rfl,rfl⟩
      | false =>
        cases hall : Write.applyAll dbms (sys.processes i).state.pending sys.shared with
        | error e => simp [Except.isOk,Except.toBool]
        | ok db' =>
          by_cases hp : (sys.processes i).state.pending = []
          · rw [hp] at hall
            cases hall
            exact .inl ⟨by simp [hp],rfl⟩
          · exact .inr ⟨by simp [hp,Except.isOk,Except.toBool],rfl⟩
    | query q => exact .inl ⟨rfl,exec_shared (by simp) sys.shared⟩
    | write w => exact .inl ⟨rfl,exec_shared (by simp) sys.shared⟩
    | rollback => exact .inl ⟨rfl,rfl⟩

/-- A commit is issued where the contract of its process allows it. -/
theorem contract_of_commits {P : ι → Transaction → Prop}
    {Q : ι → Except Exc α → Transaction → Prop}
    (h : sys.EachBehaved (exec dbms) (fun i => OnCommit (P i)) Q) {i : ι}
    (hcommit : commits dbms i sys = true) : P i (sys.processes i).state := by
  have hi := h i
  unfold commits at hcommit
  split at hcommit
  · rename_i next hscript
    rw [hscript] at hi
    exact hi.1 rfl
  · cases hcommit

end
end ReadCommitted
end WzonePortal
