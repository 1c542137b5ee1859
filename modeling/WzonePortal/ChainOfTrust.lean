import WzonePortal.AuditTrail
import WzonePortal.StatusHistory

/-! Where authority comes from. Whoever administers the portal was an active administrator at
the start, or was approved, enabled or given a role by somebody who had authority before; the
audit log holds the whole chain, however the sessions overlap. -/
namespace WzonePortal

open Transaction ReadCommitted AuditEventRow

/-- The acts after which an account may be an active administrator's. -/
def AuditAction.Empowers (action : AuditAction) : Prop :=
  action = .userApprove ∨ action = .userEnable ∨ action = .userRoleChange

theorem AuditAction.Empowers.administrative {action : AuditAction} (h : action.Empowers) :
    action.administrative = true := by
  rcases h with rfl | rfl | rfl <;> rfl

/-- Authority by a chain of acts in the log, each by somebody with authority before it, from an
administrator of `db`; `users` says whose name an actor is. -/
inductive Trusted (db users : Database) : List AuditEventRow → UUID → Prop
  | initial {log : List AuditEventRow} {u : UUID} {r : UserRow}
      (found : db.users.find? u = some r) (admin : Database.isActiveAdmin r = true) :
      Trusted db users log u
  | granted {earlier later : List AuditEventRow} {row : AuditEventRow} {u v : UUID} {q : UserRow}
      (names : row.Names u) (action : row.action.Empowers) (found : users.users.find? v = some q)
      (actor : row.actor = some q.username) (trusted : Trusted db users earlier v) :
      Trusted db users (earlier ++ row::later) u

/-- Every user is still there, under his name. -/
def Database.KeepsUsers (db db' : Database) : Prop :=
  ∀ u q, db.users.find? u = some q → ∃ q', db'.users.find? u = some q' ∧ q'.username = q.username

theorem Database.KeepsUsers.refl (db : Database) : db.KeepsUsers db := fun _ q hq => ⟨q,hq,rfl⟩

theorem Database.Act.keepsUsers {db db' : Database} {row : AuditEventRow} (h : db.Act row db') :
    db.KeepsUsers db' := fun u _ hq => (h.users u).persists hq

theorem Trusted.mono {db users users' : Database} {log : List AuditEventRow} {u : UUID}
    (h : Trusted db users log u) (hkeeps : users.KeepsUsers users') (more : List AuditEventRow) :
    Trusted db users' (log ++ more) u := by
  induction h generalizing more with
  | initial found admin => exact .initial found admin
  | @granted earlier later row u v q names action found actor trusted ih =>
    obtain ⟨q',hq',hname⟩ := hkeeps v q found
    rw [List.append_assoc,List.cons_append]
    refine .granted names action hq' (by rw [actor,hname]) ?_
    simpa using ih []

theorem empowers_of_tells {row : AuditEventRow} {u : UUID} {before : Option UserRow}
    {q' : UserRow} (h : row.Tells u before (some q')) (hadmin : Database.isActiveAdmin q' = true) :
    (∃ q, before = some q ∧ Database.isActiveAdmin q = true) ∨
      (row.Names u ∧ row.action.Empowers) := by
  simp only [Database.isActiveAdmin,Bool.and_eq_true,decide_eq_true_eq] at hadmin ⊢
  generalize hafter : some q' = after at h
  cases h with
  | same => exact .inl ⟨q',hafter.symm,hadmin⟩
  | changed q _ names found username status role hash =>
    cases hafter
    by_cases hrole : q'.role = q.role
    · rcases status with hs | hs
      · exact .inl ⟨q,found,by rw [← hrole,hadmin.1],by rw [← hs,hadmin.2]⟩
      · refine .inr ⟨names,?_⟩
        rw [hadmin.2] at hs
        cases ha : row.action <;> simp [ha,AuditAction.status?,AuditAction.Empowers] at hs ⊢
    · rcases role hrole with ha | ha
      · exact .inr ⟨names,.inl ha⟩
      · exact .inr ⟨names,.inr (.inr ha)⟩
  | registered _ action actor fresh status role =>
    cases hafter
    rw [status] at hadmin
    cases hadmin.2

section
variable {dbms : Dbms} {tx : Transaction} {db : Database}

theorem mem_remember {q : Query} {r : q.Res} {x : UserRow}
    (h : x ∈ (tx.remember q r).read) (heval : q.eval db = .ok r) :
    x ∈ tx.read ∨ db.users.find? x.userId = some x := by
  have hload : ∀ found : Option UserRow, (∀ row, found = some row → row ∈ db.users.rows) →
      x ∈ (Option.elim found tx tx.load).read →
      x ∈ tx.read ∨ db.users.find? x.userId = some x := by
    intro found hfound hx
    cases found with
    | none => exact .inl hx
    | some row =>
      simp only [Option.elim_some,load] at hx
      split at hx
      · exact .inl hx
      · rcases List.mem_cons.mp hx with rfl | hx
        · exact .inr (Table.find?_of_mem (hfound x rfl))
        · exact .inl hx
  cases q with
  | userById userId =>
    refine hload r (fun row hrow => ?_) h
    cases heval
    exact ((Table.find?_eq_some _ _ _).mp hrow).1
  | userByUsername username =>
    refine hload r (fun row hrow => ?_) h
    simp only [Query.eval] at heval
    split at heval <;> cases heval
    exact List.mem_of_find?_eq_some hrow
  | countActiveAdmins exclude => exact .inl h
  | scopesOf userId => exact .inl h
  | connectionById connectionId => exact .inl h
  | connectionByTarget address username => exact .inl h
  | countActiveVms connectionId => exact .inl h

theorem read_exec {o : Stmt} (ho : Audited o tx) {x : UserRow}
    (h : x ∈ (exec dbms o db tx).2.2.read) :
    x ∈ tx.read ∨ db.users.find? x.userId = some x := by
  cases o with
  | query q =>
    simp only [exec,execQuery] at h
    split at h
    · exact .inl h
    · split at h
      · exact .inl h
      · rename_i hcached
        rcases ho with hpending | hsome
        · rw [hpending] at h
          split at h
          · rename_i heval
            exact mem_remember h heval
          · cases h
        · rw [hcached] at hsome
          cases hsome
  | write w =>
    simp only [exec,execWrite] at h
    split at h
    · exact .inl h
    · split at h
      · exact .inl h
      · cases h
  | commit =>
    simp only [exec,execCommit] at h
    split at h
    · exact .inl h
    · split at h
      · exact .inl h
      · cases h
  | rollback => cases h

end
/-- The log since `db` holds the whole chain: active administrators have authority, and so has,
before each administrative row, the user whom the row names as its actor. -/
structure Database.ChainSince (db db' : Database) (log : List AuditEventRow) : Prop where
  logged : db'.auditEvents = db.auditEvents ++ log
  admins : ∀ u r, db'.users.find? u = some r → Database.isActiveAdmin r = true →
    Trusted db db' log u
  actors : ∀ earlier row later, log = earlier ++ row::later →
    row.action.administrative = true → ∃ v q, db'.users.find? v = some q ∧
      row.actor = some q.username ∧ Trusted db db' earlier v

/-- A row in the memory of a session is one that the database had. -/
structure Database.Remembered (db db' : Database) (log : List AuditEventRow) (r : UserRow) :
    Prop where
  known : ∃ q, db'.users.find? r.userId = some q ∧ q.username = r.username
  admin : Database.isActiveAdmin r = true → Trusted db db' log r.userId

section
variable {db mid db' : Database} {log : List AuditEventRow} {row : AuditEventRow} {r : UserRow}

theorem Database.ChainSince.remembered (h : db.ChainSince db' log)
    (hr : db'.users.find? r.userId = some r) : db.Remembered db' log r :=
  ⟨⟨r,hr,rfl⟩,h.admins r.userId r hr⟩

theorem Database.Remembered.act (h : db.Remembered mid log r) (hact : mid.Act row db') :
    db.Remembered db' (log ++ [row]) r := by
  obtain ⟨q,hq,hname⟩ := h.known
  obtain ⟨q',hq',hname'⟩ := hact.keepsUsers r.userId q hq
  exact ⟨⟨q',hq',hname'.trans hname⟩,fun ha => (h.admin ha).mono hact.keepsUsers [row]⟩

theorem eq_or_mem_of_append_singleton {earlier later : List AuditEventRow} {x : AuditEventRow}
    (h : log ++ [row] = earlier ++ x::later) :
    (log = earlier ∧ row = x) ∨ ∃ later', log = earlier ++ x::later' := by
  rcases List.eq_nil_or_concat later with rfl | ⟨later',y,rfl⟩
  · exact .inl ⟨(List.append_inj' h rfl).1,by simpa using (List.append_inj' h rfl).2⟩
  · rw [List.concat_eq_append,← List.cons_append,← List.append_assoc] at h
    exact .inr ⟨later',(List.append_inj' h rfl).1⟩

/-- The act of a session that remembers an active administrator extends the chain. -/
theorem Database.ChainSince.act (h : db.ChainSince mid log) (hact : mid.Act row db')
    (hactor : row.action.administrative = true → ∃ r, db.Remembered mid log r ∧
      Database.isActiveAdmin r = true ∧ row.actor = some r.username) :
    db.ChainSince db' (log ++ [row]) := by
  have hauthority : row.action.administrative = true → ∃ v q, db'.users.find? v = some q ∧
      row.actor = some q.username ∧ Trusted db db' log v := by
    intro ha
    obtain ⟨r,hr,hadmin,hname⟩ := hactor ha
    obtain ⟨q,hq,hsame⟩ := hr.known
    obtain ⟨q',hq',hsame'⟩ := hact.keepsUsers _ q hq
    refine ⟨r.userId,q',hq',by rw [hname,hsame',hsame],?_⟩
    simpa using (hr.admin hadmin).mono hact.keepsUsers []
  refine ⟨?_,fun u q' hq' hadmin => ?_,fun earlier x later hsplit ha => ?_⟩
  · rw [hact.logged,h.logged,List.append_assoc]
  · have htells := hact.users u
    rw [hq'] at htells
    rcases empowers_of_tells htells hadmin with ⟨q,hq,hqadmin⟩ | ⟨hnames,hempowers⟩
    · exact (h.admins u q hq hqadmin).mono hact.keepsUsers [row]
    · obtain ⟨v,q,hq,hname,htrusted⟩ := hauthority hempowers.administrative
      exact .granted hnames hempowers hq hname htrusted
  · rcases eq_or_mem_of_append_singleton hsplit with ⟨rfl,rfl⟩ | ⟨later',hlog⟩
    · exact hauthority ha
    · obtain ⟨v,q,hq,hname,htrusted⟩ := h.actors earlier x later' hlog ha
      obtain ⟨q',hq',hsame⟩ := hact.keepsUsers v q hq
      refine ⟨v,q',hq',by rw [hname,hsame],?_⟩
      simpa using htrusted.mono hact.keepsUsers []

end

/-- The sessions in progress and the chain that the database holds. -/
structure Chained {ι : Type} (dbms : Dbms) (db : Database) (sys : Open ι PortalAnswer) : Prop where
  behaved : sys.Behaved (exec dbms) Audited fun _ _ => True
  chain : ∃ log, db.ChainSince sys.shared log ∧
    ∀ i, ∀ r ∈ (sys.processes i).state.read, db.Remembered sys.shared log r

section
variable {ι : Type} [DecidableEq ι] {dbms : Dbms} {db : Database} {sys : Open ι PortalAnswer}

theorem read_step (h : sys.Behaved (exec dbms) Audited fun _ _ => True) (i j : ι) {r : UserRow}
    (hr : r ∈ ((sys.step (exec dbms) i).processes j).state.read) :
    r ∈ (sys.processes j).state.read ∨ sys.shared.users.find? r.userId = some r := by
  by_cases hj : j = i
  · subst hj
    have hscript := h j
    simp only [System.step,Function.update_self,Process.step] at hr
    split at hr
    · rename_i o next heq
      rw [heq] at hscript
      exact read_exec hscript.1 hr
    · exact .inl hr
  · simp only [System.step,Function.update_of_ne hj] at hr
    exact .inl hr

theorem Chained.step (h : Chained dbms db sys) (i : ι) :
    Chained dbms db (sys.step (exec dbms) i) := by
  obtain ⟨log,hchain,hreads⟩ := h.chain
  have hremembered : ∀ j, ∀ r ∈ ((sys.step (exec dbms) i).processes j).state.read,
      db.Remembered sys.shared log r := by
    intro j r hr
    rcases read_step h.behaved i j hr with hr | hr
    · exact hreads j r hr
    · exact hchain.remembered hr
  refine ⟨h.behaved.step i,?_⟩
  rcases step_act h.behaved i with hsame | ⟨row,hact,hadmin⟩
  · rw [hsame]
    exact ⟨log,hchain,hremembered⟩
  · refine ⟨log ++ [row],hchain.act hact fun ha => ?_,fun j r hr => (hremembered j r hr).act hact⟩
    obtain ⟨r,hr,hactive,hname⟩ := hadmin ha
    exact ⟨r,hreads i r hr,hactive,hname⟩

omit [DecidableEq ι] in
theorem chained_sessions (env : Env) (calls : ι → PortalCall) (db : Database) :
    Chained dbms db (sessions env calls db) := by
  refine ⟨sessions_behaved,[],⟨(List.append_nil _).symm,fun u r hr ha => .initial hr ha,
    fun earlier row later hsplit => ?_⟩,fun i r hr => ?_⟩
  · simp at hsplit
  · cases hr

end

/-- In every interleaving of sessions, the rows added to the audit log trace the authority of
every active administrator, and of whoever an administrative row names as its actor, back to
an administrator who was active at the start. -/
theorem authority_is_traced {ι : Type} [DecidableEq ι] (env : Env) (dbms : Dbms)
    (calls : ι → PortalCall) (db : Database) (schedule : List ι) :
    ∃ log, db.ChainSince ((sessions env calls db).run (exec dbms) schedule).shared log := by
  obtain ⟨_,log,hchain,_⟩ := System.run_preserves (P:=Chained dbms db)
    (fun i _ h => h.step i) (chained_sessions env calls db) schedule
  exact ⟨log,hchain⟩

theorem not_trusted {db users : Database} {log : List AuditEventRow} {u : UUID}
    (hdb : ∀ r ∈ db.users.rows, Database.isActiveAdmin r = false) : ¬ Trusted db users log u := by
  intro h
  induction h with
  | initial found admin =>
    rw [hdb _ ((Table.find?_eq_some _ _ _).mp found).1] at admin
    cases admin
  | granted names action found actor trusted ih => exact ih

/-- Accounts, scopes and connections are those of `db`; who registered since is a pending
viewer. -/
structure Database.Frozen (db db' : Database) : Prop where
  users : db.KeepsUsers db'
  accounts : ∀ u q', db'.users.find? u = some q' →
    (∃ q, db.users.find? u = some q ∧ q'.username = q.username ∧ q'.status = q.status ∧
      q'.role = q.role) ∨
    (db.users.find? u = none ∧ q'.status = .pending ∧ q'.role = .viewer)
  scopes : ∀ s : UserConnectionScopeRow,
    s ∈ db'.userConnectionScopes.rows ↔ s ∈ db.userConnectionScopes.rows
  connections : ∀ c, db'.connections.find? c = db.connections.find? c

/-- An act that takes no administrator leaves what is frozen. -/
theorem Database.Frozen.act {db mid db' : Database} {row : AuditEventRow} (h : db.Frozen mid)
    (hact : mid.Act row db') (hrow : row.action.administrative = false) : db.Frozen db' := by
  have hneither : ∀ action, action.administrative = true → row.action ≠ action := by
    rintro _ ha rfl
    rw [hrow] at ha
    cases ha
  refine ⟨fun u q hq => ?_,fun u q' hq' => ?_,fun s => ?_,fun c => ?_⟩
  · obtain ⟨p,hp,hname⟩ := h.users u q hq
    obtain ⟨p',hp',hname'⟩ := hact.keepsUsers u p hp
    exact ⟨p',hp',hname'.trans hname⟩
  · have htells := hact.users u
    rw [hq'] at htells
    generalize hmid : mid.users.find? u = before at htells
    cases htells with
    | same => exact h.accounts u q' hmid
    | changed q _ names found username status role hash =>
      have hstatus : q'.status = q.status := by
        rcases status with hs | hs
        · exact hs
        · cases ha : row.action <;> rw [ha] at hs hrow <;> first | cases hs | cases hrow
      have hrole : q'.role = q.role := by
        by_contra hr
        rcases role hr with ha | ha
        · exact hneither .userApprove rfl ha
        · exact hneither .userRoleChange rfl ha
      rw [hstatus,hrole,username]
      exact h.accounts u q (hmid.trans found)
    | registered _ action actor fresh status role =>
      refine .inr ⟨?_,status,role⟩
      cases hq : db.users.find? u with
      | none => rfl
      | some q =>
        obtain ⟨p,hp,_⟩ := h.users u q hq
        rw [hp] at hmid
        exact absurd (hmid.trans fresh) (by simp)
  · rcases hact.scopes s with hs | ⟨_,ha | ha | ha⟩ | ⟨_,ha⟩
    · exact hs.trans (h.scopes s)
    · exact absurd ha (hneither .userApprove rfl)
    · exact absurd ha (hneither .userRoleChange rfl)
    · exact absurd ha (hneither .scopeUpdate rfl)
    · exact absurd ha (hneither .connectionDelete rfl)
  · rcases hact.connections c with hc | ⟨_,ha | ha⟩
    · exact hc.trans (h.connections c)
    · exact absurd ha (hneither .connectionCreate rfl)
    · exact absurd ha (hneither .connectionDelete rfl)

theorem Database.Frozen.refl (db : Database) : db.Frozen db :=
  ⟨.refl db,fun _ q hq => .inl ⟨q,hq,rfl,rfl,rfl⟩,fun _ => .rfl,fun _ => rfl⟩

/-- Without an active administrator, no interleaving of sessions changes the status or the role
of an account, a scope or a connection: the requests can only register pending viewers. -/
theorem frozen_without_admin {ι : Type} [DecidableEq ι] (env : Env) (dbms : Dbms)
    (calls : ι → PortalCall) (db : Database)
    (hdb : ∀ r ∈ db.users.rows, Database.isActiveAdmin r = false) (schedule : List ι) :
    db.Frozen ((sessions env calls db).run (exec dbms) schedule).shared := by
  have hrun := System.run_preserves (P:=fun sys => Chained dbms db sys ∧ db.Frozen sys.shared)
    (fun i sys h => ⟨h.1.step i,?_⟩) ⟨chained_sessions env calls db,.refl db⟩ schedule
  · exact hrun.2
  · rcases step_act h.1.behaved i with hsame | ⟨row,hact,hadmin⟩
    · rw [hsame]
      exact h.2
    · refine h.2.act hact ?_
      cases ha : row.action.administrative with
      | false => rfl
      | true =>
        obtain ⟨r,hr,hactive,_⟩ := hadmin ha
        obtain ⟨log,_,hreads⟩ := h.1.chain
        exact absurd ((hreads i r hr).admin hactive) (not_trusted hdb)

def withoutAdmin : Database :=
  { rootDatabase with users := ⟨[{ root with status := .disabled },applicant],by decide⟩ }

theorem frozen_without_admin_applicant : (∀ r ∈ withoutAdmin.users.rows,
    Database.isActiveAdmin r = false) ∧
    withoutAdmin.Frozen ((sessions plainEnv
      (fun i => ⟨(approveAndReject i).ctx,.request (approveAndReject i).request⟩)
      withoutAdmin).run (exec .lenient) (List.replicate 12 true)).shared :=
  ⟨by decide,frozen_without_admin plainEnv .lenient _ withoutAdmin (by decide) _⟩

end WzonePortal
