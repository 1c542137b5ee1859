import WzonePortal.FirstWins
import WzonePortal.RegistrationDisclosure
import WzonePortal.TransactionRules

/-! Requests that compete for one unique key: connections with one address and user name, or
registrations of one name. Each looks for the key and inserts it later; the loser of a race
that both checks have passed gets the error of the constraint and not that of the check. -/
namespace WzonePortal

open ReadCommitted

inductive UniqueKey
  | target (address user : String)
  | username (name : String)
  deriving DecidableEq, Repr

namespace UniqueKey

def check : UniqueKey → Query
  | .target address user => .connectionByTarget address user
  | .username name => .userByUsername name

def rows : UniqueKey → Database → ℕ
  | .target address user, db =>
    (db.connections.rows.filter fun r => r.address = address && r.username = user).length
  | .username name, db => (db.users.rows.filter fun r => r.username = name).length

def inserts : UniqueKey → Write → Bool
  | .target address user, .insertConnection row =>
    row.address = address && row.username = user
  | .username name, .insertUser row => row.username = name
  | _, _ => false

def Competes (env : Env) : UniqueKey → Request → Prop
  | .target address user, .createConnection payload =>
    payload.address = address ∧ payload.username = user
  | .username name, .register payload => AuthService.normalize env payload.username = name
  | _, _ => False

/-- What the check answers a duplicate: an error of its own, or what it answers everybody. -/
def AnswersDuplicate : UniqueKey → Except Exc Response → Prop
  | .target _ _, x => (∃ existing, x = .error (ConnectionService.duplicateError existing)) ∧
      (httpAnswer x).statusCode = 409
  | .username _, x => httpAnswer x = acceptedAnswer

end UniqueKey

abbrev RequestProcess : Type := Process Stmt.Res Exc Response Transaction

def nextStatement (p : RequestProcess) : Option Stmt :=
  match p.script with
  | .call o _ => some o
  | _ => none

/-- An insert of the key is the next statement or is waiting for its commit. -/
def claims (key : UniqueKey) (p : RequestProcess) : Bool :=
  (match nextStatement p with
    | some (.write w) => key.inserts w
    | _ => false) || p.state.pending.any key.inserts

/-- A check for the key runs while no other request is between its check and its commit. -/
def ChecksAlone {ι : Type} (key : UniqueKey) (i : ι) (sys : Requests ι) : Prop :=
  nextStatement (sys.processes i) = some (.query key.check) →
    ∀ j, j ≠ i → claims key (sys.processes j) = false

/-- The unique constraint makes an insert wait for another that is not committed yet. -/
def Blocked {ι : Type} (key : UniqueKey) (i : ι) (sys : Requests ι) : Prop :=
  (match nextStatement (sys.processes i) with
    | some (.write w) => key.inserts w
    | _ => false) = true ∧ ∃ j, j ≠ i ∧ ((sys.processes j).state.pending.any key.inserts) = true

instance {ι : Type} [Fintype ι] [DecidableEq ι] (key : UniqueKey) (i : ι) (sys : Requests ι) :
    Decidable (ChecksAlone key i sys) :=
  inferInstanceAs (Decidable (_ → ∀ j, j ≠ i → _))

instance {ι : Type} [Fintype ι] [DecidableEq ι] (key : UniqueKey) (i : ι) (sys : Requests ι) :
    Decidable (Blocked key i sys) :=
  inferInstanceAs (Decidable (_ ∧ ∃ j, j ≠ i ∧ _))

def insertTail (w : Write) (now : Timestamp) (d : Decision) : Service Response := do
  flush w
  AuditRepository.record now d.event
  commit
  pure d.response

def recordTail (now : Timestamp) (d : Decision) : Service Response := do
  AuditRepository.record now d.event
  commit
  pure d.response

def commitTail (d : Decision) : Service Response := do
  commit
  pure d.response

/-- A request whose check has found nothing. -/
inductive Inserting (w : Write) (now : Timestamp) (d : Decision) : RequestProcess → Prop
  | inserting (tx : Transaction) (hactive : tx.inactive = false) (hpending : tx.pending = []) :
    Inserting w now d ⟨getDb (insertTail w now d),tx⟩
  | recording (tx : Transaction) (hactive : tx.inactive = false) (hpending : tx.pending = [w]) :
    Inserting w now d ⟨getDb (recordTail now d),tx⟩
  | committing (tx : Transaction) (hactive : tx.inactive = false)
    (hpending : tx.pending = [w,.insertAudit (AuditRepository.eventRow now d.event)]) :
    Inserting w now d ⟨getDb (commitTail d),tx⟩

/-- A request that has nothing to do with the key any more and will end in `x`. -/
inductive Ending (dbms : Dbms) (x : Except Exc Response) : RequestProcess → Prop
  | recording (tx : Transaction) (now : Timestamp) (d : Decision) (hx : x = .ok d.response)
    (haudit : dbms.acceptsAudit (AuditRepository.eventRow now d.event) = true)
    (hactive : tx.inactive = false) (hpending : tx.pending = []) :
    Ending dbms x ⟨getDb (recordTail now d),tx⟩
  | committing (tx : Transaction) (row : AuditEventRow) (d : Decision) (hx : x = .ok d.response)
    (haudit : dbms.acceptsAudit row = true) (hactive : tx.inactive = false)
    (hpending : tx.pending = [.insertAudit row]) : Ending dbms x ⟨getDb (commitTail d),tx⟩
  | closing (tx : Transaction) (r : Response) (hx : x = .ok r) (hactive : tx.inactive = false)
    (hpending : tx.pending = []) : Ending dbms x ⟨getDb (pure r),tx⟩
  | raising (tx : Transaction) (e : Exc) (hx : x = .error e) : Ending dbms x ⟨getDb (throw e),tx⟩
  | ended (tx : Transaction) : Ending dbms x ⟨.done x,tx⟩

def Database.withAudits (db : Database) (events : List AuditEventRow) : Database :=
  { db with auditEvents := events }

@[simp] theorem Database.withAudits_users (db : Database) (events : List AuditEventRow) :
    (db.withAudits events).users = db.users := rfl
@[simp] theorem Database.withAudits_connections (db : Database) (events : List AuditEventRow) :
    (db.withAudits events).connections = db.connections := rfl

/-- Up to the audit rows. -/
def SameData (db s : Database) : Prop := ∃ events, s = db.withAudits events

section
variable {dbms : Dbms} {db db' s : Database} {tx tx' : Transaction} {w : Write} {now : Timestamp}
  {d : Decision} {x : Except Exc Response} {p : RequestProcess} {key : UniqueKey}

theorem SameData.refl (db : Database) : SameData db db := ⟨db.auditEvents,rfl⟩

theorem SameData.trans {mid : Database} (h : SameData db mid) (h' : SameData mid s) :
    SameData db s := by
  obtain ⟨events,rfl⟩ := h
  obtain ⟨events',rfl⟩ := h'
  exact ⟨events',rfl⟩

theorem step_getDb {o : Stmt} {a : o.Res} (h : exec dbms o s tx = (.ok a,db',tx'))
    (f : o.Res → Service Response) :
    (⟨getDb (Script.perform o >>= f),tx⟩ : RequestProcess).step (exec dbms) s =
      (db',⟨getDb (f a),tx'⟩) :=
  Process.step_answered rfl h

theorem step_recordTail (hactive : tx.inactive = false)
    (hall : (Write.applyAll dbms (tx.pending ++
      [.insertAudit (AuditRepository.eventRow now d.event)]) s).isOk = true) :
    (⟨getDb (recordTail now d),tx⟩ : RequestProcess).step (exec dbms) s =
      (s,⟨getDb (commitTail d),tx.flushed (.insertAudit (AuditRepository.eventRow now d.event))⟩) :=
  Process.step_answered rfl
    (exec_write (w:=.insertAudit (AuditRepository.eventRow now d.event)) hactive hall)

theorem step_commitTail (hactive : tx.inactive = false)
    (hall : Write.applyAll dbms tx.pending s = .ok db') :
    (⟨getDb (commitTail d),tx⟩ : RequestProcess).step (exec dbms) s =
      (db',⟨getDb (pure d.response),{ tx with pending := [] }⟩) :=
  step_getDb (exec_commit hactive hall) fun _ => pure d.response

theorem step_pure {r : Response} (hactive : tx.inactive = false) (hpending : tx.pending = []) :
    (⟨getDb (pure r),tx⟩ : RequestProcess).step (exec dbms) s =
      (s,⟨.ret r,{ tx with pending := [] }⟩) := by
  have h : exec dbms .commit s tx = (.ok (),s,{ tx with pending := [] }) :=
    exec_commit hactive (by rw [hpending]; rfl)
  exact Process.step_answered rfl h

theorem step_throw {e : Exc} : (⟨getDb (throw e),tx⟩ : RequestProcess).step (exec dbms) s =
    (s,⟨.raise e,{}⟩) := rfl

theorem apply_accepted {row : AuditEventRow} (h : dbms.acceptsAudit row = true)
    (db : Database) : (Write.insertAudit row).apply dbms db = .ok (db.addAudit row) :=
  if_pos h

theorem Ending.step (h : Ending dbms x p) (s : Database) :
    SameData s (p.step (exec dbms) s).1 ∧ Ending dbms x (p.step (exec dbms) s).2 := by
  cases h with
  | recording tx now d hx haudit hactive hpending =>
    rw [step_recordTail hactive (by
      simp [hpending,Write.applyAll,apply_accepted haudit,Except.isOk,Except.toBool])]
    refine ⟨.refl s,.committing _ _ d hx haudit hactive ?_⟩
    rw [flushed_pending_insertAudit,hpending]
    rfl
  | committing tx row d hx haudit hactive hpending =>
    have hall : Write.applyAll dbms tx.pending s = .ok (s.addAudit row) := by
      simp [hpending,Write.applyAll,apply_accepted haudit]
    rw [step_commitTail hactive hall]
    exact ⟨⟨_,rfl⟩,.closing _ _ hx hactive rfl⟩
  | closing tx r hx hactive hpending =>
    rw [step_pure hactive hpending]
    subst hx
    exact ⟨.refl s,.ended _⟩
  | raising tx e hx =>
    rw [step_throw]
    subst hx
    exact ⟨.refl s,.ended {}⟩
  | ended tx =>
    cases x <;> exact ⟨.refl s,.ended tx⟩

theorem Ending.done (h : Ending dbms x p) (hended : p.script.ended = true) : p.script = .done x := by
  cases h with
  | ended tx => rfl
  | _ => cases hended

theorem inserts_cases (hw : key.inserts w = true) :
    (∃ row, w = .insertUser row) ∨ ∃ row, w = .insertConnection row := by
  cases key <;> cases w <;> first | exact .inl ⟨_,rfl⟩ | exact .inr ⟨_,rfl⟩ | cases hw

theorem emitted_insert (hw : key.inserts w = true) (tx : Transaction) : tx.emitted w = w := by
  obtain ⟨row,rfl⟩ | ⟨row,rfl⟩ := inserts_cases hw <;> rfl

theorem apply_withAudits (hw : key.inserts w = true) (h : w.apply dbms db = .ok db')
    (events : List AuditEventRow) :
    w.apply dbms (db.withAudits events) = .ok (db'.withAudits events) := by
  obtain ⟨row,rfl⟩ | ⟨row,rfl⟩ := inserts_cases hw
  · simp only [Write.apply,Database.withAudits_users] at h ⊢
    split_ifs at h ⊢
    split at h
    · cases h
    · rename_i hkey _ _ _
      cases h
      exact if_neg hkey
  · simp only [Write.apply,Database.withAudits_connections] at h ⊢
    split_ifs at h ⊢
    split at h
    · cases h
    · rename_i hkey _ _ _
      cases h
      exact if_neg hkey

/-- A request inside goes on, or commits its row. -/
theorem Inserting.step (h : Inserting w now d p) (hw : key.inserts w = true)
    (happly : w.apply dbms db = .ok db')
    (haudit : dbms.acceptsAudit (AuditRepository.eventRow now d.event) = true)
    (hs : SameData db s) :
    (SameData db (p.step (exec dbms) s).1 ∧ Inserting w now d (p.step (exec dbms) s).2) ∨
      (SameData db' (p.step (exec dbms) s).1 ∧
        Ending dbms (.ok d.response) (p.step (exec dbms) s).2) := by
  obtain ⟨events,rfl⟩ := hs
  have hinsert := apply_withAudits hw happly events
  have hboth : Write.applyAll dbms [w,.insertAudit (AuditRepository.eventRow now d.event)]
      (db.withAudits events) =
      .ok ((db'.withAudits events).addAudit (AuditRepository.eventRow now d.event)) := by
    simp only [Write.applyAll,hinsert,apply_accepted haudit]
  cases h with
  | inserting tx hactive hpending =>
    have hexec : exec dbms (.write w) (db.withAudits events) tx =
        (.ok (),db.withAudits events,tx.flushed w) := exec_write hactive (by
      simp [hpending,emitted_insert hw,Write.applyAll,hinsert,Except.isOk,Except.toBool])
    have hstep : (⟨getDb (insertTail w now d),tx⟩ : RequestProcess).step (exec dbms)
        (db.withAudits events) = (db.withAudits events,⟨getDb (recordTail now d),tx.flushed w⟩) :=
      step_getDb hexec fun _ => recordTail now d
    rw [hstep]
    refine .inl ⟨⟨events,rfl⟩,.recording _ hactive ?_⟩
    simp [Transaction.flushed,hpending,emitted_insert hw]
  | recording tx hactive hpending =>
    rw [step_recordTail hactive (by rw [hpending]; exact congrArg Except.isOk hboth)]
    refine .inl ⟨⟨events,rfl⟩,.committing _ hactive ?_⟩
    rw [flushed_pending_insertAudit,hpending]
    rfl
  | committing tx hactive hpending =>
    rw [step_commitTail hactive (by rw [hpending]; exact hboth)]
    exact .inr ⟨⟨_,rfl⟩,.closing _ _ rfl hactive rfl⟩

theorem Inserting.claims (h : Inserting w now d p) (hw : key.inserts w = true) :
    claims key p = true := by
  cases h with
  | inserting tx hactive hpending =>
    have hnext : nextStatement ⟨getDb (insertTail w now d),tx⟩ = some (.write w) := rfl
    simp [WzonePortal.claims,hnext,hw]
  | recording tx hactive hpending => simp [WzonePortal.claims,hpending,hw]
  | committing tx hactive hpending => simp [WzonePortal.claims,hpending,hw]

end

def createAs (env : Env) (ctx : Context) (scope : AccessScope) (payload : ConnectionCreateInput) :
    Service Response := do
  let created ← ConnectionService.create env ctx scope payload
  commit
  pure (.created (ConnectionResponse.fromDomain created 0))

/-- The decision of a creation that its check lets through. -/
def createDecision (env : Env) (ctx : Context) (scope : AccessScope)
    (payload : ConnectionCreateInput) : Decision :=
  let row := ConnectionRepository.toRow ctx.now (ConnectionService.toConnection ctx payload)
    (env.encrypt payload.password)
  ⟨[.insertConnection row],
    ConnectionService.connectionEvent env ctx scope .connectionCreate row.connectionId
      (ConnectionService.createDetail payload),
    .created (ConnectionResponse.fromDomain (ConnectionRepository.toDomain row) 0)⟩

/-- The decision of a registration, by whether the name is free. -/
def registerDecision (env : Env) (ctx : Context) (payload : RegisterRequest) (taken : Bool) :
    Decision :=
  let normalized := AuthService.normalize env payload.username
  if taken then
    ⟨[],RegistrationService.registerEvent env ctx .userRegisterDuplicate .failure normalized,
      .accepted Routes.registerAcceptedMessage⟩
  else
    ⟨[.insertUser (UserRepository.newRow ctx normalized (env.hashpw payload.password ctx.salt)
        payload.displayName payload.email .viewer .pending)],
      RegistrationService.registerEvent env ctx .userRegister .success normalized,
      .accepted Routes.registerAcceptedMessage⟩

section
variable {dbms : Dbms} {env : Env} {ctx : Context} {db s : Database} {tx : Transaction}

theorem step_register {payload : RegisterRequest} (h : payload.valid env) (s : Database) :
    ∃ tx' : Transaction, tx'.inactive = false ∧ tx'.pending = [] ∧
      (⟨getDb (Routes.register env ctx payload),{}⟩ : RequestProcess).step (exec dbms) s =
        (s,⟨getDb (match s.users.rows.find? fun r =>
            r.username = AuthService.normalize env payload.username with
          | some _ => recordTail ctx.now (registerDecision env ctx payload true)
          | none => insertTail (.insertUser (UserRepository.newRow ctx
              (AuthService.normalize env payload.username)
              (env.hashpw payload.password ctx.salt) payload.displayName payload.email .viewer
              .pending)) ctx.now (registerDecision env ctx payload false)),tx'⟩) := by
  obtain ⟨hp,hv⟩ := h
  have heval : (Query.userByUsername (AuthService.normalize env payload.username)).eval s =
      .ok (s.users.rows.find? fun r => r.username = AuthService.normalize env payload.username) := by
    simp only [Query.eval,(storable_of_usernamePattern hp).1,if_true]
  have hexec : ∃ tx' : Transaction, tx'.inactive = false ∧ tx'.pending = [] ∧
      exec dbms (.query (.userByUsername (AuthService.normalize env payload.username))) s {} =
        (.ok (s.users.rows.find? fun r => r.username = AuthService.normalize env payload.username),
          s,tx') := by
    rw [exec_query rfl rfl rfl heval]
    cases s.users.rows.find? fun r => r.username = AuthService.normalize env payload.username with
    | none => exact ⟨_,rfl,rfl,rfl⟩
    | some row => exact ⟨{ rows := [row], read := [row] },rfl,rfl,rfl⟩
  obtain ⟨tx',hactive,hpending,hexec⟩ := hexec
  refine ⟨tx',hactive,hpending,?_⟩
  simp only [Routes.register,RegistrationService.register,hp,hv,UserRepository.findRowByUsername,ask,
    Script.require,if_true,liftExcept,Script.ret_bind,bind_assoc]
  rw [step_getDb hexec]
  cases s.users.rows.find? fun r => r.username = AuthService.normalize env payload.username with
  | none =>
    simp only [hashPassword,hv,Script.ret_bind,bind_assoc]
    rfl
  | some row => rfl

theorem nextStatement_authorize {payload : ConnectionCreateInput} {scope : AccessScope}
    (h : Deps.authorized ctx "/api/v1/connections" .connectionManage db = .ok scope) :
    ∃ userId, nextStatement ⟨getDb (Routes.createConnection env ctx payload),tx⟩ =
      some (.query (.userById userId)) := by
  obtain ⟨current,hcurrent,_⟩ := bind_eq_ok.mp h
  obtain ⟨claims,row,hcookie,_⟩ := Deps.currentUser_eq_ok.mp hcurrent
  refine ⟨claims.sub,?_⟩
  simp only [Routes.createConnection,Deps.authorize,Deps.getCurrentUser,hcookie,bind_assoc]
  rfl

/-- An authorized caller is an administrator, so one query identifies him. -/
theorem step_authorize {payload : ConnectionCreateInput} {scope : AccessScope}
    (h : Deps.authorized ctx "/api/v1/connections" .connectionManage db = .ok scope)
    (hs : s.users = db.users) : ∃ tx' : Transaction, tx'.inactive = false ∧ tx'.pending = [] ∧
      (⟨getDb (Routes.createConnection env ctx payload),{}⟩ : RequestProcess).step (exec dbms) s =
        (s,⟨getDb (createAs env ctx scope payload),tx'⟩) := by
  obtain ⟨current,hcurrent,hrest⟩ := bind_eq_ok.mp h
  obtain ⟨user,hactive,hrest'⟩ := bind_eq_ok.mp hrest
  obtain ⟨_,hrequire,hpure⟩ := bind_eq_ok.mp hrest'
  obtain ⟨claims,row,hcookie,hrow,hstatus,rfl⟩ := Deps.currentUser_eq_ok.mp hcurrent
  have hexec : exec dbms (.query (.userById claims.sub)) s {} =
      (.ok (some row),s,{ rows := [row], read := [row] }) := by
    have heval : (Query.userById claims.sub).eval s = .ok (some row) := by
      rw [← hrow,← hs]
      rfl
    rw [exec_query rfl rfl rfl heval]
    rfl
  refine ⟨{ rows := [row], read := [row] },rfl,rfl,?_⟩
  have hsign : (UserRepository.toAuthenticated row).canSignIn = true := by
    simp [AuthenticatedUser.canSignIn,UserRepository.toAuthenticated,loginAllowed,hstatus]
  have hadmin : user.role = .admin := by
    unfold Deps.require at hrequire
    split at hrequire
    · rename_i hp
      have hmem : Permission.connectionManage ∈ rolePermissions user.role := of_decide_eq_true hp
      cases hrole : user.role with
      | admin => rfl
      | viewer => rw [hrole] at hmem; exact absurd hmem (by decide)
      | operator => rw [hrole] at hmem; exact absurd hmem (by decide)
    · cases hrequire
  have hscope : buildScope user [] = scope := by
    rw [← Except.ok.inj hpure,Deps.accessScope,if_pos hadmin]
  simp only [Routes.createConnection,Deps.authorize,Deps.getCurrentUser,hcookie,UserRepository.get,
    UserRepository.getRow,ask,bind_assoc]
  rw [step_getDb hexec]
  simp only [pure_bind,Option.map_some,hsign,Script.require,if_true,Script.ret_bind,hactive,hrequire,
    liftExcept,Deps.getAccessScope,hadmin,hscope]
  rfl

theorem nextStatement_register {payload : RegisterRequest} (h : payload.valid env) :
    nextStatement ⟨getDb (Routes.register env ctx payload),tx⟩ =
      some (.query (.userByUsername (AuthService.normalize env payload.username))) := by
  simp only [Routes.register,RegistrationService.register,h.1,h.2,Script.require,if_true,liftExcept,
    Script.ret_bind,bind_assoc]
  rfl

theorem nextStatement_create {payload : ConnectionCreateInput} {scope : AccessScope}
    (hscope : scope.require .connectionManage = .ok ()) :
    nextStatement ⟨getDb (createAs env ctx scope payload),tx⟩ =
      some (.query (.connectionByTarget payload.address payload.username)) := by
  simp only [createAs,ConnectionService.create,hscope,liftExcept,Script.ret_bind,bind_assoc]
  rfl

theorem step_create {payload : ConnectionCreateInput} {scope : AccessScope}
    (hscope : scope.require .connectionManage = .ok ())
    (hvalid : (ConnectionService.toConnection ctx payload).validate = .ok ())
    (hkey : (storable payload.address && storable payload.username) = true)
    (hactive : tx.inactive = false) (hpending : tx.pending = []) (s : Database) :
    (⟨getDb (createAs env ctx scope payload),tx⟩ : RequestProcess).step (exec dbms) s =
      (s,⟨getDb (match s.connections.rows.find? fun r =>
          r.address = payload.address && r.username = payload.username with
        | some existing => throw (ConnectionService.duplicateError existing)
        | none => insertTail (.insertConnection (ConnectionRepository.toRow ctx.now
            (ConnectionService.toConnection ctx payload) (env.encrypt payload.password)))
            ctx.now (createDecision env ctx scope payload)),tx⟩) := by
  have heval : (Query.connectionByTarget payload.address payload.username).eval s =
      .ok (s.connections.rows.find? fun r =>
        r.address = payload.address && r.username = payload.username) := by
    simp only [Query.eval,hkey,if_true]
  have hexec : exec dbms (.query (.connectionByTarget payload.address payload.username)) s tx =
      (.ok (s.connections.rows.find? fun r =>
        r.address = payload.address && r.username = payload.username),s,tx) :=
    exec_query hactive hpending rfl heval
  simp only [createAs,ConnectionService.create,hscope,liftExcept,Script.ret_bind,
    ConnectionRepository.findByTarget,ask,bind_assoc]
  rw [step_getDb hexec]
  cases s.connections.rows.find? fun r =>
    r.address = payload.address && r.username = payload.username with
  | none =>
    simp only [hvalid,Script.ret_bind,ConnectionRepository.insert,bind_assoc]
    rfl
  | some existing => rfl

end

/-- A request for the key that passes its checks on `db`, with its decision and its insert. -/
inductive Entry (env : Env) (db : Database) : UniqueKey → Call → Decision → Write → Prop
  | create (ctx : Context) (payload : ConnectionCreateInput) (scope : AccessScope)
    (hscope : Deps.authorized ctx "/api/v1/connections" .connectionManage db = .ok scope)
    (hrequire : scope.require .connectionManage = .ok ())
    (hkey : (storable payload.address && storable payload.username) = true)
    (hvalid : (ConnectionService.toConnection ctx payload).validate = .ok ()) :
    Entry env db (.target payload.address payload.username) ⟨ctx,.createConnection payload⟩
      (createDecision env ctx scope payload)
      (.insertConnection (ConnectionRepository.toRow ctx.now
        (ConnectionService.toConnection ctx payload) (env.encrypt payload.password)))
  | register (ctx : Context) (payload : RegisterRequest) (hvalid : payload.valid env) :
    Entry env db (.username (AuthService.normalize env payload.username)) ⟨ctx,.register payload⟩
      (registerDecision env ctx payload false)
      (.insertUser (UserRepository.newRow ctx (AuthService.normalize env payload.username)
        (env.hashpw payload.password ctx.salt) payload.displayName payload.email .viewer .pending))

/-- A request that has not looked for the key yet. -/
inductive Waiting (env : Env) (db : Database) (call : Call) : RequestProcess → Prop
  | arrived : Waiting env db call ⟨getDb (call.request.handler env call.ctx),{}⟩
  | authorized (payload : ConnectionCreateInput) (scope : AccessScope) (tx : Transaction)
    (hrequest : call.request = .createConnection payload)
    (hscope : Deps.authorized call.ctx "/api/v1/connections" .connectionManage db = .ok scope)
    (hactive : tx.inactive = false) (hpending : tx.pending = []) :
    Waiting env db call ⟨getDb (createAs env call.ctx scope payload),tx⟩

section
variable {dbms : Dbms} {env : Env} {key : UniqueKey} {call : Call} {db db' s : Database}
  {d : Decision} {w : Write} {p : RequestProcess}

theorem Entry.inserts (h : Entry env db key call d w) : key.inserts w = true := by
  cases h with
  | create => simp [UniqueKey.inserts,ConnectionRepository.toRow,ConnectionService.toConnection]
  | register => simp [UniqueKey.inserts,UserRepository.newRow]

theorem find?_of_rows_eq_zero {α : Type} {l : List α} {f : α → Bool}
    (h : (l.filter f).length = 0) : l.find? f = none := by
  rw [List.length_eq_zero_iff,List.filter_eq_nil_iff] at h
  exact List.find?_eq_none.mpr h

/-- A request that succeeds alone enters the race, and alone it does what its decision says. -/
theorem entry_of_succeeded (hcompetes : key.Competes env call.request) (hfree : key.rows db = 0)
    (halone : call.succeeded dbms env db = true) :
    ∃ d w after, Entry env db key call d w ∧ w.apply dbms db = .ok after ∧
      dbms.acceptsAudit (AuditRepository.eventRow call.ctx.now d.event) = true ∧
      call.serve dbms env db = (.ok d.response,
        after.addAudit (AuditRepository.eventRow call.ctx.now d.event)) := by
  obtain ⟨r,hserve⟩ := serve_of_succeeded halone
  obtain ⟨d,after,hd,hwrites,haudit,rfl,hdb⟩ := serve_ok hserve
  rw [hdb] at hserve
  obtain ⟨ctx,request⟩ := call
  have hentry : ∃ w, d.writes = [w] ∧ Entry env db key ⟨ctx,request⟩ d w := by
    cases key with
    | target address user =>
      cases request <;> try exact hcompetes.elim
      rename_i payload
      obtain ⟨rfl,rfl⟩ := hcompetes
      obtain ⟨scope,hscope,h₁⟩ := bind_eq_ok.mp hd
      obtain ⟨_,hrequire,h₂⟩ := bind_eq_ok.mp h₁
      obtain ⟨existing,hexisting,h₃⟩ := bind_eq_ok.mp h₂
      have hnone := find?_of_rows_eq_zero hfree
      simp only [Query.eval] at hexisting
      split at hexisting
      · rename_i hkey
        rw [hnone] at hexisting
        cases hexisting
        obtain ⟨_,hvalid,h₄⟩ := bind_eq_ok.mp h₃
        cases h₄
        exact ⟨_,rfl,.create ctx payload scope hscope hrequire hkey hvalid⟩
      · cases hexisting
    | username name =>
      cases request <;> try exact hcompetes.elim
      rename_i payload
      cases hcompetes
      by_cases hvalid : payload.valid env
      · have hnone : ∀ r ∈ db.users.rows, r.username ≠ AuthService.normalize env payload.username := by
          simpa using find?_of_rows_eq_zero hfree
        have hdecide := hd.symm.trans (decideRegister_free hvalid hnone)
        cases hdecide
        exact ⟨_,rfl,.register ctx payload hvalid⟩
      · obtain ⟨e,he⟩ := decideRegister_invalid ctx hvalid
        cases hd.symm.trans (he db)
  obtain ⟨w,hw,hentry⟩ := hentry
  rw [hw] at hwrites
  obtain ⟨mid,hmid,hrest⟩ := Write.applyAll_cons hwrites
  cases hrest
  exact ⟨d,w,_,hentry,hmid,haudit,hserve⟩

/-- A waiting request reads on; its check lets it in. -/
theorem Waiting.step_free (hentry : Entry env db key call d w) (hfree : key.rows db = 0)
    (hs : SameData db s) (h : Waiting env db call p) :
    (p.step (exec dbms) s).1 = s ∧ (Waiting env db call (p.step (exec dbms) s).2 ∨
      (nextStatement p = some (.query key.check) ∧
        Inserting w call.ctx.now d (p.step (exec dbms) s).2)) := by
  obtain ⟨events,rfl⟩ := hs
  cases hentry with
  | create ctx payload scope hscope hrequire hkey hvalid =>
    cases h with
    | arrived =>
      obtain ⟨tx,hactive,hpending,hstep⟩ := @step_authorize dbms env ctx db (db.withAudits events)
        payload scope hscope rfl
      have hstep' : (⟨getDb (Request.handler env ctx (.createConnection payload)),{}⟩ :
          RequestProcess).step (exec dbms) (db.withAudits events) = _ := hstep
      rw [hstep']
      exact ⟨rfl,.inl (.authorized payload scope tx rfl hscope hactive hpending)⟩
    | authorized payload' scope' tx hrequest hscope' hactive hpending =>
      cases hrequest
      cases Except.ok.inj (hscope.symm.trans hscope')
      have hstep := @step_create dbms env ctx tx payload scope hrequire hvalid hkey hactive hpending
        (db.withAudits events)
      rw [Database.withAudits_connections,find?_of_rows_eq_zero hfree] at hstep
      rw [hstep]
      exact ⟨rfl,.inr ⟨nextStatement_create hrequire,.inserting tx hactive hpending⟩⟩
  | register ctx payload hvalid =>
    cases h with
    | arrived =>
      obtain ⟨tx,hactive,hpending,hstep⟩ := @step_register dbms env ctx payload hvalid
        (db.withAudits events)
      rw [Database.withAudits_users,find?_of_rows_eq_zero hfree] at hstep
      have hstep' : (⟨getDb (Request.handler env ctx (.register payload)),{}⟩ :
          RequestProcess).step (exec dbms) (db.withAudits events) = _ := hstep
      rw [hstep']
      exact ⟨rfl,.inr ⟨nextStatement_register hvalid,.inserting tx hactive hpending⟩⟩
    | authorized payload' scope' tx hrequest hscope' hactive hpending => cases hrequest

/-- The insert of a key leaves one row of it, and callers are identified as before. -/
structure Taken (key : UniqueKey) (db db' : Database) : Prop where
  one : key.rows db' = 1
  callers : ∀ address user, key = .target address user →
    db'.users = db.users ∧ db'.userConnectionScopes = db.userConnectionScopes

theorem filter_insert {κ ρ : Type} [DecidableEq κ] {key : ρ → κ} {t u : Table key} {r : ρ}
    {f : ρ → Bool} (h : t.insert r = some u) (hr : f r = true)
    (hfree : (t.rows.filter f).length = 0) : (u.rows.filter f).length = 1 := by
  rw [(Table.insert_eq_some.mp h).2,List.filter_append,List.length_append,hfree,
    List.filter_singleton,hr]
  rfl

theorem taken_insert (hw : key.inserts w = true) (hfree : key.rows db = 0)
    (happly : w.apply dbms db = .ok db') : Taken key db db' := by
  cases key with
  | target address user =>
    cases w <;> try cases hw
    obtain ⟨connections,hinsert,rfl⟩ := Write.apply_insertConnection happly
    exact ⟨filter_insert hinsert hw hfree,fun _ _ _ => ⟨rfl,rfl⟩⟩
  | username name =>
    cases w <;> try cases hw
    obtain ⟨_,users,hinsert,rfl⟩ := Write.apply_insertUser happly
    exact ⟨filter_insert hinsert hw hfree,fun _ _ he => by cases he⟩

theorem find?_of_rows_eq_one {α : Type} {l : List α} {f : α → Bool}
    (h : (l.filter f).length = 1) : ∃ r, l.find? f = some r := by
  by_contra hnone
  have hno : l.find? f = none := by
    cases hfind : l.find? f with
    | none => rfl
    | some r => exact absurd ⟨r,hfind⟩ hnone
  rw [List.filter_eq_nil_iff.mpr (by simpa using hno)] at h
  cases h

theorem authorized_congr {ctx : Context} {path : String} {p : Permission}
    (husers : db'.users = db.users) (hscopes : db'.userConnectionScopes = db.userConnectionScopes) :
    Deps.authorized ctx path p db' = Deps.authorized ctx path p db := by
  simp only [Deps.authorized,Deps.currentUser,Deps.accessScope,Database.scopesOf,husers,hscopes]

theorem serve_register_taken {ctx : Context} {payload : RegisterRequest} {row : UserRow}
    (hcontent : dbms.AuditByContent) (hvalid : payload.valid env)
    (haudit : dbms.acceptsAudit (payload.auditRow env ctx) = true)
    (hrow : (db.users.rows.find? fun r =>
      r.username = AuthService.normalize env payload.username) = some row) :
    dbms.acceptsAudit (AuditRepository.eventRow ctx.now
        (registerDecision env ctx payload true).event) = true ∧
      ((⟨ctx,.register payload⟩ : Call).serve dbms env db).1 =
        .ok (registerDecision env ctx payload true).response := by
  have hdup : dbms.acceptsAudit (AuditRepository.eventRow ctx.now
      (registerDecision env ctx payload true).event) = true :=
    (hcontent (AuditRepository.eventRow ctx.now (registerDecision env ctx payload true).event)
      (payload.auditRow env ctx) rfl rfl rfl).trans haudit
  refine ⟨hdup,?_⟩
  have h := @serve_handler dbms env ctx db (.register payload)
  rw [Request.decide,decideRegister_taken hvalid hrow] at h
  change (serve dbms (Request.handler env ctx (.register payload)) db).1 = _
  rw [h]
  simp only [settle,Write.applyAll]
  exact congrArg Prod.fst (if_pos hdup)

theorem serve_create_taken {ctx : Context} {payload : ConnectionCreateInput} {scope : AccessScope}
    {row : ConnectionRow}
    (hscope : Deps.authorized ctx "/api/v1/connections" .connectionManage db = .ok scope)
    (hrequire : scope.require .connectionManage = .ok ())
    (hkey : (storable payload.address && storable payload.username) = true)
    (hrow : (db.connections.rows.find? fun r =>
      r.address = payload.address && r.username = payload.username) = some row) :
    ((⟨ctx,.createConnection payload⟩ : Call).serve dbms env db).1 =
      .error (ConnectionService.duplicateError row) := by
  have h := @serve_handler dbms env ctx db (.createConnection payload)
  have hdecide : decideCreateConnection env ctx db payload =
      .error (ConnectionService.duplicateError row) := by
    simp only [decideCreateConnection,hscope,Query.eval,hkey,if_true,hrow]
    change (scope.require .connectionManage >>= fun _ =>
      (Except.error (ConnectionService.duplicateError row) : Except Exc Decision)) = _
    rw [hrequire]
    rfl
  rw [Request.decide,hdecide] at h
  change (serve dbms (Request.handler env ctx (.createConnection payload)) db).1 = _
  rw [h]
  rfl

/-- A waiting request reads on; its check finds the row of the winner. -/
theorem Waiting.step_taken (hcontent : dbms.AuditByContent) (hentry : Entry env db key call d w)
    (haudit : dbms.acceptsAudit (AuditRepository.eventRow call.ctx.now d.event) = true)
    (htaken : Taken key db db') (hs : SameData db' s) (served : List AuditEventRow)
    (h : Waiting env db call p) :
    (p.step (exec dbms) s).1 = s ∧ (Waiting env db call (p.step (exec dbms) s).2 ∨
      Ending dbms (call.serve dbms env (db'.withAudits served)).1 (p.step (exec dbms) s).2) := by
  obtain ⟨events,rfl⟩ := hs
  cases hentry with
  | create ctx payload scope hscope hrequire hkey hvalid =>
    obtain ⟨husers,hscopes⟩ := htaken.callers _ _ rfl
    cases h with
    | arrived =>
      obtain ⟨tx,hactive,hpending,hstep⟩ := @step_authorize dbms env ctx db (db'.withAudits events)
        payload scope hscope husers
      have hstep' : (⟨getDb (Request.handler env ctx (.createConnection payload)),{}⟩ :
          RequestProcess).step (exec dbms) (db'.withAudits events) = _ := hstep
      rw [hstep']
      exact ⟨rfl,.inl (.authorized payload scope tx rfl hscope hactive hpending)⟩
    | authorized payload' scope' tx hrequest hscope' hactive hpending =>
      cases hrequest
      cases Except.ok.inj (hscope.symm.trans hscope')
      obtain ⟨row,hrow⟩ := find?_of_rows_eq_one htaken.one
      have hstep := @step_create dbms env ctx tx payload scope hrequire hvalid hkey hactive hpending
        (db'.withAudits events)
      rw [Database.withAudits_connections,hrow] at hstep
      have hserved := @serve_create_taken dbms env (db'.withAudits served) ctx payload scope row
        ((authorized_congr husers hscopes).trans hscope) hrequire hkey hrow
      rw [hstep]
      exact ⟨rfl,.inr (.raising tx _ hserved)⟩
  | register ctx payload hvalid =>
    cases h with
    | arrived =>
      obtain ⟨row,hrow⟩ := find?_of_rows_eq_one htaken.one
      obtain ⟨tx,hactive,hpending,hstep⟩ := @step_register dbms env ctx payload hvalid
        (db'.withAudits events)
      rw [Database.withAudits_users,hrow] at hstep
      have hstep' : (⟨getDb (Request.handler env ctx (.register payload)),{}⟩ :
          RequestProcess).step (exec dbms) (db'.withAudits events) = _ := hstep
      obtain ⟨hdup,hserved⟩ := @serve_register_taken dbms env (db'.withAudits served) ctx payload row
        hcontent hvalid haudit hrow
      rw [hstep']
      exact ⟨rfl,.inr (.recording tx ctx.now _ hserved hdup hactive hpending)⟩
    | authorized payload' scope' tx hrequest hscope' hactive hpending => cases hrequest

theorem answersDuplicate (hcontent : dbms.AuditByContent) (hentry : Entry env db key call d w)
    (haudit : dbms.acceptsAudit (AuditRepository.eventRow call.ctx.now d.event) = true)
    (htaken : Taken key db db') (served : List AuditEventRow) :
    key.AnswersDuplicate (call.serve dbms env (db'.withAudits served)).1 := by
  cases hentry with
  | create ctx payload scope hscope hrequire hkey hvalid =>
    obtain ⟨husers,hscopes⟩ := htaken.callers _ _ rfl
    obtain ⟨row,hrow⟩ := find?_of_rows_eq_one htaken.one
    have hserved := @serve_create_taken dbms env (db'.withAudits served) ctx payload scope row
      ((authorized_congr husers hscopes).trans hscope) hrequire hkey hrow
    rw [hserved]
    exact ⟨⟨row,rfl⟩,rfl⟩
  | register ctx payload hvalid =>
    obtain ⟨row,hrow⟩ := find?_of_rows_eq_one htaken.one
    have hserved := (@serve_register_taken dbms env (db'.withAudits served) ctx payload row hcontent
      hvalid haudit hrow).2
    rw [hserved]
    rfl

theorem not_ended_of_nextStatement {o : Stmt} (h : nextStatement p = some o) :
    p.script.ended = false := by
  unfold nextStatement at h
  split at h
  · rename_i hscript
    rw [hscript]
    rfl
  · cases h

theorem Waiting.not_ended (hentry : Entry env db key call d w) (h : Waiting env db call p) :
    p.script.ended = false := by
  cases hentry with
  | create ctx payload scope hscope hrequire hkey hvalid =>
    cases h with
    | arrived =>
      obtain ⟨_,hnext⟩ := @nextStatement_authorize env ctx db {} payload scope hscope
      exact not_ended_of_nextStatement hnext
    | authorized payload' scope' tx hrequest hscope' hactive hpending =>
      cases Except.ok.inj (hscope.symm.trans hscope')
      exact not_ended_of_nextStatement (nextStatement_create hrequire)
  | register ctx payload hvalid =>
    cases h with
    | arrived => exact not_ended_of_nextStatement (nextStatement_register hvalid)
    | authorized payload' scope' tx hrequest hscope' hactive hpending => cases hrequest

theorem Inserting.not_ended {now : Timestamp} (h : Inserting w now d p) :
    p.script.ended = false := by
  cases h <;> rfl

end

section
variable {ι : Type} {dbms : Dbms} {env : Env} {key : UniqueKey} {calls : ι → Call} {db : Database}

/-- The race of requests that compete for a key. -/
def keyRace (hcontent : dbms.AuditByContent) (hfree : key.rows db = 0) {decisions : ι → Decision}
    {inserts : ι → Write} {after : ι → Database}
    (hentry : ∀ i, Entry env db key (calls i) (decisions i) (inserts i))
    (happly : ∀ i, (inserts i).apply dbms db = .ok (after i))
    (haudit : ∀ i, dbms.acceptsAudit
      (AuditRepository.eventRow (calls i).ctx.now (decisions i).event) = true)
    (hserve : ∀ i, SameData (after i) ((calls i).serve dbms env db).2) :
    System.Race ι Response (exec dbms) where
  Free := SameData db
  Won w := SameData (after w)
  Waiting i := Waiting env db (calls i)
  Checking p := nextStatement p = some (.query key.check)
  Inside i := Inserting (inserts i) (calls i).ctx.now (decisions i)
  Winner w := Ending dbms (.ok (decisions w).response)
  Loser w i := Ending dbms ((calls i).serve dbms env ((calls w).serve dbms env db).2).1
  waiting_free i p s hs h := by
    obtain ⟨hsame,hnext⟩ := Waiting.step_free (hentry i) hfree hs h
    rw [hsame]
    exact ⟨hs,hnext⟩
  waiting_won w i p s hs h := by
    obtain ⟨served,hserved⟩ := hserve w
    obtain ⟨hsame,hnext⟩ := Waiting.step_taken hcontent (hentry i) (haudit i)
      (taken_insert (hentry w).inserts hfree (happly w)) hs served h
    rw [hsame,hserved]
    exact ⟨hs,hnext⟩
  inside_free i p s hs h := h.step (hentry i).inserts (happly i) (haudit i) hs
  winner_won w p s hs h := ⟨hs.trans (h.step s).1,(h.step s).2⟩
  loser_won w i p s hs h := ⟨hs.trans (h.step s).1,(h.step s).2⟩

end

/-- Requests that compete for one key, each of which would succeed alone: in every run in which
each check runs while no other request is between its check and its commit, one row of the key
is committed, its request ends as it would alone, and every other request ends as if it had
arrived afterwards. -/
theorem lost_race_is_duplicate {ι : Type} [DecidableEq ι] [Nonempty ι] (env : Env) (dbms : Dbms)
    (hcontent : dbms.AuditByContent) (key : UniqueKey) (calls : ι → Call) (db : Database)
    (hcompetes : ∀ i, key.Competes env (calls i).request) (hfree : key.rows db = 0)
    (halone : ∀ i, (calls i).succeeded dbms env db = true) (schedule : List ι)
    (hchecks : (start env calls db).Along (exec dbms) (ChecksAlone key) schedule)
    (hended : ∀ i, (((start env calls db).run (exec dbms) schedule).processes i).script.ended =
      true) :
    let sys := (start env calls db).run (exec dbms) schedule
    key.rows sys.shared = 1 ∧ ∃ w,
      (sys.processes w).script = .done ((calls w).serve dbms env db).1 ∧
      ∀ i, i ≠ w → ∃ x, (sys.processes i).script = .done x ∧ key.AnswersDuplicate x ∧
        x = ((calls i).serve dbms env ((calls w).serve dbms env db).2).1 := by
  choose decisions inserts after hentry happly haudit hserve using
    fun i => entry_of_succeeded (hcompetes i) hfree (halone i)
  have hafter : ∀ i, SameData (after i) ((calls i).serve dbms env db).2 := fun i => by
    rw [hserve i]
    exact ⟨_,rfl⟩
  let race := keyRace hcontent hfree hentry happly haudit hafter
  have hstart : race.Reached (start env calls db) :=
    .free (.refl db) none fun i => .inr ⟨by simp,.arrived⟩
  have hreached := System.Race.Reached.run (r:=race) (fun i sys halone hchecking j hj hinside => by
    have hclaims := hinside.claims (hentry j).inserts
    rw [halone hchecking j hj] at hclaims
    cases hclaims) hstart hchecks
  intro sys
  obtain ⟨i⟩ := ‹Nonempty ι›
  obtain ⟨w,hwon,winner,others⟩ := hreached.won_of_ended
    (fun i _ h => Waiting.not_ended (hentry i) h) (fun _ _ h => Inserting.not_ended h) (hended i)
  have htaken := taken_insert (hentry w).inserts hfree (happly w)
  refine ⟨?_,w,?_,fun i hi => ?_⟩
  · obtain ⟨events,hevents⟩ := hwon
    have hrows : key.rows (after w |>.withAudits events) = key.rows (after w) := by
      cases key <;> rfl
    change key.rows ((start env calls db).run (exec dbms) schedule).shared = 1
    rw [hevents,hrows]
    exact htaken.one
  · rw [hserve w]
    exact winner.done (hended w)
  · have hloser := others i hi (hended i)
    refine ⟨_,hloser.done (hended i),?_,rfl⟩
    rw [hserve w]
    exact answersDuplicate hcontent (hentry i) (haudit i) htaken _

/-- Two administrators' requests for the same vCenter, and two registrations of `alice`. -/
def vcenterInput : ConnectionCreateInput where
  displayName := "vc"
  address := "vc.local"
  port := 443
  username := "reader"
  password := "secret"
  verifyTls := true

def twoCreations (i : Bool) : Call := ⟨contextOf 1 (if i then 5 else 6) 10,.createConnection vcenterInput⟩

def twoRegistrations (i : Bool) : Call :=
  ⟨contextOf 0 (if i then 5 else 6) 10,.register (aliceRequest none)⟩

theorem lost_race_is_duplicate_creations :
    let sys := (start plainEnv twoCreations rootDatabase).run (exec .lenient)
      (List.replicate 6 false ++ List.replicate 3 true)
    (UniqueKey.target "vc.local" "reader").rows sys.shared = 1 ∧ ∃ w,
      (sys.processes w).script = .done ((twoCreations w).serve .lenient plainEnv rootDatabase).1 ∧
      ∀ i, i ≠ w → ∃ x, (sys.processes i).script = .done x ∧
        (UniqueKey.target "vc.local" "reader").AnswersDuplicate x ∧
        x = ((twoCreations i).serve .lenient plainEnv
          ((twoCreations w).serve .lenient plainEnv rootDatabase).2).1 :=
  lost_race_is_duplicate plainEnv .lenient (fun _ _ _ _ _ => rfl) (.target "vc.local" "reader")
    twoCreations rootDatabase (fun _ => ⟨rfl,rfl⟩) rfl (by decide)
    (List.replicate 6 false ++ List.replicate 3 true) (by decide) (by decide)

/-- Both requests check before either inserts. The second insert waits for the first commit and
is refused then: a 500 where a later request gets a 409 or the usual 202. -/
theorem lost_race_internal_error :
    (let sys := start plainEnv twoCreations rootDatabase
      let schedule := [false,false,true,true,false,false,false,false,true,true]
      sys.Along (exec .lenient) (fun i sys => ¬ Blocked (.target "vc.local" "reader") i sys)
        schedule ∧
      (((sys.run (exec .lenient) schedule).processes true).script =
        .done (.error .integrityError)) ∧
      (httpAnswer ((twoCreations true).serve .lenient plainEnv
        ((twoCreations false).serve .lenient plainEnv rootDatabase).2).1).statusCode = 409) ∧
    (let sys := start plainEnv twoRegistrations rootDatabase
      let schedule := [false,true,false,false,false,false,true,true]
      sys.Along (exec .lenient) (fun i sys => ¬ Blocked (.username "alice") i sys) schedule ∧
      (((sys.run (exec .lenient) schedule).processes true).script =
        .done (.error .integrityError)) ∧
      httpAnswer ((twoRegistrations true).serve .lenient plainEnv
        ((twoRegistrations false).serve .lenient plainEnv rootDatabase).2).1 = acceptedAnswer) ∧
    (httpAnswer (.error .integrityError)).statusCode = 500 := by
  refine ⟨⟨by decide,rfl,by decide⟩,⟨by decide,rfl,by decide⟩,rfl⟩

end WzonePortal
