import WzonePortal.ErrorResponses
import WzonePortal.AuditFailure

/-! What the answer to a registration tells about an account of the name. A taken name is
audited and nothing else; a free name is inserted first, and an insert that the database
refuses is answered differently. -/
namespace WzonePortal

open RegistrationService

/-- The same database without and with an account of the name. -/
structure DiffersInAccount (username : String) (db db' : Database) : Prop where
  free : ∀ r ∈ db.users.rows, r.username ≠ username
  taken : ∃ row users, row.username = username ∧ db.users.insert row = some users ∧
    db' = { db with users := users }

/-- The audit table refuses a row only for the texts in it: the actor, the client address
and the detail. -/
def Dbms.AuditByContent (dbms : Dbms) : Prop :=
  ∀ r q : AuditEventRow, r.actor = q.actor → r.clientIp = q.clientIp → r.detail = q.detail →
    dbms.acceptsAudit r = dbms.acceptsAudit q

namespace RegisterRequest

def valid (env : Env) (payload : RegisterRequest) : Prop :=
  usernamePattern (AuthService.normalize env payload.username) = true ∧
    validatePasswordPolicy payload.password = .ok ()

def textsStorable (payload : RegisterRequest) : Bool :=
  payload.displayName.all storable && payload.email.all storable

def auditRow (env : Env) (ctx : Context) (payload : RegisterRequest) : AuditEventRow :=
  AuditRepository.eventRow ctx.now (registerEvent env ctx .userRegister .success
    (AuthService.normalize env payload.username))

/-- The answer to `POST /auth/register`. -/
def answer (dbms : Dbms) (env : Env) (ctx : Context) (payload : RegisterRequest)
    (db : Database) : HttpResponse :=
  httpAnswer (serve dbms (Routes.register env ctx payload) db).1

end RegisterRequest

def acceptedAnswer : HttpResponse := ⟨202,.message Routes.registerAcceptedMessage⟩

theorem storable_of_usernamePattern {s : String} (h : usernamePattern s = true) :
    storable s = true ∧ s.length ≤ 64 := by
  simp only [usernamePattern,Bool.and_eq_true,decide_eq_true_eq,List.all_eq_true] at h
  refine ⟨?_,h.1.2⟩
  simp only [storable,decide_not,Bool.not_eq_true',decide_eq_false_iff_not]
  intro hmem
  exact absurd (h.2 _ hmem) (by decide)

section
variable {dbms : Dbms} {env : Env} {ctx : Context} {payload : RegisterRequest}
  {db db' : Database}

theorem answer_eq_settle : payload.answer dbms env ctx db =
    httpAnswer (settle dbms ctx.now db db (decideRegister env ctx db payload)).1 := by
  have h := @serve_handler dbms env ctx db (.register payload)
  exact congrArg (fun r : Except Exc Response × Database => httpAnswer r.1) h

theorem decideRegister_invalid (ctx : Context) (h : ¬ payload.valid env) :
    ∃ e, ∀ db, decideRegister env ctx db payload = .error e := by
  unfold RegisterRequest.valid at h
  cases hp : usernamePattern (AuthService.normalize env payload.username) with
  | false =>
    refine ⟨?e,fun db => ?h⟩
    case h =>
      simp only [decideRegister,check,hp]
      rfl
  | true =>
    cases hv : validatePasswordPolicy payload.password with
    | error e =>
      refine ⟨e,fun db => ?_⟩
      simp only [decideRegister,check,hp,hv]
      rfl
    | ok u => exact absurd ⟨hp,hv⟩ h

theorem answer_invalid (h : ¬ payload.valid env) :
    payload.answer dbms env ctx db = payload.answer dbms env ctx db' := by
  obtain ⟨e,he⟩ := decideRegister_invalid ctx h
  rw [answer_eq_settle,answer_eq_settle,he,he]
  rfl

theorem decideRegister_taken (h : payload.valid env) {row : UserRow}
    (hrow : (db.users.rows.find? fun r =>
      r.username = AuthService.normalize env payload.username) = some row) :
    decideRegister env ctx db payload =
      .ok ⟨[],registerEvent env ctx .userRegisterDuplicate .failure
        (AuthService.normalize env payload.username),.accepted Routes.registerAcceptedMessage⟩ := by
  obtain ⟨hp,hv⟩ := h
  have hq : (Query.userByUsername (AuthService.normalize env payload.username)).eval db =
      .ok (some row) := by
    simp only [Query.eval,(storable_of_usernamePattern hp).1,if_true]
    exact congrArg Except.ok hrow
  simp only [decideRegister,check,hp,hv,if_true,hq]
  rfl

theorem decideRegister_free (h : payload.valid env)
    (hfree : ∀ r ∈ db.users.rows, r.username ≠ AuthService.normalize env payload.username) :
    decideRegister env ctx db payload =
      .ok ⟨[.insertUser (UserRepository.newRow ctx (AuthService.normalize env payload.username)
          (env.hashpw payload.password ctx.salt) payload.displayName payload.email .viewer .pending)],
        registerEvent env ctx .userRegister .success (AuthService.normalize env payload.username),
        .accepted Routes.registerAcceptedMessage⟩ := by
  obtain ⟨hp,hv⟩ := h
  have hq : (Query.userByUsername (AuthService.normalize env payload.username)).eval db =
      .ok none := by
    simp only [Query.eval,(storable_of_usernamePattern hp).1,if_true]
    exact congrArg Except.ok (by simpa using hfree)
  simp only [decideRegister,check,hp,hv,if_true,hq,hashPassword]
  rfl

/-- A decision is accepted when its writes and its audit row are, and a 500 otherwise. -/
theorem httpAnswer_settle {d : Decision}
    (hresponse : d.response = .accepted Routes.registerAcceptedMessage)
    (hunhandled : ∀ e, Write.applyAll dbms d.writes db = .error e → e.unhandled = true) :
    httpAnswer (settle dbms ctx.now db db (.ok d)).1 =
      if (Write.applyAll dbms d.writes db).isOk &&
        dbms.acceptsAudit (AuditRepository.eventRow ctx.now d.event) then acceptedAnswer
      else .internalError := by
  cases hw : Write.applyAll dbms d.writes db with
  | error e =>
    simp only [settle,hw]
    exact Exc.httpResponse_unhandled (hunhandled e hw)
  | ok w =>
    simp only [settle,hw,hresponse]
    cases dbms.acceptsAudit (AuditRepository.eventRow ctx.now d.event) with
    | true => rfl
    | false => rfl

theorem applyAll_insertUser_unhandled (row : UserRow) (e : Exc)
    (h : Write.applyAll dbms [.insertUser row] db = .error e) : e.unhandled = true := by
  simp only [Write.applyAll,Write.apply] at h
  split at h
  · rename_i x hx
    cases h
    split_ifs at hx
    · cases hx
      rfl
    · cases hx
      rfl
    · split at hx <;> cases hx
      rfl
  · cases h

theorem applyAll_insertUser_isOk {row : UserRow}
    (hfree : ∀ r ∈ db.users.rows, r.username ≠ row.username) :
    (Write.applyAll dbms [.insertUser row] db).isOk =
      (row.storable && decide (row.userId ∉ db.users.rows.map UserRow.userId)) := by
  have hnone : (db.users.rows.any fun r => r.username = row.username) = false := by
    simpa using hfree
  simp only [Write.applyAll,Write.apply,hnone]
  cases row.storable with
  | false => rfl
  | true =>
    by_cases hid : row.userId ∈ db.users.rows.map UserRow.userId
    · simp [Table.insert,hid,Except.isOk,Except.toBool]
    · simp [Table.insert,hid,Except.isOk,Except.toBool]

theorem newRow_storable (h : payload.valid env)
    (hhash : storable (env.hashpw payload.password ctx.salt) = true) :
    (UserRepository.newRow ctx (AuthService.normalize env payload.username)
      (env.hashpw payload.password ctx.salt) payload.displayName payload.email .viewer
      .pending).storable = payload.textsStorable := by
  obtain ⟨hs,hlength⟩ := storable_of_usernamePattern h.1
  simp [UserRow.storable,UserRepository.newRow,hs,hlength,hhash,RegisterRequest.textsStorable]

theorem answer_taken (h : payload.valid env) {row : UserRow}
    (hrow : (db.users.rows.find? fun r =>
      r.username = AuthService.normalize env payload.username) = some row)
    (haudit : dbms.AuditByContent) :
    payload.answer dbms env ctx db =
      if dbms.acceptsAudit (payload.auditRow env ctx) then acceptedAnswer else .internalError := by
  have hsame : dbms.acceptsAudit (AuditRepository.eventRow ctx.now
      (registerEvent env ctx .userRegisterDuplicate .failure
        (AuthService.normalize env payload.username))) =
      dbms.acceptsAudit (payload.auditRow env ctx) := haudit _ _ rfl rfl rfl
  rw [answer_eq_settle,decideRegister_taken h hrow,httpAnswer_settle rfl (fun e he => by cases he)]
  simp only [Write.applyAll,Except.isOk,Except.toBool,Bool.true_and,hsame]

theorem answer_free (h : payload.valid env)
    (hhash : storable (env.hashpw payload.password ctx.salt) = true)
    (hfree : ∀ r ∈ db.users.rows, r.username ≠ AuthService.normalize env payload.username) :
    payload.answer dbms env ctx db =
      if (payload.textsStorable && decide (ctx.uuid4 ∉ db.users.rows.map UserRow.userId)) &&
        dbms.acceptsAudit (payload.auditRow env ctx) then acceptedAnswer else .internalError := by
  rw [answer_eq_settle,decideRegister_free h hfree,
    httpAnswer_settle rfl (applyAll_insertUser_unhandled _),applyAll_insertUser_isOk hfree,
    newRow_storable h hhash]
  rfl

end

/-- The answers with and without the account agree exactly when the payload fails the checks,
the audit row is refused either way, or the insert of the free name goes through. -/
theorem same_answer_iff (dbms : Dbms) (env : Env) (ctx : Context) (payload : RegisterRequest)
    (db db' : Database) (haudit : dbms.AuditByContent)
    (hhash : ∀ plain salt, storable (env.hashpw plain salt) = true)
    (hdiffer : DiffersInAccount (AuthService.normalize env payload.username) db db') :
    payload.answer dbms env ctx db = payload.answer dbms env ctx db' ↔
      ¬ payload.valid env ∨ dbms.acceptsAudit (payload.auditRow env ctx) = false ∨
        (payload.textsStorable = true ∧ ctx.uuid4 ∉ db.users.rows.map UserRow.userId) := by
  obtain ⟨hfree,row,users,hname,hinsert,rfl⟩ := hdiffer
  by_cases hvalid : payload.valid env
  · have hrow : (users.rows.find? fun r =>
        r.username = AuthService.normalize env payload.username) = some row := by
      rw [(Table.insert_eq_some.mp hinsert).2,List.find?_append]
      have hnone : (db.users.rows.find? fun r =>
          r.username = AuthService.normalize env payload.username) = none := by
        simpa using hfree
      simp [hnone,hname]
    have hdistinct : acceptedAnswer ≠ .internalError := by decide
    have htaken := @answer_taken dbms env ctx payload { db with users := users } hvalid row hrow haudit
    rw [answer_free hvalid (hhash _ _) hfree,htaken]
    cases dbms.acceptsAudit (payload.auditRow env ctx) with
    | false => simp
    | true =>
      cases payload.textsStorable with
      | false => simp [hvalid,hdistinct.symm]
      | true =>
        by_cases hid : ctx.uuid4 ∈ db.users.rows.map UserRow.userId
        · simp [hid,hvalid,hdistinct.symm]
        · simp [hid]
  · simp only [hvalid,not_false_eq_true,true_or,iff_true]
    exact answer_invalid hvalid

/-- The database of the concrete runs with an account `alice` that has the identifier 7. -/
def aliceDatabase : Database :=
  { rootDatabase with users := ⟨[root,bootstrapRow plainEnv (contextOf 0 7 0) "alice" ""],
    by decide⟩ }

theorem aliceDatabase_differs : DiffersInAccount "alice" rootDatabase aliceDatabase :=
  ⟨by decide,bootstrapRow plainEnv (contextOf 0 7 0) "alice" "",_,rfl,rfl,rfl⟩

def aliceRequest (displayName : Option String) : RegisterRequest :=
  ⟨"alice","longenough1",displayName,none⟩

theorem same_answer_iff_alice :
    (aliceRequest none).answer .lenient plainEnv (contextOf 0 2 10) rootDatabase =
        (aliceRequest none).answer .lenient plainEnv (contextOf 0 2 10) aliceDatabase ↔
      ¬ (aliceRequest none).valid plainEnv ∨
        Dbms.lenient.acceptsAudit ((aliceRequest none).auditRow plainEnv (contextOf 0 2 10)) = false ∨
        ((aliceRequest none).textsStorable = true ∧
          (contextOf 0 2 10).uuid4 ∉ rootDatabase.users.rows.map UserRow.userId) :=
  same_answer_iff .lenient plainEnv (contextOf 0 2 10) (aliceRequest none) rootDatabase
    aliceDatabase (fun _ _ _ _ _ => rfl) plainEnv_hashpw_storable aliceDatabase_differs

/-- A display name with U+0000: a 500 if `alice` is free and the usual 202 if she exists. -/
theorem zero_character_reveals_account :
    (aliceRequest (some "a\x00b")).answer .lenient plainEnv (contextOf 0 2 10) rootDatabase =
        .internalError ∧
      (aliceRequest (some "a\x00b")).answer .lenient plainEnv (contextOf 0 2 10) aliceDatabase =
        acceptedAnswer ∧ DiffersInAccount "alice" rootDatabase aliceDatabase := by
  refine ⟨by decide,by decide,aliceDatabase_differs⟩

end WzonePortal
