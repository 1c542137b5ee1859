import WzonePortal.Bootstrap

/-! A refused audit row. The repository swallows the error of its own flush, but the flush
has already rolled the transaction back, and the handler's commit then raises. -/
namespace WzonePortal

def Write.isAudit : Write → Bool
  | .insertAudit _ => true
  | _ => false

theorem apply_plain (dbms dbms' : Dbms) {w : Write} (h : w.isAudit = false) (db : Database) :
    w.apply dbms db = w.apply dbms' db := by
  cases w with
  | insertAudit row => cases h
  | _ => rfl

theorem apply_plain_auditEvents {dbms : Dbms} {w : Write} (h : w.isAudit = false)
    {db db' : Database} (ha : w.apply dbms db = .ok db') : db'.auditEvents = db.auditEvents := by
  cases w with
  | insertAudit row => cases h
  | insertUser row =>
    obtain ⟨_,_,_,rfl⟩ := Write.apply_insertUser ha
    rfl
  | patchUser userId p =>
    obtain ⟨_,rfl⟩ := Write.apply_patchUser ha
    rfl
  | replaceScopes userId ids grantedBy at_ =>
    obtain ⟨_,_,_,rfl⟩ := Write.apply_replaceScopes ha
    rfl
  | insertConnection row =>
    obtain ⟨_,_,rfl⟩ := Write.apply_insertConnection ha
    rfl
  | deleteConnection connectionId =>
    cases Write.apply_deleteConnection ha
    rfl

theorem applyAll_plain (dbms dbms' : Dbms) {ws : List Write}
    (h : ∀ w ∈ ws, w.isAudit = false) (db : Database) :
    Write.applyAll dbms ws db = Write.applyAll dbms' ws db := by
  induction ws generalizing db with
  | nil => rfl
  | cons w ws ih =>
    have hw := apply_plain dbms dbms' (h w (by simp)) db
    simp only [Write.applyAll,hw]
    cases w.apply dbms' db with
    | error e => rfl
    | ok db' => exact ih (fun x hx => h x (by simp [hx])) db'

theorem applyAll_plain_auditEvents {dbms : Dbms} {ws : List Write}
    (h : ∀ w ∈ ws, w.isAudit = false) {db db' : Database}
    (ha : Write.applyAll dbms ws db = .ok db') : db'.auditEvents = db.auditEvents := by
  induction ws generalizing db with
  | nil => cases ha; rfl
  | cons w ws ih =>
    obtain ⟨mid,hw,ha⟩ := Write.applyAll_cons ha
    have htail := ih (fun x hx => h x (by simp [hx])) ha
    exact htail.trans (apply_plain_auditEvents (h w (by simp)) hw)

/-- No decision writes an audit row of its own. -/
theorem decide_plain {env : Env} {ctx : Context} {db : Database} {req : Request} {d : Decision}
    (h : req.decide env ctx db = .ok d) : ∀ w ∈ d.writes, w.isAudit = false := by
  cases req with
  | register payload =>
    rcases register_ok h with ⟨_,_,hw,_⟩ | ⟨_,_,hw,_⟩ <;> simp [hw,Write.isAudit]
  | approve userId role ids =>
    obtain ⟨_,_,_,_,_,hw,_⟩ := approve_ok h
    simp [hw,Write.isAudit]
  | reject userId reason =>
    obtain ⟨_,_,_,hw⟩ := reject_ok h
    simp [hw,Write.isAudit]
  | disable userId =>
    obtain ⟨_,_,_,hw⟩ := disable_ok h
    simp [hw,Write.isAudit]
  | enable userId =>
    obtain ⟨_,_,_,_,_,hw⟩ := enable_ok h
    simp [hw,Write.isAudit]
  | changeRole userId role =>
    obtain ⟨_,_,_,hw⟩ := changeRole_ok h
    by_cases ha : role = .admin <;> simp [hw,ha,Write.isAudit]
  | setScopes userId ids =>
    obtain ⟨_,_,_,_,hw⟩ := setScopes_ok h
    simp [hw,Write.isAudit]
  | resetPassword userId =>
    obtain ⟨_,_,_,hw⟩ := resetPassword_ok h
    simp [hw,Write.isAudit]
  | changePassword current new =>
    obtain ⟨_,_,_,hw⟩ := changePassword_ok h
    simp [hw,Write.isAudit]
  | createConnection payload =>
    obtain ⟨_,_,hw⟩ := createConnection_ok h
    simp [hw,Write.isAudit]
  | deleteConnection connectionId =>
    obtain ⟨_,_,_,hw⟩ := deleteConnection_ok h
    simp [hw,Write.isAudit]

/-- The answer and the rows of users, scopes and connections are those that a server
accepting every audit row would leave. -/
def AuditHarmless (dbms : Dbms) (env : Env) (call : Call) (db : Database) : Prop :=
  (call.serve dbms env db).1 = (call.serve .lenient env db).1 ∧
    (call.serve dbms env db).2.users = (call.serve .lenient env db).2.users ∧
    (call.serve dbms env db).2.userConnectionScopes =
      (call.serve .lenient env db).2.userConnectionScopes ∧
    (call.serve dbms env db).2.connections = (call.serve .lenient env db).2.connections

section
variable {dbms : Dbms} {env : Env} {call : Call} {db db' : Database} {r : Response}
  {row : AuditEventRow}

theorem serve_audited (h : call.serve .lenient env db = (.ok r,db'))
    (hrow : db'.auditEvents = db.auditEvents ++ [row]) :
    call.serve dbms env db =
      if dbms.acceptsAudit row then (.ok r,db') else (.error .pendingRollback,db) := by
  obtain ⟨d,w,hd,hw,_,rfl,rfl⟩ := serve_ok h
  have hplain := decide_plain hd
  have hevents : w.auditEvents = db.auditEvents := applyAll_plain_auditEvents hplain hw
  have hr : AuditRepository.eventRow call.ctx.now d.event = row := by
    simp only [Database.addAudit,hevents,List.append_cancel_left_eq,List.cons.injEq] at hrow
    exact hrow.1
  unfold Call.serve
  rw [serve_handler,hd]
  simp only [settle,applyAll_plain dbms .lenient hplain,hw,hr]

theorem serve_lenient_records (h : call.serve .lenient env db = (.ok r,db')) :
    ∃ row, db'.auditEvents = db.auditEvents ++ [row] := by
  obtain ⟨d,w,hd,hw,_,_,rfl⟩ := serve_ok h
  have hevents : w.auditEvents = db.auditEvents := applyAll_plain_auditEvents (decide_plain hd) hw
  exact ⟨_,by rw [Database.addAudit,hevents]⟩

end

/-- Every successful request records one row; on a server that refuses this row the same
request raises and leaves nothing behind. -/
theorem refused_audit_undoes_request {env : Env} {call : Call} {db db' : Database} {r : Response}
    (h : call.serve .lenient env db = (.ok r,db')) :
    ∃ row, db'.auditEvents = db.auditEvents ++ [row] ∧ ∀ dbms : Dbms,
      (AuditHarmless dbms env call db ↔ dbms.acceptsAudit row = true) ∧
      (dbms.acceptsAudit row = false → call.serve dbms env db = (.error .pendingRollback,db)) := by
  obtain ⟨row,hrow⟩ := serve_lenient_records h
  refine ⟨row,hrow,fun dbms => ?_⟩
  have hserve : call.serve dbms env db = _ := serve_audited h hrow
  by_cases ha : dbms.acceptsAudit row = true
  · rw [if_pos ha] at hserve
    exact ⟨by simp [AuditHarmless,hserve,h,ha],by simp [ha]⟩
  · rw [if_neg ha] at hserve
    exact ⟨by simp [AuditHarmless,hserve,h,ha],fun _ => hserve⟩

theorem refused_audit_undoes_registration :
    ∃ row, (registerAlice.serve .lenient plainEnv rootDatabase).2.auditEvents = [] ++ [row] ∧
      ∀ dbms : Dbms,
      (AuditHarmless dbms plainEnv registerAlice rootDatabase ↔ dbms.acceptsAudit row = true) ∧
      (dbms.acceptsAudit row = false → registerAlice.serve dbms plainEnv rootDatabase =
        (.error .pendingRollback,rootDatabase)) :=
  refused_audit_undoes_request
    (show registerAlice.serve .lenient plainEnv rootDatabase =
      (.ok (.accepted Routes.registerAcceptedMessage),_) from rfl)

/-- A server whose INET column refuses the client address of the request. -/
def strictInet : Dbms := ⟨fun row => row.clientIp ≠ some "unknown"⟩

/-- The registration succeeds when its audit row is accepted and fails when it is not. -/
theorem registration_lost_with_audit :
    let call := { registerAlice with
      ctx := { registerAlice.ctx with clientIp := some "unknown" } }
    (call.serve .lenient plainEnv rootDatabase).1 =
        .ok (.accepted Routes.registerAcceptedMessage) ∧
      ¬ AuditHarmless strictInet plainEnv call rootDatabase := by
  intro call
  have hok : (call.serve .lenient plainEnv rootDatabase).1 =
      .ok (.accepted Routes.registerAcceptedMessage) := by decide
  have hfail : (call.serve strictInet plainEnv rootDatabase).1 = .error .pendingRollback := by
    decide
  refine ⟨hok,fun h => ?_⟩
  have heq := h.1
  rw [hok,hfail] at heq
  cases heq

end WzonePortal
