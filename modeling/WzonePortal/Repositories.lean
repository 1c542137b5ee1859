import WzonePortal.Password

/-! The repositories as scripts of statements. Every method flushes and none commits. -/
namespace WzonePortal

namespace UserRepository

def findRowByUsername (username : String) : Service (Option UserRow) := ask (.userByUsername username)

def getRow (userId : UUID) : Service (Option UserRow) := ask (.userById userId)

def countActiveAdmins (exclude : Option UUID) : Service ℕ := ask (.countActiveAdmins exclude)

def toAuthenticated (row : UserRow) : AuthenticatedUser where
  userId := row.userId
  username := row.username
  displayName := row.displayName
  role := row.role
  status := row.status
  mustChangePassword := row.mustChangePassword

def get (userId : UUID) : Service (Option AuthenticatedUser) := do
  let row ← getRow userId
  pure (row.map toAuthenticated)

/-- Assign attributes of the loaded row, if there is one, and flush. -/
def assign (userId : UUID) (patch : UserRow → UserPatch) : Service Unit := do
  match ← getRow userId with
  | some row => flush (.patchUser userId (patch row))
  | none => pure ()

def newRow (ctx : Context) (username passwordHash : String) (displayName email : Option String)
    (role : Role) (status : UserStatus) : UserRow where
  userId := ctx.uuid4
  username := username
  passwordHash := passwordHash
  displayName := displayName
  email := email
  role := role
  status := status
  createdAt := ctx.now
  updatedAt := ctx.now

def add (ctx : Context) (username passwordHash : String) (displayName email : Option String)
    (role : Role) (status : UserStatus) : Service Unit :=
  flush (.insertUser (newRow ctx username passwordHash displayName email role status))

def hashPatch (now : Timestamp) (passwordHash : String) (mustChange : Bool) : UserPatch where
  passwordHash := some passwordHash
  mustChangePassword := some mustChange
  updatedAt := some now

def updateHash (now : Timestamp) (userId : UUID) (passwordHash : String) (mustChange : Bool) :
    Service Unit :=
  assign userId fun _ => hashPatch now passwordHash mustChange

/-- One more failure; the one that reaches the limit locks the account and restarts the count. -/
def failurePatch (now : Timestamp) (settings : Settings) (row : UserRow) : UserPatch :=
  if settings.maxFailedLoginAttempts ≤ row.failedLoginCount + 1 then
    { failedLoginCount := some 0, lockedUntil := some (some (now + settings.lockout)) }
  else { failedLoginCount := some (row.failedLoginCount + 1) }

def registerFailure (now : Timestamp) (settings : Settings) (userId : UUID) : Service Unit :=
  assign userId (failurePatch now settings)

def resetPatch (now : Timestamp) : UserPatch where
  failedLoginCount := some 0
  lockedUntil := some none
  lastLoginAt := some (some now)

def resetFailures (now : Timestamp) (userId : UUID) : Service Unit :=
  assign userId fun _ => resetPatch now

def statusPatch (now : Timestamp) (status : UserStatus) (approvedBy rejectReason : Option String) :
    UserPatch where
  status := some status
  updatedAt := some now
  approvedBy := if status = .active ∧ approvedBy ≠ none then some approvedBy else none
  approvedAt := if status = .active ∧ approvedBy ≠ none then some (some now) else none
  rejectReason := if status = .rejected then some rejectReason else none

def setStatus (now : Timestamp) (userId : UUID) (status : UserStatus)
    (approvedBy rejectReason : Option String) : Service Unit :=
  assign userId fun _ => statusPatch now status approvedBy rejectReason

def rolePatch (now : Timestamp) (role : Role) : UserPatch where
  role := some role
  updatedAt := some now

def setRole (now : Timestamp) (userId : UUID) (role : Role) : Service Unit :=
  assign userId fun _ => rolePatch now role

end UserRepository

namespace ScopeRepository

def listForUser (userId : UUID) : Service (List UUID) := ask (.scopesOf userId)

def replace (now : Timestamp) (userId : UUID) (connectionIds : List UUID)
    (grantedBy : Option String) : Service Unit :=
  flush (.replaceScopes userId connectionIds grantedBy now)

end ScopeRepository

namespace AuditRepository

def eventRow (now : Timestamp) (event : AuditEvent) : AuditEventRow where
  occurredAt := now
  actor := event.actor
  action := event.action
  targetType := event.targetType
  targetId := event.targetId
  result := event.result
  clientIp := event.actorIp
  detail := if event.detail = [] then none else some event.detail

/-- A failing insert is swallowed; the session keeps the state the failure left. -/
def record (now : Timestamp) (event : AuditEvent) : Service Unit :=
  Script.tryCatch (flush (.insertAudit (eventRow now event))) fun _ => pure ()

end AuditRepository

section
variable {dbms : Dbms} {c w : Database}

@[simp] theorem run_getRow (userId : UUID) :
    (UserRepository.getRow userId).run (Session.exec dbms) ⟨c,w,false⟩ =
      (.ok (w.users.find? userId),⟨c,w,false⟩) := by
  rw [UserRepository.getRow,Session.run_ask]
  rfl

@[simp] theorem run_countActiveAdmins (exclude : Option UUID) :
    (UserRepository.countActiveAdmins exclude).run (Session.exec dbms) ⟨c,w,false⟩ =
      (.ok (w.countActiveAdmins exclude),⟨c,w,false⟩) := by
  rw [UserRepository.countActiveAdmins,Session.run_ask]
  rfl

@[simp] theorem run_listForUser (userId : UUID) :
    (ScopeRepository.listForUser userId).run (Session.exec dbms) ⟨c,w,false⟩ =
      (.ok (w.scopesOf userId),⟨c,w,false⟩) := by
  rw [ScopeRepository.listForUser,Session.run_ask]
  rfl

theorem run_assign {userId : UUID} {row : UserRow} (h : w.users.find? userId = some row)
    (patch : UserRow → UserPatch) :
    (UserRepository.assign userId patch).run (Session.exec dbms) ⟨c,w,false⟩ =
      (flush (.patchUser userId (patch row))).run (Session.exec dbms) ⟨c,w,false⟩ := by
  rw [UserRepository.assign,Script.run_bind_of_ok _ (run_getRow userId),h]

@[simp] theorem run_record (now : Timestamp) (event : AuditEvent) :
    (AuditRepository.record now event).run (Session.exec dbms) ⟨c,w,false⟩ =
      (.ok (),if dbms.acceptsAudit (AuditRepository.eventRow now event) then
        ⟨c,w.addAudit (AuditRepository.eventRow now event),false⟩ else ⟨c,c,true⟩) := by
  rw [AuditRepository.record,Script.run_tryCatch,Session.run_flush]
  by_cases h : dbms.acceptsAudit (AuditRepository.eventRow now event) = true <;>
    simp [Write.apply,h]

end
end WzonePortal
