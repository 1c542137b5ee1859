import WzonePortal.RequestCases

/-! The database after the first start, and sequential histories of requests on it. -/
namespace WzonePortal

/-- The account that the first start creates. -/
def bootstrapRow (env : Env) (ctx : Context) (username passwordHash : String) : UserRow :=
  UserRepository.newRow ctx (AuthService.normalize env username) passwordHash
    (some "Administrator") none .admin .active

/-- The only user is an active administrator and nobody has a scope; connections,
machines and audit rows are arbitrary. -/
structure Bootstrapped (db : Database) (admin : UUID) : Prop where
  users : ∃ row, db.users.rows = [row] ∧ row.userId = admin ∧ row.role = .admin ∧
    row.status = .active ∧ storable row.username = true
  scopes : db.userConnectionScopes.rows = []

/-- One request together with what it brings from outside. -/
structure Call where
  ctx : Context
  request : Request

def Call.serve (dbms : Dbms) (env : Env) (call : Call) (db : Database) :
    Except Exc Response × Database :=
  WzonePortal.serve dbms (call.request.handler env call.ctx) db

def replay (dbms : Dbms) (env : Env) (db : Database) : List Call → Database
  | [] => db
  | call::earlier => (call.serve dbms env (replay dbms env db earlier)).2

def Call.succeeded (dbms : Dbms) (env : Env) (call : Call) (db : Database) : Bool :=
  match (call.serve dbms env db).1 with
  | .ok _ => true
  | .error _ => false

/-- The server that accepts every audit row. -/
def Dbms.lenient : Dbms := ⟨fun _ => true⟩

/-- A property that every single request preserves holds after every history. -/
theorem replay_invariant (dbms : Dbms) (env : Env) (db : Database) (P : Database → Prop)
    (h0 : P db) (hstep : ∀ (call : Call) db', P db' → P (call.serve dbms env db').2) (calls : List Call) :
    P (replay dbms env db calls) := by
  induction calls with
  | nil => exact h0
  | cons call earlier ih => exact hstep call _ ih

section
variable {dbms : Dbms} {env : Env} {call : Call} {db : Database}

theorem serve_of_succeeded (h : call.succeeded dbms env db = true) :
    ∃ r, call.serve dbms env db = (.ok r,(call.serve dbms env db).2) := by
  unfold Call.succeeded at h
  rcases hs : call.serve dbms env db with ⟨x,db'⟩
  rw [hs] at h
  cases x with
  | ok r => exact ⟨r,rfl⟩
  | error e => cases h

theorem serve_of_not_succeeded (h : call.succeeded dbms env db = false) :
    (call.serve dbms env db).2 = db := by
  unfold Call.succeeded at h
  rcases hs : call.serve dbms env db with ⟨x,db'⟩
  rw [hs] at h
  cases x with
  | ok r => cases h
  | error e => exact serve_failed hs

end

/-- An environment whose hash and cipher keep the text. -/
def plainEnv : Env where
  settings := {}
  strip := id
  lower := id
  checkpw := fun plain hashed => some (plain = hashed)
  hashpw := fun plain _ => String.ofList (plain.toList.filter (· ≠ '\x00'))
  createAccessToken := fun user _ _ => user.username
  encrypt := id
  maskText := id

theorem plainEnv_hashpw_storable (plain salt : String) :
    storable (plainEnv.hashpw plain salt) = true := by
  simp [storable,plainEnv]

/-- A request of the user with identifier `sub`, at time `now`. -/
def contextOf (sub uuid4 : UUID) (now : Timestamp) : Context where
  now := now
  clientIp := some "10.0.0.1"
  cookie := .valid ⟨sub,"",.viewer,0,0,""⟩
  uuid4 := uuid4
  salt := ""
  choices := fun _ => 0

/-- The administrator of the concrete runs. -/
def root : UserRow := bootstrapRow plainEnv (contextOf 0 1 0) "root" "secret-root"

def rootDatabase : Database where
  connections := .empty
  virtualMachines := .empty
  resourceIdentities := .empty
  users := ⟨[root],by simp⟩
  userConnectionScopes := .empty
  auditEvents := []

theorem rootDatabase_bootstrapped : Bootstrapped rootDatabase 1 :=
  ⟨⟨root,rfl,rfl,rfl,rfl,by decide⟩,rfl⟩

/-- A registration of `alice`, who gets the identifier 2. -/
def registerAlice : Call := ⟨contextOf 0 2 10,.register ⟨"alice","longenough1",none,none⟩⟩

def byRoot (now : Timestamp) (request : Request) : Call := ⟨contextOf 1 0 now,request⟩

end WzonePortal
