import WzonePortal.PortalHistory
import WzonePortal.RegistrationDisclosure

/-! Starting the portal. `ensure_bootstrap_admin` creates an administrator while the user
table is empty, and anonymous registration writes to the same table: an application that
comes first takes the place of the administrator for good. -/
namespace WzonePortal

structure BootstrapSettings where
  adminUsername : Option String := none
  adminPassword : Option String := none
  deriving DecidableEq, Repr

namespace BootstrapSettings

/-- Both settings are given and not empty. -/
def present (s : BootstrapSettings) : Bool :=
  s.adminUsername.any (· ≠ "") && s.adminPassword.any (· ≠ "")

/-- When present, the username fits its column and the password meets the policy. -/
def Fits (env : Env) (s : BootstrapSettings) : Prop :=
  s.present = true → (∀ username, s.adminUsername = some username →
    (AuthService.normalize env username).length ≤ 64 ∧
      storable (AuthService.normalize env username) = true) ∧
    ∀ password, s.adminPassword = some password → validatePasswordPolicy password = .ok ()

end BootstrapSettings

/-- The function of the startup after it has counted the users. A UNIQUE violation means
that another worker was faster. -/
def ensureBootstrapAdmin (env : Env) (ctx : Context) (settings : BootstrapSettings)
    (userCount : ℕ) : Service Unit :=
  if userCount > 0 then pure ()
  else match settings.adminUsername, settings.adminPassword with
    | some username, some password =>
      if username = "" ∨ password = "" then pure ()
      else Script.tryCatch (do
          let passwordHash ← liftExcept (hashPassword env ctx password)
          UserRepository.add ctx (AuthService.normalize env username) passwordHash
            (some "Administrator") none .admin .active
          commit)
        (fun e => match e with
          | .integrityError => rollback
          | e => throw e)
    | _, _ => pure ()

/-- One startup in a session of its own, on the committed database. -/
def startup (dbms : Dbms) (env : Env) (ctx : Context) (settings : BootstrapSettings)
    (db : Database) : Database :=
  ((ensureBootstrapAdmin env ctx settings db.users.rows.length).run (Session.exec dbms)
    (Session.fresh db)).2.committed

inductive BootEvent
  | startup (ctx : Context) (settings : BootstrapSettings)
  | register (ctx : Context) (payload : RegisterRequest)

namespace BootEvent

def run (dbms : Dbms) (env : Env) (db : Database) : BootEvent → Database
  | .startup ctx settings => WzonePortal.startup dbms env ctx settings db
  | .register ctx payload => (Call.serve dbms env ⟨ctx,.register payload⟩ db).2

def bootstraps : BootEvent → Bool
  | .startup _ settings => settings.present
  | .register _ _ => false

/-- A registration that passes the checks and whose texts the database takes. -/
def Applies (dbms : Dbms) (env : Env) : BootEvent → Prop
  | .startup _ _ => False
  | .register ctx payload => payload.valid env ∧ payload.textsStorable = true ∧
      dbms.acceptsAudit (payload.auditRow env ctx) = true

def Fits (env : Env) : BootEvent → Prop
  | .startup _ settings => settings.Fits env
  | .register _ _ => True

end BootEvent

def bootAfter (dbms : Dbms) (env : Env) (events : List BootEvent) (db : Database) : Database :=
  events.foldl (BootEvent.run dbms env) db

def HasAdmin (db : Database) : Prop :=
  ∃ row ∈ db.users.rows, row.role = .admin ∧ row.status = .active

/-- Nobody in the table can approve anyone. -/
def AllPending (db : Database) : Prop := ∀ row ∈ db.users.rows, row.status = .pending

section
variable {dbms : Dbms} {env : Env} {ctx : Context} {db db' : Database}
  {settings : BootstrapSettings} {payload : RegisterRequest} {e : BootEvent}
  {events : List BootEvent}

theorem present_cases (h : settings.present = true) : ∃ username password,
    settings.adminUsername = some username ∧ settings.adminPassword = some password ∧
      username ≠ "" ∧ password ≠ "" := by
  unfold BootstrapSettings.present at h
  cases hu : settings.adminUsername with
  | none => simp [hu] at h
  | some username =>
    cases hp : settings.adminPassword with
    | none => simp [hp] at h
    | some password =>
      simp only [hu,hp,Option.any_some,ne_eq,decide_not,Bool.and_eq_true,Bool.not_eq_true',
        decide_eq_false_iff_not] at h
      exact ⟨username,password,rfl,rfl,h.1,h.2⟩

theorem startup_of_users (h : db.users.rows ≠ []) : startup dbms env ctx settings db = db := by
  have hpos : db.users.rows.length > 0 := List.length_pos_iff.mpr h
  rw [startup,ensureBootstrapAdmin,if_pos hpos]
  rfl

theorem startup_of_absent (h : settings.present = false) :
    startup dbms env ctx settings db = db := by
  rw [startup,ensureBootstrapAdmin]
  by_cases hpos : db.users.rows.length > 0
  · rw [if_pos hpos]
    rfl
  · rw [if_neg hpos]
    cases hu : settings.adminUsername with
    | none => rfl
    | some username =>
      cases hp : settings.adminPassword with
      | none => rfl
      | some password =>
        have hempty : username = "" ∨ password = "" := by
          by_contra hne
          rw [not_or] at hne
          rw [BootstrapSettings.present,hu,hp] at h
          simp [hne.1,hne.2] at h
        simp only [if_pos hempty]
        rfl

/-- On an empty table a startup with fitting settings creates the administrator. -/
theorem startup_creates (hhash : ∀ plain salt, storable (env.hashpw plain salt) = true)
    (hempty : db.users.rows = []) (h : settings.present = true) (hfits : settings.Fits env) :
    HasAdmin (startup dbms env ctx settings db) := by
  obtain ⟨username,password,hu,hp,hne,hne'⟩ := present_cases h
  obtain ⟨hlength,hstorable⟩ := (hfits h).1 username hu
  have hpolicy := (hfits h).2 password hp
  have hrow : (bootstrapRow env ctx username (env.hashpw password ctx.salt)).storable = true := by
    simp [UserRow.storable,bootstrapRow,UserRepository.newRow,hlength,hstorable,hhash]
    decide
  obtain ⟨users,hinsert,hrows⟩ := Table.insert_isSome (t := db.users)
    (r := bootstrapRow env ctx username (env.hashpw password ctx.salt)) (by simp [hempty])
  have hwrite : (Write.insertUser (bootstrapRow env ctx username
      (env.hashpw password ctx.salt))).apply dbms db = .ok { db with users := users } := by
    simp only [Write.apply,hrow,hempty,hinsert,Bool.not_true,Bool.false_eq_true,if_false,
      List.any_nil]
  have hflush : (UserRepository.add ctx (AuthService.normalize env username)
      (env.hashpw password ctx.salt) (some "Administrator") none .admin .active).run
      (Session.exec dbms) ⟨db,db,false⟩ = (.ok (),⟨db,{ db with users := users },false⟩) := by
    unfold bootstrapRow at hwrite
    rw [UserRepository.add,Session.run_flush,hwrite]
  have hstarted : startup dbms env ctx settings db = { db with users := users } := by
    rw [startup,ensureBootstrapAdmin,if_neg (by simp [hempty]),hu,hp]
    simp only [hne,hne',or_self,if_false,hashPassword,hpolicy]
    rw [Script.run_tryCatch,Script.run_bind_of_ok _ (Session.run_liftExcept _ _)]
    rw [Session.fresh,Script.run_bind_of_ok _ hflush,Session.run_commit]
  rw [hstarted]
  refine ⟨bootstrapRow env ctx username (env.hashpw password ctx.salt),?_,rfl,rfl⟩
  rw [hrows]
  exact List.mem_append_right _ List.mem_cons_self

theorem register_rows (dbms : Dbms) (env : Env) (db : Database) (ctx : Context)
    (payload : RegisterRequest) :
    ∃ added : List UserRow, (∀ row ∈ added, row.status = .pending) ∧
      ((BootEvent.register ctx payload).run dbms env db).users.rows = db.users.rows ++ added := by
  rw [BootEvent.run]
  refine @Call.serve_cases dbms env ⟨ctx,.register payload⟩ db (fun db' => ∃ added : List UserRow,
    (∀ row ∈ added, row.status = .pending) ∧ db'.users.rows = db.users.rows ++ added)
    ⟨[],by simp,by simp⟩ fun d w hd hw row _ => ?_
  rcases register_ok hd with ⟨_,_,hwrites,_⟩ | ⟨passwordHash,_,hwrites,_⟩
  · rw [hwrites] at hw
    cases hw
    exact ⟨[],by simp,by simp [Database.addAudit]⟩
  · rw [hwrites] at hw
    obtain ⟨mid,hone,hrest⟩ := Write.applyAll_cons hw
    cases hrest
    obtain ⟨_,users,hinsert,rfl⟩ := Write.apply_insertUser hone
    refine ⟨[_],?_,(Table.insert_eq_some.mp hinsert).2⟩
    intro row hrow
    rw [List.mem_singleton.mp hrow]
    rfl

theorem register_stored (hhash : ∀ plain salt, storable (env.hashpw plain salt) = true)
    (hempty : db.users.rows = []) (h : (BootEvent.register ctx payload).Applies dbms env) :
    ((BootEvent.register ctx payload).run dbms env db).users.rows ≠ [] := by
  obtain ⟨hvalid,htexts,haudit⟩ := h
  have hfree : ∀ r ∈ db.users.rows, r.username ≠ AuthService.normalize env payload.username := by
    simp [hempty]
  have hrow := @newRow_storable env ctx payload hvalid (hhash payload.password ctx.salt)
  rw [htexts] at hrow
  obtain ⟨users,hinsert,hrows⟩ := Table.insert_isSome (t := db.users)
    (r := UserRepository.newRow ctx (AuthService.normalize env payload.username)
      (env.hashpw payload.password ctx.salt) payload.displayName payload.email .viewer .pending)
    (by simp [hempty])
  have hwrites : Write.applyAll dbms [.insertUser (UserRepository.newRow ctx
      (AuthService.normalize env payload.username) (env.hashpw payload.password ctx.salt)
      payload.displayName payload.email .viewer .pending)] db =
        .ok { db with users := users } := by
    simp only [Write.applyAll,Write.apply,hrow,hempty,hinsert,Bool.not_true,Bool.false_eq_true,
      if_false,List.any_nil]
  have hdecide : Request.decide env ctx db (.register payload) = _ := decideRegister_free hvalid hfree
  have hafter : ((BootEvent.register ctx payload).run dbms env db).users = users := by
    unfold BootEvent.run Call.serve
    simp only [serve_handler,hdecide,settle,hwrites]
    unfold RegisterRequest.auditRow at haudit
    rw [if_pos haudit]
    rfl
  rw [hafter,hrows]
  simp

theorem register_refused (hempty : db.users.rows = [])
    (h : ¬ (BootEvent.register ctx payload).Applies dbms env) :
    ((BootEvent.register ctx payload).run dbms env db).users.rows = [] := by
  rcases hs : Call.serve dbms env ⟨ctx,.register payload⟩ db with ⟨x,after⟩
  have hrun : (BootEvent.register ctx payload).run dbms env db = after := by
    simp only [BootEvent.run,hs]
  rw [hrun]
  cases x with
  | error e =>
    rw [serve_failed hs]
    exact hempty
  | ok response =>
    exfalso
    apply h
    obtain ⟨d,w,hd,hw,haudit,_,rfl⟩ := serve_ok hs
    have hd : decideRegister env ctx db payload = .ok d := hd
    have hvalid : payload.valid env := by
      by_contra hinvalid
      obtain ⟨e,he⟩ := decideRegister_invalid ctx hinvalid
      rw [he db] at hd
      cases hd
    have hfree : ∀ r ∈ db.users.rows,
        r.username ≠ AuthService.normalize env payload.username := by simp [hempty]
    rw [decideRegister_free hvalid hfree] at hd
    cases hd
    obtain ⟨mid,hone,_⟩ := Write.applyAll_cons hw
    obtain ⟨hrow,_⟩ := Write.apply_insertUser hone
    refine ⟨hvalid,?_,haudit⟩
    simp only [UserRow.storable,UserRepository.newRow,Bool.and_eq_true] at hrow
    simp only [RegisterRequest.textsStorable,Bool.and_eq_true]
    exact ⟨hrow.1.1.1.2,hrow.1.1.2⟩

theorem AllPending.no_admin (h : AllPending db) : ¬ HasAdmin db := by
  rintro ⟨row,hrow,_,hactive⟩
  rw [h row hrow] at hactive
  cases hactive

theorem HasAdmin.run (h : HasAdmin db) (e : BootEvent) : HasAdmin (e.run dbms env db) := by
  obtain ⟨row,hrow,hadmin⟩ := h
  cases e with
  | startup ctx settings =>
    have hne : db.users.rows ≠ [] := List.ne_nil_of_mem hrow
    simp only [BootEvent.run,startup_of_users hne]
    exact ⟨row,hrow,hadmin⟩
  | register ctx payload =>
    obtain ⟨added,_,hrows⟩ := register_rows dbms env db ctx payload
    exact ⟨row,by rw [hrows]; exact List.mem_append_left _ hrow,hadmin⟩

theorem HasAdmin.after (h : HasAdmin db) (events : List BootEvent) :
    HasAdmin (bootAfter dbms env events db) := by
  induction events generalizing db with
  | nil => exact h
  | cons e events ih => exact ih (h.run e)

/-- Before the first startup with the settings: nobody is approved, and the table is empty
exactly while no registration has applied. -/
theorem before_bootstrap (dbms : Dbms) (hhash : ∀ plain salt, storable (env.hashpw plain salt) = true)
    (h : ∀ e ∈ events, e.bootstraps = false) (hpending : AllPending db) :
    AllPending (bootAfter dbms env events db) ∧
      ((bootAfter dbms env events db).users.rows = [] ↔
        db.users.rows = [] ∧ ∀ e ∈ events, ¬ e.Applies dbms env) := by
  induction events generalizing db with
  | nil => exact ⟨hpending,by simp [bootAfter]⟩
  | cons e events ih =>
    have hrest := fun x hx => h x (List.mem_cons_of_mem e hx)
    cases e with
    | startup ctx settings =>
      have habsent : settings.present = false := h _ List.mem_cons_self
      have hrun : (BootEvent.startup ctx settings).run dbms env db = db :=
        startup_of_absent habsent
      have hall := ih hrest hpending
      rw [bootAfter,List.foldl_cons,hrun]
      refine ⟨hall.1,hall.2.trans ?_⟩
      simp [BootEvent.Applies]
    | register ctx payload =>
      obtain ⟨added,hadded,hrows⟩ := register_rows dbms env db ctx payload
      have hmid : AllPending ((BootEvent.register ctx payload).run dbms env db) := by
        intro row hrow
        rw [hrows,List.mem_append] at hrow
        exact hrow.elim (hpending row) (hadded row)
      have hall := ih hrest hmid
      rw [bootAfter,List.foldl_cons]
      refine ⟨hall.1,hall.2.trans ?_⟩
      rw [List.forall_mem_cons,← and_assoc]
      refine and_congr_left fun _ => ⟨fun hempty => ?_,fun hempty => ?_⟩
      · have hdb : db.users.rows = [] := by
          rw [hrows,List.append_eq_nil_iff] at hempty
          exact hempty.1
        exact ⟨hdb,fun happlies => register_stored hhash hdb happlies hempty⟩
      · exact register_refused hempty.1 hempty.2

end

/-- Whenever a startup has the settings, the portal has an active administrator after it. -/
def Bootstrappable (dbms : Dbms) (env : Env) (events : List BootEvent) (db : Database) : Prop :=
  ∀ before ctx settings later, events = before ++ BootEvent.startup ctx settings::later →
    settings.present = true →
    HasAdmin (bootAfter dbms env (before ++ [.startup ctx settings]) db)

/-- No registration applies before the first startup that has the settings. -/
def NoEarlyRegistration (dbms : Dbms) (env : Env) (events : List BootEvent) : Prop :=
  ∀ before ctx settings later, events = before ++ BootEvent.startup ctx settings::later →
    settings.present = true → (∀ e ∈ before, e.bootstraps = false) →
    ∀ e ∈ before, ¬ e.Applies dbms env

/-- From an empty user table, a history keeps the portal bootstrappable exactly when nobody
registers before the first startup with the settings. -/
theorem bootstrappable_iff_no_early_registration (dbms : Dbms) (env : Env)
    (hhash : ∀ plain salt, storable (env.hashpw plain salt) = true) (db : Database)
    (hempty : db.users.rows = []) (events : List BootEvent)
    (hfits : ∀ e ∈ events, e.Fits env) :
    Bootstrappable dbms env events db ↔ NoEarlyRegistration dbms env events := by
  have hpending : AllPending db := by simp [AllPending,hempty]
  constructor
  · intro h before ctx settings later hsplit hpresent hfirst
    obtain ⟨hwait,hiff⟩ := before_bootstrap dbms hhash hfirst hpending
    by_contra hearly
    have hne : (bootAfter dbms env before db).users.rows ≠ [] :=
      fun he => hearly (hiff.mp he).2
    have hadmin := h before ctx settings later hsplit hpresent
    rw [bootAfter,List.foldl_append] at hadmin
    have hsame : startup dbms env ctx settings (bootAfter dbms env before db) =
        bootAfter dbms env before db := startup_of_users hne
    apply hwait.no_admin
    rw [← hsame]
    exact hadmin
  · intro h before ctx settings later hsplit hpresent
    cases hfind : (before ++ [BootEvent.startup ctx settings]).find? BootEvent.bootstraps with
    | none =>
      have hnone := List.find?_eq_none.mp hfind (.startup ctx settings) (by simp)
      exact absurd hpresent hnone
    | some e =>
      obtain ⟨hboot,first,rest,he,hfirst⟩ := List.find?_eq_some_iff_append.mp hfind
      cases e with
      | register ctx payload => cases hboot
      | startup ctx' settings' =>
        have hall : events = first ++ BootEvent.startup ctx' settings'::(rest ++ later) := by
          have hassoc := congrArg (· ++ later) he
          simp only [List.append_assoc,List.cons_append,List.nil_append] at hassoc
          rw [hsplit,hassoc]
        have hquiet : ∀ e ∈ first, e.bootstraps = false := by
          intro e hm
          simpa using hfirst e hm
        obtain ⟨_,hiff⟩ := before_bootstrap dbms hhash hquiet hpending
        have hrows := hiff.mpr ⟨hempty,h first ctx' settings' _ hall hboot hquiet⟩
        have hfit : settings'.Fits env := hfits (.startup ctx' settings') (by rw [hall]; simp)
        have hcreated : HasAdmin (startup dbms env ctx' settings'
            (bootAfter dbms env first db)) := startup_creates hhash hrows hboot hfit
        rw [he,bootAfter,List.foldl_append,List.foldl_cons]
        exact hcreated.after rest

/-- A database right after its migration. -/
def migratedDatabase : Database where
  connections := .empty
  virtualMachines := .empty
  resourceIdentities := .empty
  users := .empty
  userConnectionScopes := .empty
  auditEvents := []

def rootSettings : BootstrapSettings := ⟨some "root",some "longenough1"⟩

/-- The settings come too late: somebody has registered in between. -/
def lateSettings : List BootEvent :=
  [.startup (contextOf 0 1 0) {},.register (contextOf 0 2 10) ⟨"alice","longenough1",none,none⟩,
    .startup (contextOf 0 3 20) rootSettings]

theorem lateSettings_fit : ∀ e ∈ lateSettings, e.Fits plainEnv := by
  intro e he
  simp only [lateSettings,List.mem_cons,List.not_mem_nil,or_false] at he
  rcases he with rfl | rfl | rfl
  · intro h
    cases h
  · trivial
  · intro _
    constructor <;> intro text h <;> cases h <;> decide

theorem bootstrappable_iff_no_early_registration_late :
    Bootstrappable .lenient plainEnv lateSettings migratedDatabase ↔
      NoEarlyRegistration .lenient plainEnv lateSettings :=
  bootstrappable_iff_no_early_registration .lenient plainEnv plainEnv_hashpw_storable
    migratedDatabase rfl lateSettings lateSettings_fit

/-- One registration before the settings are in place, and no administrator is ever created. -/
theorem late_settings_without_admin :
    ¬ Bootstrappable .lenient plainEnv lateSettings migratedDatabase := by
  intro h
  have hadmin := h (lateSettings.take 2) (contextOf 0 3 20) rootSettings [] rfl (by decide)
  unfold HasAdmin at hadmin
  revert hadmin
  decide

end WzonePortal
