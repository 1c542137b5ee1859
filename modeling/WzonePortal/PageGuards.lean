import Mathlib.Data.String.Basic
import WzonePortal.Paging
import WzonePortal.TemporaryPassword

/-! The documents of the portal and the guard in front of them. A document asks for the session
before it draws anything, and either draws or sends the browser elsewhere. -/
namespace WzonePortal

/-- The names of all connections, or of those in a list, in the order of the database. -/
def ConnectionRepository.listNames (order : TotalPreorder String)
    (connectionIds : Option (List UUID)) (db : Database) : List (UUID × String) :=
  let rows := db.connections.rows.filter fun r => connectionIds.all (·.contains r.connectionId)
  (rows.map fun r => (r.connectionId,r.displayName)).insertionSort
    fun a b => order.le a.2 b.2 = true

structure ConnectionRefResponse where
  connectionId : UUID
  displayName : String
  deriving DecidableEq, Repr

structure MeResponse where
  user : UserResponse
  permissions : List Permission
  accessibleConnections : List ConnectionRefResponse
  deriving DecidableEq, Repr

/-- `GET /auth/me`. -/
def Routes.me (dbms : Dbms) (order : TotalPreorder String) (cookie : Cookie) (db : Database) :
    Except Exc MeResponse := do
  let user ← (serve dbms (Deps.getCurrentUser cookie) db).1
  let scopeIds := if user.role = .admin then none else some (db.scopesOf user.userId)
  let names := ConnectionRepository.listNames order scopeIds db
  pure {
    user := toUserResponse user (db.users.find? user.userId) scopeIds
    permissions := (rolePermissions user.role).insertionSort fun p q => p.value ≤ q.value
    accessibleConnections := names.map fun n => ⟨n.1,n.2⟩ }

namespace Shell

/-- The documents under `static/`; `login.html` is also reached with `?change=1`. -/
inductive Document
  | register
  | login (change : Bool)
  | index
  | connections
  | users
  deriving DecidableEq, Repr

def can (session : MeResponse) (permission : Permission) : Bool :=
  permission ∈ session.permissions

/-- The session, or the document that replaces this one. -/
def requireSession (answer : Except Exc MeResponse) (page : String)
    (requiredPermission : Option Permission) : Except Document MeResponse :=
  match answer with
  | .error _ => .error (.login false)
  | .ok session =>
    if session.user.mustChangePassword && page ≠ "password" then .error (.login true)
    else if requiredPermission.any fun p => !can session p then .error .index
    else .ok session

/-- What the visitor is left with. -/
inductive Landing
  | registerForm
  | loginForm
  | changeForm
  | page (document : Document) (session : MeResponse)
  deriving DecidableEq, Repr

def Landing.document : Landing → Option Document
  | .page document _ => some document
  | _ => none

/-- The start of each document's script, given the answer of `GET /auth/me`. -/
def Document.visit (answer : Except Exc MeResponse) : Document → Except Document Landing
  | .register => .ok .registerForm
  | .login _ => match answer with
    | .error _ => .ok .loginForm
    | .ok me => if me.user.mustChangePassword then .ok .changeForm else .error .index
  | .index => (requireSession answer "inventory" none).map (.page .index)
  | .connections =>
    (requireSession answer "connections" (some .connectionManage)).map (.page .connections)
  | .users => (requireSession answer "users" (some .userManage)).map (.page .users)

def Document.lands (answer : Except Exc MeResponse) : ℕ → Document → Option Landing
  | 0, document => (document.visit answer).toOption
  | redirects+1, document => match document.visit answer with
    | .ok landing => some landing
    | .error next => lands answer redirects next

/-- The menu that `renderShell` draws. -/
def navItems (session : MeResponse) : List Document :=
  .index::((if can session .connectionManage then [.connections] else []) ++
    (if can session .userManage then [.users] else []))

def Document.route : Document → Option ProtectedRoute
  | .index => some .listVirtualMachines
  | .connections => some .listConnections
  | .users => some .listUsers
  | .register | .login _ => none

/-- The server lets the caller through to the document's data. -/
def Document.Served (cookie : Cookie) (db : Database) (document : Document) : Prop :=
  ∃ route, document.route = some route ∧ ∃ scope, route.admission cookie db = .ok scope

/-- The place a visitor lands on is the one that the server's own checks call for. -/
def Landing.Fits (cookie : Cookie) (db : Database) (asked : Document) : Landing → Prop
  | .registerForm => asked = .register
  | .loginForm => asked ≠ .register ∧
      ∀ route : ProtectedRoute, ∃ text, route.admission cookie db = .error (.http 401 text)
  | .changeForm => asked ≠ .register ∧
      (∃ scope, ProtectedRoute.changePassword.admission cookie db = .ok scope) ∧
      ∀ route : ProtectedRoute, route ≠ .changePassword →
        route.admission cookie db = .error mustChangeError
  | .page document session => document.Served cookie db ∧
      (∀ item, item ∈ navItems session ↔ item.Served cookie db) ∧
      (document = asked ∨ document = .index ∧ ¬ asked.Served cookie db)

section
variable {dbms : Dbms} {order : TotalPreorder String} {cookie : Cookie} {db : Database}
  {user : AuthenticatedUser} {me : MeResponse} {r : ProtectedRoute}

theorem currentUser_error {e : Exc} (h : Deps.currentUser cookie db = .error e) :
    ∃ text, e = .http 401 text := by
  unfold Deps.currentUser at h
  split at h
  · exact ⟨_,(Except.error.inj h).symm⟩
  · exact ⟨_,(Except.error.inj h).symm⟩
  · split at h
    · exact ⟨_,(Except.error.inj h).symm⟩
    · split at h
      · cases h
      · exact ⟨_,(Except.error.inj h).symm⟩

theorem serve_getCurrentUser (dbms : Dbms) (cookie : Cookie) (db : Database) :
    (serve dbms (Deps.getCurrentUser cookie) db).1 = Deps.currentUser cookie db := by
  rw [serve_of_reads (Deps.reads_getCurrentUser cookie)]

theorem me_error {e : Exc} (h : Deps.currentUser cookie db = .error e) :
    Routes.me dbms order cookie db = .error e := by
  unfold Routes.me
  rw [serve_getCurrentUser,h]
  rfl

theorem me_ok (h : Deps.currentUser cookie db = .ok user) :
    ∃ me, Routes.me dbms order cookie db = .ok me ∧ me.user.userId = user.userId ∧
      me.user.mustChangePassword = user.mustChangePassword ∧
      ∀ p, can me p = true ↔ p ∈ rolePermissions user.role := by
  unfold Routes.me
  rw [serve_getCurrentUser,h]
  exact ⟨_,rfl,rfl,rfl,fun p => by simp [can]⟩

theorem admission_error {e : Exc} (h : Deps.currentUser cookie db = .error e)
    (r : ProtectedRoute) : r.admission cookie db = .error e := by
  unfold ProtectedRoute.admission
  rw [h]
  rfl

theorem admission_temporary (h : Deps.currentUser cookie db = .ok user)
    (hflag : user.mustChangePassword = true) (hr : r ≠ .changePassword) :
    r.admission cookie db = .error mustChangeError := by
  have hactive : Deps.getActiveUser r.path user = .error mustChangeError :=
    if_pos ⟨hflag,ProtectedRoute.path_not_exempt r hr⟩
  unfold ProtectedRoute.admission
  rw [h,ok_bind,hactive]
  rfl

theorem admission_changePassword (h : Deps.currentUser cookie db = .ok user) :
    ProtectedRoute.changePassword.admission cookie db = .ok none := by
  have hactive : Deps.getActiveUser ProtectedRoute.changePassword.path user = .ok user :=
    if_neg fun hc => hc.2 (by decide)
  unfold ProtectedRoute.admission
  rw [h,ok_bind,hactive]
  rfl

theorem admission_iff (h : Deps.currentUser cookie db = .ok user)
    (hflag : user.mustChangePassword = false) :
    (∃ scope, r.admission cookie db = .ok scope) ↔
      ∀ p, r.permission = some p → p ∈ rolePermissions user.role := by
  have hactive : Deps.getActiveUser r.path user = .ok user :=
    if_neg fun hc => by
      have hmust := hc.1
      rw [hflag] at hmust
      cases hmust
  unfold ProtectedRoute.admission
  rw [h,ok_bind,hactive,ok_bind]
  cases hp : r.permission with
  | none => exact ⟨fun _ p hp => (by cases hp),fun _ => ⟨_,rfl⟩⟩
  | some p =>
    simp only [Option.some.injEq,forall_eq']
    unfold Deps.require AuthenticatedUser.has
    by_cases hmem : p ∈ rolePermissions user.role
    · simp only [hmem,decide_true,if_true,iff_true]
      exact ⟨_,rfl⟩
    · simp only [hmem,decide_false,Bool.false_eq_true,if_false,iff_false]
      rintro ⟨scope,hscope⟩
      cases hscope

theorem mem_navItems (me : MeResponse) (document : Document) : document ∈ navItems me ↔
    document = .index ∨ (document = .connections ∧ can me .connectionManage = true) ∨
      (document = .users ∧ can me .userManage = true) := by
  unfold navItems
  cases can me .connectionManage <;> cases can me .userManage <;> simp

/-- The menu lists the documents whose data the server gives out. -/
theorem served_iff (h : Deps.currentUser cookie db = .ok user)
    (hflag : user.mustChangePassword = false)
    (hcan : ∀ p, can me p = true ↔ p ∈ rolePermissions user.role) (document : Document) :
    document.Served cookie db ↔ document ∈ navItems me := by
  rw [mem_navItems,hcan,hcan]
  have hadmitted : ∀ r : ProtectedRoute, document.route = some r →
      (document.Served cookie db ↔ ∀ p, r.permission = some p → p ∈ rolePermissions user.role) := by
    intro r hr
    rw [← admission_iff h hflag]
    exact ⟨fun ⟨r',hr',hok⟩ => by rw [hr] at hr'; cases hr'; exact hok,fun hok => ⟨r,hr,hok⟩⟩
  cases document with
  | register | login change =>
    simp only [reduceCtorEq,false_and,or_self,iff_false]
    rintro ⟨r,hr,-⟩
    cases hr
  | index => simp [hadmitted .listVirtualMachines rfl,ProtectedRoute.permission]
  | connections => simp [hadmitted .listConnections rfl,ProtectedRoute.permission]
  | users => simp [hadmitted .listUsers rfl,ProtectedRoute.permission]

theorem lands_signedOut (e : Exc) {document : Document} (h : document ≠ .register) :
    document.lands (.error e) 2 = some .loginForm := by
  cases document with
  | register => exact absurd rfl h
  | _ => rfl

theorem lands_temporary (hflag : me.user.mustChangePassword = true) {document : Document}
    (h : document ≠ .register) : document.lands (.ok me) 2 = some .changeForm := by
  cases document with
  | register => exact absurd rfl h
  | _ => simp [Document.lands,Document.visit,requireSession,hflag,Except.map]

theorem lands_page (hflag : me.user.mustChangePassword = false) {document : Document}
    (h : document ≠ .register) : document.lands (.ok me) 2 =
      some (.page (if document ∈ navItems me then document else .index) me) := by
  have hnav := mem_navItems me document
  cases document with
  | register => exact absurd rfl h
  | login change =>
    simp [hnav,Document.lands,Document.visit,requireSession,hflag,Except.map]
  | index => simp [hnav,Document.lands,Document.visit,requireSession,hflag,Except.map]
  | connections =>
    cases hcan : can me .connectionManage <;>
      simp [hnav,hcan,Document.lands,Document.visit,requireSession,hflag,Except.map]
  | users =>
    cases hcan : can me .userManage <;>
      simp [hnav,hcan,Document.lands,Document.visit,requireSession,hflag,Except.map]

end

/-- From any document a visitor lands after at most two redirects, where the server's own checks
for the same cookie call for: on the form that its refusal is about, or on a document whose data
it gives out, which is the one asked for whenever it gives that out, under a menu of exactly the
documents whose data it gives out. -/
theorem visits_settle (dbms : Dbms) (order : TotalPreorder String) (cookie : Cookie)
    (db : Database) (asked : Document) :
    ∃ landing, asked.lands (Routes.me dbms order cookie db) 2 = some landing ∧
      landing.Fits cookie db asked ∧
      (asked.Served cookie db ↔ ∃ session, landing = .page asked session) := by
  by_cases hregister : asked = .register
  · subst hregister
    refine ⟨.registerForm,rfl,rfl,?_⟩
    simp [Document.Served,Document.route]
  cases huser : Deps.currentUser cookie db with
  | error e =>
    obtain ⟨text,rfl⟩ := currentUser_error huser
    have hrefused := admission_error huser
    refine ⟨.loginForm,?_,⟨hregister,fun r => ⟨text,hrefused r⟩⟩,?_⟩
    · rw [me_error huser]
      exact lands_signedOut _ hregister
    · simp [Document.Served,hrefused]
  | ok user =>
    obtain ⟨me,hme,-,hflagged,hcan⟩ := @me_ok dbms order cookie db user huser
    rw [hme]
    cases hflag : user.mustChangePassword with
    | true =>
      rw [hflag] at hflagged
      have hrefused := fun r => @admission_temporary cookie db user r huser hflag
      refine ⟨.changeForm,lands_temporary hflagged hregister,
        ⟨hregister,⟨_,admission_changePassword huser⟩,hrefused⟩,?_⟩
      simp only [reduceCtorEq,exists_false,iff_false]
      rintro ⟨r,hr,scope,hscope⟩
      rw [hrefused r (by rintro rfl; cases asked <;> cases hr)] at hscope
      cases hscope
    | false =>
      rw [hflag] at hflagged
      have hserved := served_iff huser hflag hcan
      refine ⟨_,lands_page hflagged hregister,?_,?_⟩
      · by_cases hmem : asked ∈ navItems me
        · rw [if_pos hmem]
          exact ⟨(hserved asked).mpr hmem,fun item => (hserved item).symm,.inl rfl⟩
        · rw [if_neg hmem]
          refine ⟨(hserved _).mpr ((mem_navItems _ _).mpr (.inl rfl)),
            fun item => (hserved item).symm,.inr ⟨rfl,fun h => hmem ((hserved asked).mp h)⟩⟩
      · rw [hserved]
        by_cases hmem : asked ∈ navItems me
        · simp [hmem]
        · simp only [hmem,if_false,false_iff,Landing.page.injEq]
          rintro ⟨session,hindex,-⟩
          exact hmem ((mem_navItems _ _).mpr (.inl hindex.symm))

/-- A viewer who asks for the accounts is sent to the machines. -/
example : (Document.users.lands (Routes.me .lenient (.ofLinearOrder String)
    (.valid claimsOfAlice) approvedAliceDatabase) 1).map
      Landing.document = some (some .index) := by
  decide +kernel

end Shell
end WzonePortal
