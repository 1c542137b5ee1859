import WzonePortal.Bootstrap
import WzonePortal.ErrorResponses
import WzonePortal.PageGuards

/-! The page of the account administration and the server behind it, one message at a time. A
request leaves the page when a dialog is confirmed; requests, answers and everybody else's doings
come in any order. What a dialog showed when it was confirmed, which database each request met
and which lists were answered is recorded beside the state. -/
namespace WzonePortal

structure UserListResponse where
  items : List UserResponse
  total : ℕ
  deriving DecidableEq, Repr

def UserRepository.listRows (status : Option UserStatus) (db : Database) : List UserRow :=
  (db.users.rows.filter fun r => status.all (r.status = ·)).insertionSort
    fun a b => a.createdAt ≤ b.createdAt

def ScopeRepository.countsByUser (userIds : List UUID) (db : Database) (userId : UUID) :
    Option (List UUID) :=
  if userId ∈ userIds then some (db.scopesOf userId) else none

/-- `GET /users`. -/
def Routes.listUsers (dbms : Dbms) (cookie : Cookie) (status : Option UserStatus)
    (db : Database) : Except Exc UserListResponse := do
  let _ ← (serve dbms (ProtectedRoute.listUsers.dependencies cookie) db).1
  let rows := UserRepository.listRows status db
  let scopeMap := ScopeRepository.countsByUser (rows.map (·.userId)) db
  let items : List UserResponse := rows.map fun r => {
    userId := r.userId
    username := r.username
    displayName := r.displayName
    email := r.email
    role := r.role
    status := r.status
    mustChangePassword := r.mustChangePassword
    scopes := if r.role = .admin then none else some ((scopeMap r.userId).getD [])
    lastLoginAt := r.lastLoginAt
    createdAt := some r.createdAt }
  pure ⟨items,items.length⟩

namespace Api

def errorMessage : Body → String
  | .error _ message _ | .message message => message
  | .httpDetail detail => detail
  | .temporaryPassword _ | .connection _ | .plain _ | .empty => "요청에 실패했습니다."

/-- An answer as the caller of `request` gets it. -/
def request (r : HttpResponse) : Except String Body :=
  if r.statusCode = 204 then .ok .empty
  else if 200 ≤ r.statusCode ∧ r.statusCode < 300 then .ok r.body
  else .error (errorMessage r.body)

end Api

namespace UsersPage

def roleLabel : Role → String
  | .admin => "관리자"
  | .operator => "운영자"
  | .viewer => "조회자"

/-- `user.display_name || user.username`. -/
def shownName (user : UserResponse) : String :=
  match user.displayName with
  | some name => if name = "" then user.username else name
  | none => user.username

/-- What is asked of the server about an account. -/
inductive Action
  | approveUser (role : Role) (connectionIds : List UUID)
  | rejectUser
  | setUserEnabled (enabled : Bool)
  | changeUserRole (role : Role)
  | setUserScopes (connectionIds : List UUID)
  | resetUserPassword
  deriving DecidableEq, Repr

/-- The check boxes of a scope list and whether they are ticked. -/
abbrev Boxes := List (UUID × Bool)

def selectedScopes (boxes : Boxes) : List UUID := (boxes.filter (·.2)).map (·.1)

/-- What a dialog shows when it is confirmed. -/
inductive Dialog
  | approve (name : String) (role : Role) (boxes : Boxes)
  | scope (name : String) (boxes : Boxes)
  | confirm (title body okLabel : String)
  deriving DecidableEq, Repr

/-- A request with the account its handler works on and the dialog it was confirmed in. -/
structure ApiCall where
  user : UserResponse
  action : Action
  shown : Dialog
  deriving DecidableEq, Repr

def ApiCall.request (call : ApiCall) : Request :=
  match call.action with
  | .approveUser role connectionIds => .approve call.user.userId role connectionIds
  | .rejectUser => .reject call.user.userId none
  | .setUserEnabled true => .enable call.user.userId
  | .setUserEnabled false => .disable call.user.userId
  | .changeUserRole role => .changeRole call.user.userId role
  | .setUserScopes connectionIds => .setScopes call.user.userId connectionIds
  | .resetUserPassword => .resetPassword call.user.userId

inductive Message
  | act (call : ApiCall)
  | listUsers
  deriving DecidableEq, Repr

inductive Answer
  | act (call : ApiCall) (result : Except String Body)
  | listUsers (result : Except String UserListResponse)

structure ApproveModal where
  name : String
  role : Role := .viewer
  boxes : Boxes
  error : String := ""

structure ScopeModal where
  name : String
  boxes : Boxes
  error : String := ""

/-- `onOk` calls the server with the action. -/
structure ConfirmModal where
  title : String
  body : String
  okLabel : String
  danger : Bool := false
  user : UserResponse
  onOk : Action
  error : String := ""

structure SecretModal where
  name : String
  value : String

/-- The variables of the script and its dialogs; a hidden dialog is `none`. -/
structure Page where
  session : MeResponse
  users : List UserResponse := []
  connections : List ConnectionRefResponse
  target : Option UserResponse := none
  approve : Option ApproveModal := none
  scope : Option ScopeModal := none
  confirm : Option ConfirmModal := none
  secret : Option SecretModal := none
  toast : Option (String × Bool) := none

/-- The buttons of a row of the table or of the block of applicants. -/
inductive Button
  | approve | reject | scope | role | password | disable | enable
  deriving DecidableEq, Repr

def strong (text : String) : String := "<strong>" ++ text ++ "</strong>"

def confirmReject (user : UserResponse) : ConfirmModal where
  title := "가입을 거부할까요?"
  body := strong user.username ++ " 님의 가입 신청을 거부합니다. 거부된 계정은 다시 승인할 수 없으며, 재신청은 새 계정으로 해야 합니다."
  okLabel := "거부"
  danger := true
  user := user
  onOk := .rejectUser

def confirmDisable (user : UserResponse) : ConfirmModal where
  title := "계정을 비활성화할까요?"
  body := strong user.username ++ " 님은 로그인할 수 없게 됩니다. 계정과 활동 기록은 삭제되지 않습니다."
  okLabel := "비활성화"
  danger := true
  user := user
  onOk := .setUserEnabled false

def confirmEnable (user : UserResponse) : ConfirmModal where
  title := "계정을 다시 활성화할까요?"
  body := strong user.username ++ " 님이 다시 로그인할 수 있게 됩니다."
  okLabel := "재활성화"
  user := user
  onOk := .setUserEnabled true

def nextRole : Role → Role
  | .viewer => .operator
  | .operator => .admin
  | .admin => .viewer

def confirmRoleChange (user : UserResponse) : ConfirmModal where
  title := "역할을 변경할까요?"
  body := strong user.username ++ " 님의 역할을 " ++ strong (roleLabel user.role) ++ "에서 " ++
    strong (roleLabel (nextRole user.role)) ++ "(으)로 변경합니다." ++
    (if nextRole user.role = .admin then " 관리자는 모든 연결과 사용자를 관리할 수 있습니다." else "")
  okLabel := "변경"
  user := user
  onOk := .changeUserRole (nextRole user.role)

def confirmResetPassword (user : UserResponse) : ConfirmModal where
  title := "임시 비밀번호를 발급할까요?"
  body := strong user.username ++ " 님의 비밀번호를 임시 비밀번호로 바꿉니다. 기존 비밀번호는 사용할 수 없게 됩니다."
  okLabel := "발급"
  user := user
  onOk := .resetUserPassword

namespace Page

/-- `init`, once the guard has let the caller in; the list is asked for at once. -/
def init (me : MeResponse) : Page where
  session := me
  connections := me.accessibleConnections

def uncovered (s : Page) : Bool :=
  s.approve.isNone && s.scope.isNone && s.confirm.isNone && s.secret.isNone

def pendingButtons (user : UserResponse) : List Button :=
  if user.status = .pending then [.approve,.reject] else []

def rowButtons (s : Page) (user : UserResponse) : List Button :=
  if user.userId ≠ s.session.user.userId ∧ user.status ≠ .pending ∧ user.status ≠ .rejected then
    (if user.role ≠ .admin then [.scope] else []) ++
      [.role,.password,if user.status = .active then .disable else .enable]
  else []

/-- The buttons that `render` draws for an account of the list. -/
def buttons (s : Page) (user : UserResponse) : List Button :=
  pendingButtons user ++ s.rowButtons user

def scopeBoxes (s : Page) (selected : List UUID) : Boxes :=
  s.connections.map fun c => (c.connectionId,decide (c.connectionId ∈ selected))

def openApprove (s : Page) (user : UserResponse) : Page :=
  { s with
    target := some user
    approve := some { name := shownName user, boxes := s.scopeBoxes [] } }

def openScope (s : Page) (user : UserResponse) : Page :=
  { s with
    target := some user
    scope := some { name := shownName user, boxes := s.scopeBoxes (user.scopes.getD []) } }

def openConfirm (s : Page) (modal : ConfirmModal) : Page := { s with confirm := some modal }

def press (s : Page) (user : UserResponse) : Button → Page
  | .approve => s.openApprove user
  | .reject => s.openConfirm (confirmReject user)
  | .scope => s.openScope user
  | .role => s.openConfirm (confirmRoleChange user)
  | .password => s.openConfirm (confirmResetPassword user)
  | .disable => s.openConfirm (confirmDisable user)
  | .enable => s.openConfirm (confirmEnable user)

def closeAll (s : Page) : Page :=
  { s with approve := none, scope := none, confirm := none, secret := none }

/-- Administrators are approved without a list of connections. -/
def confirmApprove (s : Page) : Page × List Message :=
  match s.approve, s.target with
  | some modal, some user =>
    let ids := if modal.role = .admin then [] else selectedScopes modal.boxes
    (if modal.role ≠ .admin ∧ ids = [] then
      { s with toast := some ("범위를 지정하지 않아 이 사용자에게는 자원이 보이지 않습니다.",false) } else s,
      [.act ⟨user,.approveUser modal.role ids,.approve modal.name modal.role modal.boxes⟩])
  | _, _ => (s,[])

def saveScope (s : Page) : Page × List Message :=
  match s.scope, s.target with
  | some modal, some user => (s,[.act ⟨user,.setUserScopes (selectedScopes modal.boxes),
      .scope modal.name modal.boxes⟩])
  | _, _ => (s,[])

def runConfirm (s : Page) : Page × List Message :=
  match s.confirm with
  | some modal => (s,[.act ⟨modal.user,modal.onOk,.confirm modal.title modal.body modal.okLabel⟩])
  | none => (s,[])

end Page

def Boxes.toggle (boxes : Boxes) (n : ℕ) : Boxes := boxes.modify n fun b => (b.1,!b.2)

inductive Use
  | press (user : UserResponse) (button : Button)
  | chooseRole (role : Role)
  | tickApprove (n : ℕ)
  | tickScope (n : ℕ)
  | confirmApprove
  | saveScope
  | runConfirm
  | closeAll

namespace Page

/-- What the script does on an event; a button that is not drawn cannot be pressed. -/
def handle (s : Page) : Use → Page × List Message
  | .press user button =>
    (if user ∈ s.users ∧ button ∈ s.buttons user then s.press user button else s,[])
  | .chooseRole role => ({ s with approve := s.approve.map fun m => { m with role := role } },[])
  | .tickApprove n =>
    ({ s with approve := s.approve.map fun m => { m with boxes := Boxes.toggle m.boxes n } },[])
  | .tickScope n =>
    ({ s with scope := s.scope.map fun m => { m with boxes := Boxes.toggle m.boxes n } },[])
  | .confirmApprove => s.confirmApprove
  | .saveScope => s.saveScope
  | .runConfirm => s.runConfirm
  | .closeAll => (s.closeAll,[])

/-- `err.message || fallback`. -/
def messageOr (fallback message : String) : String := if message = "" then fallback else message

/-- The rest of a handler, once its request is answered. -/
def receive (s : Page) : Answer → Page × List Message
  | .listUsers (.ok response) => ({ s with users := response.items },[])
  | .listUsers (.error message) =>
    ({ s with toast := some (messageOr "사용자 목록을 불러오지 못했습니다." message,true) },[])
  | .act call (.ok body) => match call.action with
    | .approveUser _ _ =>
      ({ s with
        approve := none
        toast := some (call.user.username ++ " 계정을 승인했습니다.",false) },[.listUsers])
    | .setUserScopes _ =>
      ({ s with scope := none, toast := some ("조회 범위를 저장했습니다.",false) },[.listUsers])
    | .resetUserPassword => match body with
      | .temporaryPassword value =>
        ({ s with secret := some ⟨shownName call.user,value⟩, confirm := none },[.listUsers])
      | _ => ({ s with confirm := none },[.listUsers])
    | _ => ({ s with confirm := none },[.listUsers])
  | .act call (.error message) => match call.action with
    | .approveUser _ _ => ({ s with
        approve := s.approve.map fun m => { m with error := messageOr "승인하지 못했습니다." message } },
        [])
    | .setUserScopes _ => ({ s with
        scope := s.scope.map fun m =>
          { m with error := messageOr "범위를 저장하지 못했습니다." message } },[])
    | _ => ({ s with
        confirm := s.confirm.map fun m =>
          { m with error := messageOr "처리하지 못했습니다." message } },[])

end Page

/-- A request of the page as the server met it. -/
structure Served where
  call : ApiCall
  ctx : Context
  db : Database

/-- The page, the database, and the messages on their way to the server and back. -/
structure Office where
  page : Page
  db : Database
  sent : List Message
  answered : List Answer := []
  served : List Served := []
  listed : List (Database × UserListResponse) := []

/-- Requests and answers get through in any order or are lost, with a text of the browser's; the
session cookie is whatever the browser holds by then. -/
inductive Step
  | use (e : Use)
  | serve (n : ℕ) (ctx : Context)
  | deliver (n : ℕ)
  | loseRequest (n : ℕ) (text : String)
  | loseAnswer (n : ℕ) (text : String)
  | other (e : PortalEvent)

def Message.lost (text : String) : Message → Answer
  | .act call => .act call (.error text)
  | .listUsers => .listUsers (.error text)

def Answer.lost (text : String) : Answer → Answer
  | .act call _ => .act call (.error text)
  | .listUsers _ => .listUsers (.error text)

namespace Office

variable (dbms : Dbms) (env : Env)

def opened (me : MeResponse) (db : Database) : Office where
  page := .init me
  db := db
  sent := [.listUsers]

def serve (o : Office) (n : ℕ) (ctx : Context) : Office :=
  match o.sent[n]? with
  | some (.act call) =>
    let result := (⟨ctx,call.request⟩ : Call).serve dbms env o.db
    { o with
      db := result.2
      sent := o.sent.eraseIdx n
      answered := o.answered ++ [.act call (Api.request (httpAnswer result.1))]
      served := o.served ++ [⟨call,ctx,o.db⟩] }
  | some .listUsers =>
    match Routes.listUsers dbms ctx.cookie none o.db with
    | .ok response => { o with
        sent := o.sent.eraseIdx n
        answered := o.answered ++ [.listUsers (.ok response)]
        listed := o.listed ++ [(o.db,response)] }
    | .error e => { o with
        sent := o.sent.eraseIdx n
        answered := o.answered ++ [.listUsers (.error (Api.errorMessage e.httpResponse.body))] }
  | none => o

def step (o : Office) : Step → Office
  | .use e => { o with page := (o.page.handle e).1, sent := o.sent ++ (o.page.handle e).2 }
  | .serve n ctx => o.serve dbms env n ctx
  | .deliver n => match o.answered[n]? with
    | some answer => { o with
        page := (o.page.receive answer).1
        sent := o.sent ++ (o.page.receive answer).2
        answered := o.answered.eraseIdx n }
    | none => o
  | .loseRequest n text => match o.sent[n]? with
    | some message => { o with
        sent := o.sent.eraseIdx n
        answered := o.answered ++ [message.lost text] }
    | none => o
  | .loseAnswer n text => match o.answered[n]? with
    | some answer => { o with answered := o.answered.eraseIdx n ++ [answer.lost text] }
    | none => o
  | .other e => { o with db := e.run dbms env o.db }

def run (steps : List Step) (o : Office) : Office := steps.foldl (step dbms env) o

def trace : List Step → Office → List (Office × Step)
  | [], _ => []
  | x::steps, o => (o,x)::trace steps (o.step dbms env x)

end Office

def Step.inView (o : Office) : Step → Bool
  | .use (.press _ _) => o.page.uncovered
  | _ => true

end UsersPage
end WzonePortal
