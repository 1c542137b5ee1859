import Mathlib.Data.Rat.Defs
import Mathlib.Algebra.Order.Ring.Rat
import WzonePortal.ConnectionSchema

/-! The form that adds a connection, and the requests that it sends. The page keeps its parts in
step with the kind, the port field follows it unless somebody has typed a port of his own, and
what a request carries is what the form shows at that moment; hidden fields are left out. -/
namespace WzonePortal

/-- The characters that `trim` removes. -/
def trimmed (c : Char) : Bool :=
  c.toNat ∈ [0x9,0xa,0xb,0xc,0xd,0x20,0xa0,0x1680,0x2028,0x2029,0x202f,0x205f,0x3000,0xfeff] ||
    (0x2000 ≤ c.toNat && c.toNat ≤ 0x200a)

def trim (text : String) : String :=
  String.ofList ((text.toList.dropWhile trimmed).reverse.dropWhile trimmed).reverse

structure KindMeta where
  port : ℚ
  addressPlaceholder : String
  userPlaceholder : String
  hint : String

def kindMeta : ConnectionKind → KindMeta
  | .vcenter => ⟨443,"vcsa.example.local","svc-inventory@vsphere.local",""⟩
  | .scvmm => ⟨5986,"scvmm.example.local","DOMAIN\\svc-inventory",
    "SCVMM 관리 서버 주소를 직접 지정하세요 (콘솔만 설치된 서버 경유 금지). " ++
      "SCVMM이 관리하는 호스트를 별도로 등록하면 같은 VM이 중복 수집됩니다."⟩
  | .hypervHost => ⟨5986,"hv-host01.example.local","DOMAIN\\svc-inventory",
    "SCVMM이 관리하는 호스트라면 이 연결 대신 SCVMM으로 등록하세요. " ++
      "함께 등록하면 같은 VM이 중복 수집됩니다."⟩
  | .hypervCluster => ⟨5986,"hv-cluster01.example.local","DOMAIN\\svc-inventory",
    "클러스터 이름으로 등록하면 노드 목록을 얻어 노드별로 수집합니다. " ++
      "SCVMM이 관리하는 클러스터라면 SCVMM으로 등록하세요."⟩

def winrmPorts : Protocol → ℚ
  | .https => 5986
  | .http => 5985

def isWinRmKind (kind : ConnectionKind) : Bool :=
  kind = .scvmm || kind = .hypervHost || kind = .hypervCluster

/-- The values of the fields; a number field without a number is empty. -/
structure FormFields where
  kind : ConnectionKind := .vcenter
  name : String := ""
  address : String := ""
  port : Option ℚ := some 443
  user : String := ""
  pass : String := ""
  jea : String := ""
  auth : WinRmAuth := .ntlm
  protocol : Protocol := .https
  tls : Bool := true
  deriving DecidableEq

/-- What the page shows around the fields. -/
structure FormView where
  winrmHidden : Bool
  jeaHidden : Bool
  hint : String
  hintHidden : Bool
  addressPlaceholder : String
  userPlaceholder : String
  warn : String
  warnHidden : Bool
  deriving DecidableEq

/-- A value of the request body. -/
inductive FormValue
  | null
  | bool (b : Bool)
  | num (n : ℚ)
  | str (text : String)

/-- A number without a fraction is read as an integer. -/
def readFormValue : FieldReader FormValue where
  isNull
    | .null => true
    | _ => false
  str
    | .str text => some text
    | _ => none
  int
    | .num n => if n.den = 1 then some n.num else none
    | _ => none
  bool
    | .bool b => some b
    | _ => none

namespace FormFields

variable (f : FormFields)

def jeaShown : Bool := f.kind = .hypervHost || f.kind = .hypervCluster

/-- `Number(value) || KIND_META[kind].port`. -/
def sentPort : ℚ :=
  match f.port with
  | none => (kindMeta f.kind).port
  | some n => if n = 0 then (kindMeta f.kind).port else n

/-- The part of the payload for the kinds with WinRM. -/
def winrmPayload : List (String × FormValue) :=
  if isWinRmKind f.kind then
    ("protocol",.str f.protocol.value)::("auth_method",.str f.auth.value)::
      if f.kind ≠ .scvmm then
        [("session_configuration",if trim f.jea = "" then .null else .str (trim f.jea))]
      else []
  else []

def formPayload : List (String × FormValue) :=
  [("kind",.str f.kind.value),("display_name",.str (trim f.name)),
    ("address",.str (trim f.address)),("port",.num f.sentPort),("username",.str (trim f.user)),
    ("password",.str f.pass),("verify_tls",.bool f.tls)] ++ f.winrmPayload

def body (name : String) : Option FormValue := f.formPayload.lookup name

/-- The checks of the browser: the required fields, and the bounds and the step of the port. -/
def valid : Bool :=
  f.name ≠ "" && f.address ≠ "" && f.user ≠ "" && f.pass ≠ "" &&
    f.port.all fun n => n.den = 1 && 1 ≤ n.num && n.num ≤ 65535

/-- `renderWinRmWarnings`. -/
def warnings : List String :=
  (if f.auth = .credssp then
    ["CredSSP는 자격증명이 대상 서버로 위임됩니다. 이중 홉이 꼭 필요한 경우에만 쓰세요."] else []) ++
  if f.protocol = .http then ["HTTP는 전송 계층 암호화가 없습니다. 테스트 용도로만 쓰세요."] else []

def renderWinRmWarnings (view : FormView) : FormView :=
  { view with
    warn := " ".intercalate f.warnings
    warnHidden := f.warnings.isEmpty }

def defaults : List ℚ := [443,5986,5986,5986,winrmPorts .http]

def defaultPort : ℚ := if isWinRmKind f.kind then winrmPorts f.protocol else (kindMeta f.kind).port

def onProtocolChange : FormFields :=
  { f with port := if f.port = some (winrmPorts (if f.protocol = .https then .http else .https))
      then some (winrmPorts f.protocol) else f.port }

def followKind : FormFields :=
  { f with port := if f.port.all (· ∈ defaults) then some f.defaultPort else f.port }

def renderKind (view : FormView) : FormView :=
  f.renderWinRmWarnings
    { view with
      winrmHidden := !isWinRmKind f.kind
      jeaHidden := !f.jeaShown
      hint := (kindMeta f.kind).hint
      hintHidden := (kindMeta f.kind).hint = ""
      addressPlaceholder := (kindMeta f.kind).addressPlaceholder
      userPlaceholder := (kindMeta f.kind).userPlaceholder }

def view : FormView := f.renderKind ⟨true,true,"",true,"","","",true⟩

end FormFields

/-- A save that is under way: the request, then the new list. -/
inductive SavePhase
  | posting (f : FormFields)
  | reloading
  deriving DecidableEq

/-- The dialog. The bodies of the requests are kept as the fields that they were made from, and
`typed` is what was last typed as a port since the dialog was opened; no code reads it. -/
structure AddDialog where
  fields : FormFields := {}
  view : FormView := FormFields.view {}
  checkShown : Bool := false
  error : String := ""
  modalHidden : Bool := true
  testDisabled : Bool := false
  saveDisabled : Bool := false
  testing : List FormFields := []
  saving : List SavePhase := []
  tested : List FormFields := []
  created : List FormFields := []
  typed : Option (Option ℚ) := none

inductive DialogEvent
  | openAdd
  | closeAdd
  | typeName (text : String)
  | typeAddress (text : String)
  | typePort (value : Option ℚ)
  | typeUser (text : String)
  | typePass (text : String)
  | typeJea (text : String)
  | checkTls (checked : Bool)
  | chooseKind (kind : ConnectionKind)
  | chooseAuth (auth : WinRmAuth)
  | chooseProtocol (protocol : Protocol)
  | testConnection
  | testAnswered (n : ℕ) (error : Option String)
  | saveConnection
  | saveAnswered (n : ℕ) (error : Option String)
  | reloaded (n : ℕ)

namespace AddDialog

/-- `err.message || fallback`. -/
def messageOr (fallback message : String) : String := if message = "" then fallback else message

def setFields (s : AddDialog) (f : FormFields) : AddDialog := { s with fields := f }

/-- `onKindChange`. -/
def onKindChange (s : AddDialog) : AddDialog :=
  { s with
    fields := s.fields.followKind
    view := s.fields.renderKind s.view
    checkShown := false }

/-- The form is reset before the kind is set up again. -/
def openAdd (s : AddDialog) : AddDialog :=
  let shown := onKindChange { s with fields := {} }
  { shown with
    fields := { shown.fields with port := some 443 }
    checkShown := false
    error := ""
    modalHidden := false
    typed := none }

def testConnection (s : AddDialog) : AddDialog :=
  if s.testDisabled then s
  else if trim s.fields.address = "" || trim s.fields.user = "" || s.fields.pass = "" then
    { s with error := "주소·계정·비밀번호를 먼저 입력하세요." }
  else
    { s with
      testDisabled := true
      error := ""
      testing := s.testing ++ [s.fields]
      tested := s.tested ++ [s.fields] }

def testAnswered (n : ℕ) (error : Option String) (s : AddDialog) : AddDialog :=
  if n < s.testing.length then
    { s with
      testing := s.testing.eraseIdx n
      testDisabled := false
      checkShown := if error.isNone then true else s.checkShown
      error := match error with
        | some message => messageOr "연결 테스트에 실패했습니다." message
        | none => s.error }
  else s

/-- The browser sends the form only when its checks pass and the button is not disabled. -/
def saveConnection (s : AddDialog) : AddDialog :=
  if s.saveDisabled || !s.fields.valid then s
  else
    { s with
      saveDisabled := true
      error := ""
      saving := s.saving ++ [.posting s.fields]
      created := s.created ++ [s.fields] }

def saveAnswered (n : ℕ) (error : Option String) (s : AddDialog) : AddDialog :=
  match s.saving[n]? with
  | some (.posting _) => match error with
    | none => { s with modalHidden := true, saving := s.saving.set n .reloading }
    | some message => { s with
        error := messageOr "연결을 등록하지 못했습니다." message
        saving := s.saving.eraseIdx n
        saveDisabled := false }
  | _ => s

def reloaded (n : ℕ) (s : AddDialog) : AddDialog :=
  match s.saving[n]? with
  | some .reloading => { s with saving := s.saving.eraseIdx n, saveDisabled := false }
  | _ => s

/-- What is not shown cannot be used. -/
def shown (s : AddDialog) : DialogEvent → Bool
  | .typeJea _ => !s.modalHidden && !s.view.winrmHidden && !s.view.jeaHidden
  | .chooseAuth _ => !s.modalHidden && !s.view.winrmHidden
  | .chooseProtocol _ => !s.modalHidden && !s.view.winrmHidden
  | .openAdd => true
  | .testAnswered _ _ => true
  | .saveAnswered _ _ => true
  | .reloaded _ => true
  | _ => !s.modalHidden

def handle (s : AddDialog) : DialogEvent → AddDialog
  | .openAdd => s.openAdd
  | .closeAdd => { s with modalHidden := true }
  | .typeName text => s.setFields { s.fields with name := text }
  | .typeAddress text => s.setFields { s.fields with address := text }
  | .typePort value => { s.setFields { s.fields with port := value } with typed := some value }
  | .typeUser text => s.setFields { s.fields with user := text }
  | .typePass text => s.setFields { s.fields with pass := text }
  | .typeJea text => s.setFields { s.fields with jea := text }
  | .checkTls checked => s.setFields { s.fields with tls := checked }
  | .chooseKind kind =>
    if kind = s.fields.kind then s else (s.setFields { s.fields with kind := kind }).onKindChange
  | .chooseAuth auth =>
    { s with
      fields := { s.fields with auth := auth }
      view := FormFields.renderWinRmWarnings { s.fields with auth := auth } s.view }
  | .chooseProtocol protocol =>
    if protocol = s.fields.protocol then s
    else
      { s with
        fields := FormFields.onProtocolChange { s.fields with protocol := protocol }
        view := FormFields.renderWinRmWarnings { s.fields with protocol := protocol } s.view }
  | .testConnection => s.testConnection
  | .testAnswered n error => s.testAnswered n error
  | .saveConnection => s.saveConnection
  | .saveAnswered n error => s.saveAnswered n error
  | .reloaded n => s.reloaded n

def step (s : AddDialog) (e : DialogEvent) : AddDialog := if s.shown e then s.handle e else s

def run (events : List DialogEvent) : AddDialog := events.foldl step {}

end AddDialog

/-- The port field follows the kind and the protocol until another port is typed. -/
def PortFollows (typed : Option (Option ℚ)) (f : FormFields) : Prop :=
  match typed with
  | none => f.port = some f.defaultPort
  | some p => (f.port = p ∨ f.port = some f.defaultPort) ∧
    (p.any (· ∉ FormFields.defaults) = true → f.port = p)

/-- What every use of the dialog keeps. -/
structure AddDialog.Kept (s : AddDialog) : Prop where
  view : s.view = s.fields.view
  port : PortFollows s.typed s.fields
  testDisabled : s.testDisabled = !s.testing.isEmpty
  testing : s.testing.length ≤ 1
  saveDisabled : s.saveDisabled = !s.saving.isEmpty
  saving : s.saving.length ≤ 1
  tested : ∀ f ∈ s.tested, trim f.address ≠ "" ∧ trim f.user ≠ "" ∧ f.pass ≠ ""
  created : ∀ f ∈ s.created, f.valid = true

section
variable {f g : FormFields} {typed : Option (Option ℚ)} {s : AddDialog}

theorem renderWinRmWarnings_view (hkind : g.kind = f.kind) :
    g.renderWinRmWarnings f.view = g.view := by
  unfold FormFields.view FormFields.renderKind FormFields.renderWinRmWarnings FormFields.jeaShown
  simp only [hkind]

theorem defaultPort_mem (f : FormFields) : f.defaultPort ∈ FormFields.defaults := by
  unfold FormFields.defaultPort
  cases f.kind <;> cases f.protocol <;> decide

theorem not_mem_of_typed {p : Option ℚ} (hp : p.any (· ∉ FormFields.defaults) = true) :
    ¬ p.all (· ∈ FormFields.defaults) = true := by
  cases p with
  | none => cases hp
  | some n => simpa using hp

theorem PortFollows.chooseKind (h : PortFollows typed f) (kind : ConnectionKind) :
    PortFollows typed (FormFields.followKind { f with kind := kind }) := by
  have hmem : f.port = some f.defaultPort → f.port.all (· ∈ FormFields.defaults) = true := by
    intro hdefault
    rw [hdefault]
    simpa using defaultPort_mem f
  cases typed with
  | none =>
    have hold := hmem h
    simp only [PortFollows,FormFields.followKind,if_pos hold]
    rfl
  | some p =>
    by_cases hold : f.port.all (· ∈ FormFields.defaults) = true
    · simp only [PortFollows,FormFields.followKind,if_pos hold]
      refine ⟨.inr rfl,fun hp => ?_⟩
      rw [h.2 hp] at hold
      exact absurd hold (not_mem_of_typed hp)
    · simp only [PortFollows,FormFields.followKind,if_neg hold]
      exact ⟨.inl (h.1.resolve_right (mt hmem hold)),h.2⟩

theorem PortFollows.chooseProtocol (h : PortFollows typed f) (hkind : isWinRmKind f.kind = true)
    {protocol : Protocol} (hne : protocol ≠ f.protocol) :
    PortFollows typed (FormFields.onProtocolChange { f with protocol := protocol }) := by
  have hother : (if protocol = .https then Protocol.http else .https) = f.protocol := by
    revert hne
    cases protocol <;> cases f.protocol <;> decide
  have hdefault : f.defaultPort = winrmPorts f.protocol := if_pos hkind
  have hnew : FormFields.defaultPort { f with protocol := protocol } = winrmPorts protocol :=
    if_pos hkind
  by_cases hold : f.port = some (winrmPorts f.protocol)
  · have hafter : FormFields.onProtocolChange { f with protocol := protocol } =
        { f with protocol := protocol, port := some (winrmPorts protocol) } := by
      simp only [FormFields.onProtocolChange,hother,if_pos hold]
    rw [hafter]
    cases typed with
    | none => exact congrArg some hnew.symm
    | some p =>
      refine ⟨.inr (congrArg some hnew.symm),fun hp => ?_⟩
      have hmem : f.port.all (· ∈ FormFields.defaults) = true := by
        rw [hold,← hdefault]
        simpa using defaultPort_mem f
      rw [h.2 hp] at hmem
      exact absurd hmem (not_mem_of_typed hp)
  · have hafter : FormFields.onProtocolChange { f with protocol := protocol } =
        { f with protocol := protocol } := by
      simp only [FormFields.onProtocolChange,hother,if_neg hold]
    rw [hafter]
    rw [← hdefault] at hold
    cases typed with
    | none => exact absurd h hold
    | some p => exact ⟨.inl (h.1.resolve_right hold),h.2⟩

theorem AddDialog.Kept.initial : AddDialog.Kept {} where
  view := rfl
  port := rfl
  testDisabled := rfl
  testing := Nat.zero_le 1
  saveDisabled := rfl
  saving := Nat.zero_le 1
  tested := by simp
  created := by simp

/-! A button is disabled while its request is under way. -/

theorem eq_nil_of_enabled {α : Type} {l : List α} {disabled : Bool} (h : disabled = !l.isEmpty)
    (hd : ¬ disabled = true) : l = [] := by
  rw [h] at hd
  simpa using hd

theorem eraseIdx_of_single {α : Type} {l : List α} {n : ℕ} (h : l.length ≤ 1)
    (hn : n < l.length) : l.eraseIdx n = [] := by
  apply List.eq_nil_of_length_eq_zero
  rw [List.length_eraseIdx_of_lt hn]
  omega

theorem AddDialog.Kept.testConnection (h : s.Kept) : s.testConnection.Kept := by
  unfold AddDialog.testConnection
  by_cases hd : s.testDisabled = true
  · rw [if_pos hd]
    exact h
  · rw [if_neg hd]
    split
    · exact { h with }
    · rename_i hfilled
      simp only [Bool.or_eq_true,decide_eq_true_eq,not_or] at hfilled
      have hnone := eq_nil_of_enabled h.testDisabled hd
      refine { h with testDisabled := ?_, testing := ?_, tested := ?_ }
      · simp
      · simp [hnone]
      · intro f hf
        rcases List.mem_append.mp hf with hf | hf
        · exact h.tested f hf
        · rw [List.mem_singleton.mp hf]
          exact ⟨hfilled.1.1,hfilled.1.2,hfilled.2⟩

theorem AddDialog.Kept.testAnswered (h : s.Kept) (n : ℕ) (error : Option String) :
    (s.testAnswered n error).Kept := by
  unfold AddDialog.testAnswered
  split
  · rename_i hn
    refine { h with testDisabled := ?_, testing := ?_ } <;>
      simp [eraseIdx_of_single h.testing hn]
  · exact h

theorem AddDialog.Kept.saveConnection (h : s.Kept) : s.saveConnection.Kept := by
  unfold AddDialog.saveConnection
  split
  · exact h
  · rename_i hsend
    simp only [Bool.or_eq_true,Bool.not_eq_true',not_or,Bool.not_eq_false] at hsend
    have hnone := eq_nil_of_enabled h.saveDisabled hsend.1
    refine { h with saveDisabled := ?_, saving := ?_, created := ?_ }
    · simp
    · simp [hnone]
    · intro f hf
      rcases List.mem_append.mp hf with hf | hf
      · exact h.created f hf
      · rw [List.mem_singleton.mp hf]
        exact hsend.2

theorem AddDialog.Kept.saveAnswered (h : s.Kept) (n : ℕ) (error : Option String) :
    (s.saveAnswered n error).Kept := by
  unfold AddDialog.saveAnswered
  split
  · rename_i f hphase
    have hn := (List.getElem?_eq_some_iff.mp hphase).1
    cases error with
    | none =>
      refine { h with saveDisabled := ?_, saving := ?_ }
      · rw [h.saveDisabled]
        cases hs : s.saving with
        | nil =>
          rw [hs] at hn
          cases hn
        | cons phase phases => cases n <;> rfl
      · simpa using h.saving
    | some message =>
      refine { h with saveDisabled := ?_, saving := ?_ } <;>
        simp [eraseIdx_of_single h.saving hn]
  · exact h

theorem AddDialog.Kept.reloaded (h : s.Kept) (n : ℕ) : (s.reloaded n).Kept := by
  unfold AddDialog.reloaded
  split
  · rename_i hphase
    have hn := (List.getElem?_eq_some_iff.mp hphase).1
    refine { h with saveDisabled := ?_, saving := ?_ } <;>
      simp [eraseIdx_of_single h.saving hn]
  · exact h

/-- One use of the dialog, one case for each. -/
theorem AddDialog.Kept.step (h : s.Kept) (e : DialogEvent) : (s.step e).Kept := by
  unfold AddDialog.step
  by_cases hshown : s.shown e = true
  · rw [if_pos hshown]
    cases e with
    | openAdd => exact { h with view := rfl, port := rfl }
    | closeAdd => exact { h with }
    | typeName text => exact { h with }
    | typeAddress text => exact { h with }
    | typePort value => exact { h with port := ⟨.inl rfl,fun _ => rfl⟩ }
    | typeUser text => exact { h with }
    | typePass text => exact { h with }
    | typeJea text => exact { h with }
    | checkTls checked => exact { h with }
    | chooseKind kind =>
      simp only [AddDialog.handle]
      split
      · exact h
      · exact { h with view := rfl, port := h.port.chooseKind kind }
    | chooseAuth auth =>
      refine { h with view := ?_ }
      simp only [AddDialog.handle,h.view]
      exact renderWinRmWarnings_view rfl
    | chooseProtocol protocol =>
      simp only [AddDialog.handle]
      split
      · exact h
      · rename_i hne
        have hvisible : s.view.winrmHidden = false := by
          simp only [AddDialog.shown,Bool.and_eq_true,Bool.not_eq_true'] at hshown
          exact hshown.2
        rw [h.view] at hvisible
        have hkind : isWinRmKind s.fields.kind = true := by
          simpa [FormFields.view,FormFields.renderKind,FormFields.renderWinRmWarnings]
            using hvisible
        refine { h with view := ?_, port := h.port.chooseProtocol hkind hne }
        simp only [h.view]
        exact renderWinRmWarnings_view rfl
    | testConnection => exact h.testConnection
    | testAnswered n error => exact h.testAnswered n error
    | saveConnection => exact h.saveConnection
    | saveAnswered n error => exact h.saveAnswered n error
    | reloaded n => exact h.reloaded n
  · rw [if_neg hshown]
    exact h

theorem AddDialog.Kept.run (events : List DialogEvent) : (AddDialog.run events).Kept := by
  have hrun : ∀ s : AddDialog, s.Kept → (events.foldl AddDialog.step s).Kept := by
    induction events with
    | nil => exact fun s h => h
    | cons e events ih => exact fun s h => ih (s.step e) (h.step e)
  exact hrun {} .initial

end

/-- The texts that the server takes. -/
structure FormFields.Acceptable (rules : AddressRules) (f : FormFields) : Prop where
  name : 1 ≤ (trim f.name).length ∧ (trim f.name).length ≤ 100
  address : 1 ≤ (trim f.address).length ∧ (trim f.address).length ≤ 255
  reachable : rules.isValidAddress (rules.strip (trim f.address)) = true
  user : 1 ≤ (trim f.user).length ∧ (trim f.user).length ≤ 255
  jea : f.jeaShown = true → (trim f.jea).length ≤ 100

/-- A connection with every value that the form showed, and none of its hidden ones. -/
structure FormFields.Shows (rules : AddressRules) (f : FormFields) (conn : Connection) : Prop where
  kind : conn.kind = f.kind
  displayName : conn.displayName = trim f.name
  address : conn.address = rules.strip (trim f.address)
  port : (conn.port : ℚ) = f.sentPort
  username : conn.username = trim f.user
  password : conn.password = f.pass
  verifyTls : conn.verifyTls = f.tls
  protocol : conn.protocol = if isWinRmKind f.kind then f.protocol else .https
  authMethod : conn.authMethod = if isWinRmKind f.kind then some f.auth else none
  sessionConfiguration : conn.sessionConfiguration =
    if f.jeaShown && trim f.jea ≠ "" then some (trim f.jea) else none

section
open ConnectionCreate
variable {rules : AddressRules} {f : FormFields} {base : ConnectionCreateBase rules}
  {lo hi : ℕ} {name text : String} {α : Type} {read : FieldReader α} {body : String → Option α}

theorem textField_isSome (h : strField read body name = some text)
    (hlength : lo ≤ text.length ∧ text.length ≤ hi) :
    textField read body lo hi name = some ⟨text,hlength⟩ := by
  rw [textField,h,Option.bind_some,dif_pos hlength]

theorem textField_some {x : BoundedText lo hi} (h : strField read body name = some text)
    (hx : textField read body lo hi name = some x) : x.val = text := by
  rw [textField,h,Option.bind_some] at hx
  split at hx
  · cases hx
    rfl
  · cases hx

theorem strField_display_name : strField readFormValue f.body "display_name" = some (trim f.name) :=
  rfl

theorem strField_address : strField readFormValue f.body "address" = some (trim f.address) := rfl

theorem strField_username : strField readFormValue f.body "username" = some (trim f.user) := rfl

theorem strField_password : strField readFormValue f.body "password" = some f.pass := rfl

theorem verifyTlsField_body : verifyTlsField readFormValue f.body = some f.tls := rfl

theorem baseFields_isSome (h : f.Acceptable rules) (hpass : f.pass ≠ "") :
    ∃ base, baseFields rules readFormValue f.body = some base := by
  have hlength : 1 ≤ f.pass.length := by
    have hne : f.pass.length ≠ 0 := by simpa using hpass
    omega
  have haddress : addressField rules readFormValue f.body =
      some ⟨rules.strip (trim f.address),h.reachable⟩ := by
    rw [addressField,textField_isSome strField_address h.address,Option.bind_some,
      dif_pos h.reachable]
  have hpassword : passwordField readFormValue f.body = some ⟨f.pass,hlength⟩ := by
    rw [passwordField,strField_password,Option.bind_some,dif_pos hlength]
  refine ⟨⟨⟨trim f.name,h.name⟩,⟨_,h.reachable⟩,⟨trim f.user,h.user⟩,⟨f.pass,hlength⟩,f.tls⟩,?_⟩
  simp only [baseFields,textField_isSome strField_display_name h.name,haddress,
    textField_isSome strField_username h.user,hpassword,verifyTlsField_body]
  rfl

theorem addressField_some {x : {text : String // rules.isValidAddress text = true}}
    (hx : addressField rules readFormValue f.body = some x) :
    (1 ≤ (trim f.address).length ∧ (trim f.address).length ≤ 255) ∧
      x.val = rules.strip (trim f.address) := by
  obtain ⟨typed,htyped,hx⟩ := Option.bind_eq_some_iff.mp hx
  have htext := textField_some strField_address htyped
  refine ⟨htext ▸ typed.property,?_⟩
  split at hx
  · rw [← htext]
    exact congrArg Subtype.val (Option.some.inj hx).symm
  · cases hx

theorem passwordField_some {x : Secret} (hx : passwordField readFormValue f.body = some x) :
    x.val = f.pass := by
  rw [passwordField,strField_password,Option.bind_some] at hx
  split at hx
  · exact congrArg Subtype.val (Option.some.inj hx).symm
  · cases hx

theorem baseFields_some (h : baseFields rules readFormValue f.body = some base) :
    (1 ≤ (trim f.name).length ∧ (trim f.name).length ≤ 100) ∧
    (1 ≤ (trim f.address).length ∧ (trim f.address).length ≤ 255) ∧
    (1 ≤ (trim f.user).length ∧ (trim f.user).length ≤ 255) ∧
    base.displayName.val = trim f.name ∧ base.address.val = rules.strip (trim f.address) ∧
    base.username.val = trim f.user ∧ base.password.val = f.pass ∧ base.verifyTls = f.tls := by
  simp only [baseFields,Option.bind_eq_bind,Option.bind_eq_some_iff] at h
  obtain ⟨displayName,hname,address,haddress,username,huser,password,hpassword,tls,htls,h⟩ := h
  cases h
  have hdisplay := textField_some strField_display_name hname
  have husername := textField_some strField_username huser
  obtain ⟨hlength,hstripped⟩ := addressField_some haddress
  rw [verifyTlsField_body] at htls
  exact ⟨hdisplay ▸ displayName.property,hlength,husername ▸ username.property,hdisplay,hstripped,
    husername,passwordField_some hpassword,(Option.some.inj htls).symm⟩

theorem strField_kind : strField readFormValue f.body "kind" = some f.kind.value := rfl

theorem sentPort_of_valid (h : f.valid = true) :
    f.sentPort.den = 1 ∧ 1 ≤ f.sentPort.num ∧ f.sentPort.num ≤ 65535 := by
  have hdefault : (kindMeta f.kind).port.den = 1 ∧ 1 ≤ (kindMeta f.kind).port.num ∧
      (kindMeta f.kind).port.num ≤ 65535 := by
    cases f.kind <;> decide
  simp only [FormFields.valid,Bool.and_eq_true] at h
  unfold FormFields.sentPort
  cases hport : f.port with
  | none => exact hdefault
  | some n =>
    simp only
    split_ifs
    · exact hdefault
    · simpa [hport,and_assoc] using h.2

theorem pass_of_valid (h : f.valid = true) : f.pass ≠ "" := by
  simp only [FormFields.valid,Bool.and_eq_true,decide_eq_true_eq] at h
  exact h.1.2

theorem portField_body (h : f.valid = true) (default : Port) : ∃ port : Port,
    portField readFormValue f.body default = some port ∧ (port.val : ℚ) = f.sentPort := by
  obtain ⟨hden,hbounds⟩ := sentPort_of_valid h
  have hbody : f.body "port" = some (.num f.sentPort) := rfl
  refine ⟨⟨f.sentPort.num,hbounds⟩,?_,Rat.den_eq_one_iff _ |>.mp hden⟩
  simp only [portField,hbody,readFormValue,if_pos hden,Option.bind_some,dif_pos hbounds]

theorem protocolField_body (h : isWinRmKind f.kind = true) :
    protocolField readFormValue f.body = some f.protocol := by
  have hbody : f.body "protocol" = some (.str f.protocol.value) := by
    simp [FormFields.body,FormFields.formPayload,FormFields.winrmPayload,h,List.lookup_cons]
  simp only [protocolField,hbody]
  cases f.protocol <;> rfl

theorem authMethodField_body (h : isWinRmKind f.kind = true) :
    authMethodField readFormValue f.body = some f.auth := by
  have hbody : f.body "auth_method" = some (.str f.auth.value) := by
    simp [FormFields.body,FormFields.formPayload,FormFields.winrmPayload,h,List.lookup_cons]
  simp only [authMethodField,strField,hbody]
  cases f.auth <;> rfl

theorem sessionConfigurationField_body (h : f.jeaShown = true)
    {configuration : Option (BoundedText 0 100)} :
    sessionConfigurationField readFormValue f.body = some configuration ↔
      (trim f.jea).length ≤ 100 ∧ configuration.map (·.val) =
        if f.jeaShown && trim f.jea ≠ "" then some (trim f.jea) else none := by
  have hkind : isWinRmKind f.kind = true ∧ f.kind ≠ .scvmm := by
    revert h
    unfold FormFields.jeaShown
    cases f.kind <;> decide
  have hbody : f.body "session_configuration" =
      some (if trim f.jea = "" then .null else .str (trim f.jea)) := by
    simp [FormFields.body,FormFields.formPayload,FormFields.winrmPayload,hkind.1,hkind.2,
      List.lookup_cons]
  by_cases hjea : trim f.jea = ""
  · simp only [sessionConfigurationField,hbody,hjea,if_true,readFormValue]
    cases configuration <;> simp
  · rw [if_neg hjea] at hbody
    have hfield : strField readFormValue f.body "session_configuration" = some (trim f.jea) := by
      rw [strField,hbody]
      rfl
    have hfilled : (if f.jeaShown && trim f.jea ≠ "" then some (trim f.jea) else none) =
        some (trim f.jea) := by
      rw [h]
      simp [hjea]
    have hread : sessionConfigurationField readFormValue f.body =
        (textField readFormValue f.body 0 100 "session_configuration").map some := by
      rw [sessionConfigurationField,hbody]
      rfl
    rw [hread,hfilled,textField,hfield,Option.bind_some]
    by_cases hlength : 0 ≤ (trim f.jea).length ∧ (trim f.jea).length ≤ 100
    · rw [dif_pos hlength]
      cases configuration with
      | none => simp
      | some text =>
        simp only [Option.map_some,Option.some.injEq,Subtype.ext_iff]
        exact ⟨fun he => ⟨hlength.2,he.symm⟩,fun he => he.2.symm⟩
    · rw [dif_neg hlength]
      simp only [Option.map_none,reduceCtorEq,false_iff]
      exact fun he => hlength ⟨Nat.zero_le _,he.1⟩

/-- The values of an accepted body, as the form showed them. -/
structure FormFields.ReadAs (rules : AddressRules) (f : FormFields)
    (created : ConnectionCreate rules) : Prop where
  kind : created.kind = f.kind
  displayName : created.base.displayName.val = trim f.name
  address : created.base.address.val = rules.strip (trim f.address)
  port : (created.port.val : ℚ) = f.sentPort
  username : created.base.username.val = trim f.user
  password : created.base.password.val = f.pass
  verifyTls : created.base.verifyTls = f.tls
  protocol : created.protocol = if isWinRmKind f.kind then f.protocol else .https
  authMethod : created.authMethod = if isWinRmKind f.kind then some f.auth else none
  sessionConfiguration : created.sessionConfiguration =
    if f.jeaShown && trim f.jea ≠ "" then some (trim f.jea) else none

theorem sessionConfigurationField_isSome (h : f.jeaShown = true)
    (hlength : (trim f.jea).length ≤ 100) :
    ∃ configuration, sessionConfigurationField readFormValue f.body = some configuration := by
  by_cases hjea : trim f.jea = ""
  · exact ⟨none,(sessionConfigurationField_body h).mpr ⟨hlength,by simp [hjea]⟩⟩
  · exact ⟨some ⟨trim f.jea,Nat.zero_le _,hlength⟩,
      (sessionConfigurationField_body h).mpr ⟨hlength,by simp [h,hjea]⟩⟩

/-- Texts that the server takes make an accepted body, one case for each kind. -/
theorem ofBody_isSome (hvalid : f.valid = true) (h : f.Acceptable rules) :
    ∃ created, ofBody rules readFormValue f.body = some created := by
  obtain ⟨base,hbase⟩ := baseFields_isSome h (pass_of_valid hvalid)
  unfold ofBody
  rw [strField_kind,Option.bind_some,ConnectionKind.ofValue_value,hbase]
  cases hk : f.kind with
  | vcenter =>
    obtain ⟨port,hport,-⟩ := portField_body hvalid ⟨443,by decide⟩
    exact ⟨.vcenter base port,by simp [hport]⟩
  | hypervHost =>
    have hwinrm : isWinRmKind f.kind = true := by rw [hk]; rfl
    have hjea : f.jeaShown = true := by rw [FormFields.jeaShown,hk]; rfl
    obtain ⟨port,hport,-⟩ := portField_body hvalid ⟨5986,by decide⟩
    obtain ⟨configuration,hconfiguration⟩ := sessionConfigurationField_isSome hjea (h.jea hjea)
    exact ⟨.hyperv base ⟨.hypervHost,.inl rfl⟩ port f.protocol f.auth configuration,by
      simp [hport,protocolField_body hwinrm,authMethodField_body hwinrm,hconfiguration]⟩
  | hypervCluster =>
    have hwinrm : isWinRmKind f.kind = true := by rw [hk]; rfl
    have hjea : f.jeaShown = true := by rw [FormFields.jeaShown,hk]; rfl
    obtain ⟨port,hport,-⟩ := portField_body hvalid ⟨5986,by decide⟩
    obtain ⟨configuration,hconfiguration⟩ := sessionConfigurationField_isSome hjea (h.jea hjea)
    exact ⟨.hyperv base ⟨.hypervCluster,.inr rfl⟩ port f.protocol f.auth configuration,by
      simp [hport,protocolField_body hwinrm,authMethodField_body hwinrm,hconfiguration]⟩
  | scvmm =>
    have hwinrm : isWinRmKind f.kind = true := by rw [hk]; rfl
    obtain ⟨port,hport,-⟩ := portField_body hvalid ⟨5986,by decide⟩
    exact ⟨.scvmm base port f.protocol f.auth,by
      simp [hport,protocolField_body hwinrm,authMethodField_body hwinrm]⟩

/-- An accepted body has the values that the form showed. -/
theorem ofBody_some (hvalid : f.valid = true) {created : ConnectionCreate rules}
    (h : ofBody rules readFormValue f.body = some created) :
    f.Acceptable rules ∧ f.ReadAs rules created := by
  unfold ofBody at h
  rw [strField_kind,Option.bind_some,ConnectionKind.ofValue_value,Option.bind_eq_bind,
    Option.bind_some] at h
  obtain ⟨base,hbase,h⟩ := Option.bind_eq_some_iff.mp h
  obtain ⟨hname,haddress,huser,h1,h2,h3,h4,h5⟩ := baseFields_some hbase
  have hreachable : rules.isValidAddress (rules.strip (trim f.address)) = true :=
    h2 ▸ base.address.property
  cases hk : f.kind with
  | vcenter =>
    have hjea : f.jeaShown = false := by rw [FormFields.jeaShown,hk]; rfl
    obtain ⟨port,hport,hsent⟩ := portField_body hvalid ⟨443,by decide⟩
    simp only [hk,hport] at h
    cases h
    exact ⟨⟨hname,haddress,hreachable,huser,by simp [hjea]⟩,
      ⟨hk.symm,h1,h2,hsent,h3,h4,h5,by rw [hk]; rfl,by rw [hk]; rfl,
        by rw [hjea,Bool.false_and]; rfl⟩⟩
  | hypervHost | hypervCluster =>
    have hwinrm : isWinRmKind f.kind = true := by rw [hk]; rfl
    have hjea : f.jeaShown = true := by rw [FormFields.jeaShown,hk]; rfl
    obtain ⟨port,hport,hsent⟩ := portField_body hvalid ⟨5986,by decide⟩
    simp only [hk,hport,protocolField_body hwinrm,authMethodField_body hwinrm,
      Option.bind_eq_bind,Option.bind_some] at h
    obtain ⟨configuration,hconfiguration,h⟩ := Option.bind_eq_some_iff.mp h
    obtain ⟨hlength,hmap⟩ := (sessionConfigurationField_body hjea).mp hconfiguration
    cases h
    exact ⟨⟨hname,haddress,hreachable,huser,fun _ => hlength⟩,
      ⟨hk.symm,h1,h2,hsent,h3,h4,h5,(if_pos hwinrm).symm,(if_pos hwinrm).symm,hmap⟩⟩
  | scvmm =>
    have hwinrm : isWinRmKind f.kind = true := by rw [hk]; rfl
    have hjea : f.jeaShown = false := by rw [FormFields.jeaShown,hk]; rfl
    obtain ⟨port,hport,hsent⟩ := portField_body hvalid ⟨5986,by decide⟩
    simp only [hk,hport,protocolField_body hwinrm,authMethodField_body hwinrm,
      Option.bind_eq_bind,Option.bind_some] at h
    cases h
    exact ⟨⟨hname,haddress,hreachable,huser,by simp [hjea]⟩,
      ⟨hk.symm,h1,h2,hsent,h3,h4,h5,(if_pos hwinrm).symm,(if_pos hwinrm).symm,
        by rw [hjea,Bool.false_and]; rfl⟩⟩

theorem FormFields.ReadAs.shows {created : ConnectionCreate rules} (h : f.ReadAs rules created)
    (ctx : Context) : f.Shows rules (ConnectionService.toConnection ctx created.toInput) := by
  have hagrees := toConnection_agrees ctx created
  exact ⟨hagrees.kind.trans h.kind,hagrees.displayName.trans h.displayName,
    hagrees.address.trans h.address,hagrees.port ▸ h.port,hagrees.username.trans h.username,
    hagrees.password.trans h.password,hagrees.verifyTls.trans h.verifyTls,
    hagrees.protocol.trans h.protocol,hagrees.authMethod.trans h.authMethod,
    hagrees.sessionConfiguration.trans h.sessionConfiguration⟩

end

/-- However the dialog is used, its parts belong to the kind, the port follows the kind until one
is typed, no request is sent twice at a time, and what a save makes of the server is what the
dialog showed: the server takes it when its texts are short enough and its address is one, and
the connection then passes the domain rules with the shown values and no hidden ones. -/
theorem dialog_stores_what_it_shows (rules : AddressRules) (events : List DialogEvent)
    (s : AddDialog) (hs : s = AddDialog.run events) :
    s.view = s.fields.view ∧ PortFollows s.typed s.fields ∧
    s.testing.length ≤ 1 ∧ s.saving.length ≤ 1 ∧
    (∀ f ∈ s.tested, trim f.address ≠ "" ∧ trim f.user ≠ "" ∧ f.pass ≠ "") ∧
    ∀ f ∈ s.created,
      ((∃ created, ConnectionCreate.ofBody rules readFormValue f.body = some created) ↔
        f.Acceptable rules) ∧
      ∀ created, ConnectionCreate.ofBody rules readFormValue f.body = some created →
        ∀ ctx, (ConnectionService.toConnection ctx created.toInput).validate = .ok () ∧
          f.Shows rules (ConnectionService.toConnection ctx created.toInput) := by
  subst hs
  have h := AddDialog.Kept.run events
  refine ⟨h.view,h.port,h.testing,h.saving,h.tested,fun f hf => ⟨⟨?_,?_⟩,?_⟩⟩
  · rintro ⟨created,hcreated⟩
    exact (ofBody_some (h.created f hf) hcreated).1
  · exact ofBody_isSome (h.created f hf)
  · intro created hcreated ctx
    exact ⟨ConnectionCreate.validate_toConnection ctx created,
      (ofBody_some (h.created f hf) hcreated).2.shows ctx⟩

/-- A cluster is entered with blanks around its address, over HTTP; SCVMM is chosen and left on the
way, with a session configuration typed before. -/
def clusterEntered : List DialogEvent :=
  [.openAdd,.typeName "cl",.chooseKind .hypervHost,.typeJea "ReadOnly",.chooseKind .scvmm,
    .chooseProtocol .http,.chooseKind .hypervCluster,.typeAddress " hv.local ",.typeUser "reader",
    .typePass "SuperSecret!234",.chooseAuth .kerberos,.saveConnection,.saveConnection]

def clusterShown : FormFields :=
  ⟨.hypervCluster,"cl"," hv.local ",some 5985,"reader","SuperSecret!234","ReadOnly",.kerberos,.http,
    true⟩

theorem clusterShown_acceptable : clusterShown.Acceptable plainRules := by
  refine ⟨?_,?_,?_,?_,fun _ => ?_⟩ <;> decide +kernel

theorem dialog_stores_what_it_shows_cluster : ∃ created,
    (AddDialog.run clusterEntered).created = [clusterShown] ∧
    ConnectionCreate.ofBody plainRules readFormValue clusterShown.body = some created ∧
    (ConnectionService.toConnection (contextOf 1 8 20) created.toInput).port = 5985 ∧
    (ConnectionService.toConnection (contextOf 1 8 20) created.toInput).sessionConfiguration =
      some "ReadOnly" := by
  have hcreated : (AddDialog.run clusterEntered).created = [clusterShown] := by decide +kernel
  obtain ⟨-,-,-,-,-,hsent⟩ := dialog_stores_what_it_shows plainRules clusterEntered _ rfl
  obtain ⟨hiff,hshows⟩ := hsent clusterShown (by rw [hcreated]; exact List.mem_singleton_self _)
  obtain ⟨created,hbody⟩ := hiff.mpr clusterShown_acceptable
  have hconn := (hshows created hbody (contextOf 1 8 20)).2
  have hport : clusterShown.sentPort = ((5985:ℤ):ℚ) := by decide +kernel
  refine ⟨created,hcreated,hbody,Int.cast_injective (hconn.port.trans hport),?_⟩
  exact hconn.sessionConfiguration.trans (by decide +kernel)

end WzonePortal
