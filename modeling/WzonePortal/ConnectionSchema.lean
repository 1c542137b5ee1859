import WzonePortal.Bootstrap
import WzonePortal.CollectionWorld
import WzonePortal.CredentialCipher
import WzonePortal.ReaderChecks

/-! A connection from the request body to its row and back. The three schemas of the request,
the rules of the domain and the text columns of the row are written separately; every body that
the schemas accept passes the rules and is read back from its row as it was accepted. -/
namespace WzonePortal

def Protocol.value : Protocol → String
  | .http => "http"
  | .https => "https"

def ConnectionStatus.value : ConnectionStatus → String
  | .active => "active"
  | .inactive => "inactive"
  | .credentialError => "credential_error"
  | .permissionError => "permission_error"
  | .unreachable => "unreachable"
  | .collectionError => "collection_error"

def ConnectionKind.ofValue (text : String) : Option ConnectionKind :=
  [.vcenter,.hypervHost,.hypervCluster,.scvmm].find? fun k => k.value = text

def WinRmAuth.ofValue (text : String) : Option WinRmAuth :=
  [.ntlm,.kerberos,.credssp].find? fun a => a.value = text

def Protocol.ofValue (text : String) : Option Protocol :=
  [.http,.https].find? fun p => p.value = text

def ConnectionStatus.ofValue (text : String) : Option ConnectionStatus :=
  [.active,.inactive,.credentialError,.permissionError,.unreachable,.collectionError].find?
    fun s => s.value = text

/-- How the platform reads the values of a request body. -/
structure FieldReader (α : Type) where
  isNull : α → Bool
  str : α → Option String
  int : α → Option ℤ
  bool : α → Option Bool

/-- Whitespace and addresses, as the platform knows them. -/
structure AddressRules where
  isSpace : Char → Bool
  isValidIp : String → Bool

namespace AddressRules

def strip (rules : AddressRules) (text : String) : String :=
  String.ofList ((text.toList.dropWhile rules.isSpace).reverse.dropWhile rules.isSpace).reverse

def isAlnum (c : Char) : Bool :=
  ('a' ≤ c && c ≤ 'z') || ('A' ≤ c && c ≤ 'Z') || ('0' ≤ c && c ≤ '9')

def isLabel (label : List Char) : Bool :=
  label.length ≤ 63 && label.all (fun c => isAlnum c || c = '-') &&
    label.head?.any isAlnum && label.getLast?.any isAlnum

def isValidHostname (text : String) : Bool :=
  text.length ≤ 253 && (splitAt '.' text.toList).all isLabel

def isValidAddress (rules : AddressRules) (text : String) : Bool :=
  isValidHostname text || rules.isValidIp text

end AddressRules

abbrev BoundedText (lo hi : ℕ) := {text : String // lo ≤ text.length ∧ text.length ≤ hi}

abbrev Secret := {text : String // 1 ≤ text.length}

abbrev Port := {n : ℤ // 1 ≤ n ∧ n ≤ 65535}

structure ConnectionCreateBase (rules : AddressRules) where
  displayName : BoundedText 1 100
  address : {text : String // rules.isValidAddress text = true}
  username : BoundedText 1 255
  password : Secret
  verifyTls : Bool

/-- The request body after validation, one case for each of the three schemas. -/
inductive ConnectionCreate (rules : AddressRules)
  | vcenter (base : ConnectionCreateBase rules) (port : Port)
  | hyperv (base : ConnectionCreateBase rules)
    (kind : {kind : ConnectionKind // kind = .hypervHost ∨ kind = .hypervCluster}) (port : Port)
    (protocol : Protocol) (authMethod : WinRmAuth)
    (sessionConfiguration : Option (BoundedText 0 100))
  | scvmm (base : ConnectionCreateBase rules) (port : Port) (protocol : Protocol)
    (authMethod : WinRmAuth)

namespace ConnectionCreate

section
variable {rules : AddressRules}

def base : ConnectionCreate rules → ConnectionCreateBase rules
  | .vcenter base _ => base
  | .hyperv base _ _ _ _ _ => base
  | .scvmm base _ _ _ => base

def kind : ConnectionCreate rules → ConnectionKind
  | .vcenter _ _ => .vcenter
  | .hyperv _ kind _ _ _ _ => kind.val
  | .scvmm _ _ _ _ => .scvmm

def port : ConnectionCreate rules → Port
  | .vcenter _ port => port
  | .hyperv _ _ port _ _ _ => port
  | .scvmm _ port _ _ => port

/-- `getattr(payload, "protocol", "https")`. -/
def protocol : ConnectionCreate rules → Protocol
  | .vcenter _ _ => .https
  | .hyperv _ _ _ protocol _ _ => protocol
  | .scvmm _ _ protocol _ => protocol

def authMethod : ConnectionCreate rules → Option WinRmAuth
  | .vcenter _ _ => none
  | .hyperv _ _ _ _ authMethod _ => some authMethod
  | .scvmm _ _ _ authMethod => some authMethod

def sessionConfiguration : ConnectionCreate rules → Option String
  | .hyperv _ _ _ _ _ sessionConfiguration => sessionConfiguration.map (·.val)
  | .vcenter _ _ => none
  | .scvmm _ _ _ _ => none

end

section
variable {α : Type} (rules : AddressRules) (read : FieldReader α) (body : String → Option α)

def strField (name : String) : Option String := (body name).bind read.str

def textField (lo hi : ℕ) (name : String) : Option (BoundedText lo hi) :=
  (strField read body name).bind fun text =>
    if h : lo ≤ text.length ∧ text.length ≤ hi then some ⟨text,h⟩ else none

def passwordField : Option Secret :=
  (strField read body "password").bind fun text =>
    if h : 1 ≤ text.length then some ⟨text,h⟩ else none

/-- The length is checked before the spaces are removed. -/
def addressField : Option {text : String // rules.isValidAddress text = true} :=
  (textField read body 1 255 "address").bind fun text =>
    if h : rules.isValidAddress (rules.strip text.val) = true then
      some ⟨rules.strip text.val,h⟩ else none

def verifyTlsField : Option Bool :=
  match body "verify_tls" with
  | none => some true
  | some value => read.bool value

def portField (default : Port) : Option Port :=
  match body "port" with
  | none => some default
  | some value => (read.int value).bind fun n =>
    if h : 1 ≤ n ∧ n ≤ 65535 then some ⟨n,h⟩ else none

def protocolField : Option Protocol :=
  match body "protocol" with
  | none => some .https
  | some value => (read.str value).bind Protocol.ofValue

def authMethodField : Option WinRmAuth := (strField read body "auth_method").bind WinRmAuth.ofValue

def sessionConfigurationField : Option (Option (BoundedText 0 100)) :=
  match body "session_configuration" with
  | none => some none
  | some value =>
    if read.isNull value then some none
    else (textField read body 0 100 "session_configuration").map some

def baseFields : Option (ConnectionCreateBase rules) := do
  let displayName ← textField read body 1 100 "display_name"
  let address ← addressField rules read body
  let username ← textField read body 1 255 "username"
  let password ← passwordField read body
  let verifyTls ← verifyTlsField read body
  pure ⟨displayName,address,username,password,verifyTls⟩

/-- The union: `kind` has to be there and selects the schema. -/
def ofBody : Option (ConnectionCreate rules) := do
  let kind ← (strField read body "kind").bind ConnectionKind.ofValue
  let base ← baseFields rules read body
  match kind with
  | .vcenter => do
    let port ← portField read body ⟨443,by decide⟩
    pure (.vcenter base port)
  | .hypervHost => do
    let port ← portField read body ⟨5986,by decide⟩
    let protocol ← protocolField read body
    let authMethod ← authMethodField read body
    let sessionConfiguration ← sessionConfigurationField read body
    pure (.hyperv base ⟨.hypervHost,.inl rfl⟩ port protocol authMethod sessionConfiguration)
  | .hypervCluster => do
    let port ← portField read body ⟨5986,by decide⟩
    let protocol ← protocolField read body
    let authMethod ← authMethodField read body
    let sessionConfiguration ← sessionConfigurationField read body
    pure (.hyperv base ⟨.hypervCluster,.inr rfl⟩ port protocol authMethod sessionConfiguration)
  | .scvmm => do
    let port ← portField read body ⟨5986,by decide⟩
    let protocol ← protocolField read body
    let authMethod ← authMethodField read body
    pure (.scvmm base port protocol authMethod)

end

/-- `_to_input`. -/
def toInput {rules : AddressRules} (payload : ConnectionCreate rules) : ConnectionCreateInput where
  displayName := payload.base.displayName.val
  address := payload.base.address.val
  port := payload.port.val
  username := payload.base.username.val
  password := payload.base.password.val
  verifyTls := payload.base.verifyTls
  kind := payload.kind
  protocol := payload.protocol.value
  authMethod := payload.authMethod
  sessionConfiguration := payload.sessionConfiguration

end ConnectionCreate

/-- A row of `connections` as the columns hold it: the enumerations are texts. -/
structure ConnectionColumns where
  connectionId : UUID
  kind : String
  displayName : String
  address : String
  port : ℤ
  username : String
  passwordEncrypted : String
  verifyTls : Bool
  protocol : String
  authMethod : Option String
  sessionConfiguration : Option String
  status : String
  lastAttemptAt : Option Timestamp := none
  lastSuccessAt : Option Timestamp := none
  lastError : Option String := none
  createdAt : Timestamp
  updatedAt : Timestamp

def ConnectionRow.columns (row : ConnectionRow) : ConnectionColumns where
  connectionId := row.connectionId
  kind := row.kind.value
  displayName := row.displayName
  address := row.address
  port := row.port
  username := row.username
  passwordEncrypted := row.passwordEncrypted
  verifyTls := row.verifyTls
  protocol := row.protocol.value
  authMethod := row.authMethod.map WinRmAuth.value
  sessionConfiguration := row.sessionConfiguration
  status := row.status.value
  lastAttemptAt := row.lastAttemptAt
  lastSuccessAt := row.lastSuccessAt
  lastError := row.lastError
  createdAt := row.createdAt
  updatedAt := row.updatedAt

namespace ConnectionRepository

def enumOf {α : Type} (typeName text : String) : Option α → Except Raised α
  | some a => .ok a
  | none => .error (.other "ValueError" ("'" ++ text ++ "' is not a valid " ++ typeName))

/-- `WinRmAuth(row.auth_method) if row.auth_method else None`. -/
def authMethodOf (column : Option String) : Except Raised (Option WinRmAuth) :=
  match column.filter (· ≠ "") with
  | some text => some <$> enumOf "WinRmAuth" text (WinRmAuth.ofValue text)
  | none => .ok none

def protocolOf (column : String) : Protocol := if column = "http" then .http else .https

/-- `_to_domain`. -/
def ofColumns (columns : ConnectionColumns) : Except Raised Connection := do
  let kind ← enumOf "ConnectionKind" columns.kind (ConnectionKind.ofValue columns.kind)
  let authMethod ← authMethodOf columns.authMethod
  let status ← enumOf "ConnectionStatus" columns.status (ConnectionStatus.ofValue columns.status)
  pure {
    connectionId := columns.connectionId
    kind := kind
    displayName := columns.displayName
    address := columns.address
    port := columns.port
    username := columns.username
    password := ""
    protocol := protocolOf columns.protocol
    authMethod := authMethod
    sessionConfiguration := columns.sessionConfiguration
    verifyTls := columns.verifyTls
    status := status
    lastSuccessAt := columns.lastSuccessAt
    lastAttemptAt := columns.lastAttemptAt
    lastError := columns.lastError }

/-- `load_with_password`, from the columns. -/
def loadFromColumns (decrypt : String → Except Raised String) (connectionId : UUID)
    (db : Database) : Except Raised (Option Connection) :=
  match (db.connections.find? connectionId).map ConnectionRow.columns with
  | none => .ok none
  | some columns => do
    let conn ← ofColumns columns
    let password ← decrypt columns.passwordEncrypted
    pure (some { conn with password := password })

end ConnectionRepository

section
variable {db db' : Database} {dbms : Dbms}

theorem ConnectionKind.ofValue_value (kind : ConnectionKind) : ofValue kind.value = some kind := by
  cases kind <;> rfl

theorem ConnectionStatus.ofValue_value (status : ConnectionStatus) :
    ofValue status.value = some status := by
  cases status <;> rfl

namespace ConnectionRepository

theorem protocolOf_value (protocol : Protocol) : protocolOf protocol.value = protocol := by
  cases protocol <;> rfl

theorem authMethodOf_value (authMethod : Option WinRmAuth) :
    authMethodOf (authMethod.map WinRmAuth.value) = .ok authMethod := by
  rcases authMethod with _ | authMethod
  · rfl
  · cases authMethod <;> rfl

theorem ofColumns_columns (row : ConnectionRow) : ofColumns row.columns = .ok (toDomain row) := by
  unfold ofColumns
  simp only [ConnectionRow.columns,ConnectionKind.ofValue_value,ConnectionStatus.ofValue_value,
    authMethodOf_value,protocolOf_value,enumOf]
  rfl

theorem loadFromColumns_eq (decrypt : String → Except Raised String) (connectionId : UUID)
    (db : Database) :
    loadFromColumns decrypt connectionId db = loadWithPassword decrypt connectionId db := by
  unfold loadFromColumns loadWithPassword
  cases db.connections.find? connectionId with
  | none => rfl
  | some row =>
    simp only [Option.map_some,ofColumns_columns]
    change (decrypt row.passwordEncrypted >>= fun password =>
      pure (some { toDomain row with password := password })) = _
    cases decrypt row.passwordEncrypted <;> rfl

end ConnectionRepository

namespace ConnectionCreate

variable {α : Type} {rules : AddressRules} {read : FieldReader α} {body : String → Option α}
  {created : ConnectionCreate rules}

/-- No text of the body has U+0000. -/
def NulFree (read : FieldReader α) (body : String → Option α) : Prop :=
  ∀ name value text, body name = some value → read.str value = some text → storable text = true

theorem storable_strip {text : String} (h : storable text = true) :
    storable (rules.strip text) = true := by
  have htext : '\x00' ∉ text.toList := of_decide_eq_true h
  refine decide_eq_true fun hmem => htext ?_
  rw [AddressRules.strip,String.toList_ofList,List.mem_reverse] at hmem
  exact List.dropWhile_subset _ (List.mem_reverse.mp (List.dropWhile_subset _ hmem))

theorem storable_strField (hnul : NulFree read body) {name text : String}
    (h : strField read body name = some text) : storable text = true := by
  obtain ⟨value,hvalue,htext⟩ := Option.bind_eq_some_iff.mp h
  exact hnul name value text hvalue htext

theorem storable_textField (hnul : NulFree read body) {lo hi : ℕ} {name : String}
    {text : BoundedText lo hi} (h : textField read body lo hi name = some text) :
    storable text.val = true := by
  obtain ⟨raw,hraw,htext⟩ := Option.bind_eq_some_iff.mp h
  split_ifs at htext
  cases htext
  exact storable_strField hnul hraw

theorem storable_addressField (hnul : NulFree read body)
    {address : {text : String // rules.isValidAddress text = true}}
    (h : addressField rules read body = some address) : storable address.val = true := by
  obtain ⟨raw,hraw,haddress⟩ := Option.bind_eq_some_iff.mp h
  split_ifs at haddress
  cases haddress
  exact storable_strip (storable_textField hnul hraw)

theorem storable_baseFields (hnul : NulFree read body) {base : ConnectionCreateBase rules}
    (h : baseFields rules read body = some base) :
    storable base.displayName.val = true ∧ storable base.address.val = true ∧
      storable base.username.val = true := by
  unfold baseFields at h
  simp only [Option.bind_eq_bind,Option.bind_eq_some_iff] at h
  obtain ⟨displayName,hname,address,haddress,username,husername,password,-,verifyTls,-,h⟩ := h
  cases h
  exact ⟨storable_textField hnul hname,storable_addressField hnul haddress,
    storable_textField hnul husername⟩

theorem storable_sessionConfigurationField (hnul : NulFree read body)
    {configuration : Option (BoundedText 0 100)}
    (h : sessionConfigurationField read body = some configuration) :
    (configuration.map (·.val)).all storable = true := by
  unfold sessionConfigurationField at h
  split at h
  · cases h
    rfl
  · split_ifs at h
    · cases h
      rfl
    · obtain ⟨text,htext,rfl⟩ := Option.map_eq_some_iff.mp h
      exact storable_textField hnul htext

/-- Whatever the schemas accept can be stored. -/
theorem storable_ofBody (hnul : NulFree read body)
    (h : ofBody rules read body = some created) :
    (storable created.base.displayName.val = true ∧ storable created.base.address.val = true ∧
      storable created.base.username.val = true) ∧
      created.sessionConfiguration.all storable = true := by
  unfold ofBody at h
  simp only [Option.bind_eq_bind,Option.bind_eq_some_iff] at h
  obtain ⟨kind,-,base,hbase,h⟩ := h
  have hstorable := storable_baseFields hnul hbase
  cases kind with
  | vcenter =>
    simp only [Option.bind_eq_some_iff] at h
    obtain ⟨port,-,h⟩ := h
    cases h
    exact ⟨hstorable,rfl⟩
  | hypervHost =>
    simp only [Option.bind_eq_some_iff] at h
    obtain ⟨port,-,protocol,-,authMethod,-,configuration,hconfiguration,h⟩ := h
    cases h
    exact ⟨hstorable,storable_sessionConfigurationField hnul hconfiguration⟩
  | hypervCluster =>
    simp only [Option.bind_eq_some_iff] at h
    obtain ⟨port,-,protocol,-,authMethod,-,configuration,hconfiguration,h⟩ := h
    cases h
    exact ⟨hstorable,storable_sessionConfigurationField hnul hconfiguration⟩
  | scvmm =>
    simp only [Option.bind_eq_some_iff] at h
    obtain ⟨port,-,protocol,-,authMethod,-,h⟩ := h
    cases h
    exact ⟨hstorable,rfl⟩

theorem validate_toConnection (ctx : Context) (created : ConnectionCreate rules) :
    (ConnectionService.toConnection ctx created.toInput).validate = .ok () := by
  have hport : 1 ≤ (ConnectionService.toConnection ctx created.toInput).port ∧
      (ConnectionService.toConnection ctx created.toInput).port ≤ 65535 := created.port.property
  unfold Connection.validate
  rw [if_neg (not_not.mpr hport)]
  cases created with
  | vcenter base port => rfl
  | hyperv base kind port protocol authMethod configuration =>
    obtain ⟨kind,rfl | rfl⟩ := kind <;> cases configuration <;> rfl
  | scvmm base port protocol authMethod => rfl

end ConnectionCreate

/-- A connection with every value of the accepted body. -/
structure Agrees {rules : AddressRules} (created : ConnectionCreate rules) (conn : Connection) :
    Prop where
  kind : conn.kind = created.kind
  displayName : conn.displayName = created.base.displayName.val
  address : conn.address = created.base.address.val
  port : conn.port = created.port.val
  username : conn.username = created.base.username.val
  protocol : conn.protocol = created.protocol
  authMethod : conn.authMethod = created.authMethod
  sessionConfiguration : conn.sessionConfiguration = created.sessionConfiguration
  verifyTls : conn.verifyTls = created.base.verifyTls
  password : conn.password = created.base.password.val

theorem toConnection_agrees (ctx : Context) {rules : AddressRules}
    (created : ConnectionCreate rules) :
    Agrees created (ConnectionService.toConnection ctx created.toInput) := by
  refine ⟨rfl,rfl,rfl,rfl,rfl,?_,rfl,rfl,rfl,rfl⟩
  change (if created.protocol.value = "http" then Protocol.http else .https) = created.protocol
  cases created.protocol <;> rfl

theorem storable_token {aesgcm : Aesgcm} {keys : EnvKeyProvider} {nonce : CredentialCipher.Nonce}
    {password token : String}
    (h : CredentialCipher.encrypt aesgcm keys nonce password = .ok token) :
    storable token = true :=
  decide_eq_true fun hmem => absurd (CredentialCipher.le_toNat_of_mem_token h hmem) (by decide)

theorem insertConnection_isOk {row : ConnectionRow} (hstorable : row.storable = true)
    (hid : db.connections.find? row.connectionId = none)
    (htarget : ∀ r ∈ db.connections.rows, ¬ (r.address = row.address ∧ r.username = row.username)) :
    ∃ db', (Write.insertConnection row).apply dbms db = .ok db' := by
  have hany : ¬ (db.connections.rows.any
      fun r => r.address = row.address && r.username = row.username) = true := by
    simpa using htarget
  have hkey : row.connectionId ∉ db.connections.rows.map ConnectionRow.connectionId := by
    simpa using (Table.find?_eq_none _ _).mp hid
  obtain ⟨connections,hconnections,-⟩ := Table.insert_isSome hkey
  refine ⟨{ db with connections := connections },?_⟩
  simp only [Write.apply,hstorable,hconnections,if_neg hany]
  rfl

theorem loadFromColumns_insertConnection {decrypt : String → Except Raised String}
    {row : ConnectionRow} (password : String)
    (h : (Write.insertConnection row).apply dbms db = .ok db')
    (hdecrypt : decrypt row.passwordEncrypted = .ok password) :
    ConnectionRepository.loadFromColumns decrypt row.connectionId db' =
      .ok (some { ConnectionRepository.toDomain row with password := password }) := by
  obtain ⟨connections,hinsert,rfl⟩ := Write.apply_insertConnection h
  rw [ConnectionRepository.loadFromColumns_eq,ConnectionRepository.loadWithPassword]
  simp only [Table.find?_insert hinsert,if_true,hdecrypt]

end

/-- Every accepted body passes the domain rules, is stored where its identifier and its target are
free, and is read back from the columns of its row as it was accepted. -/
theorem accepted_connection_loads_back {α : Type} (rules : AddressRules) (read : FieldReader α)
    (body : String → Option α) (created : ConnectionCreate rules)
    (haccepted : ConnectionCreate.ofBody rules read body = some created)
    (hnul : ConnectionCreate.NulFree read body) (aesgcm : Aesgcm)
    (haesgcm : aesgcm.DecryptInvertsEncrypt) (toAscii : Char → Char) (keys : EnvKeyProvider)
    (nonce : CredentialCipher.Nonce) (token : String)
    (htoken : CredentialCipher.encrypt aesgcm keys nonce created.base.password.val = .ok token)
    (raised : CipherExc → Raised) (ctx : Context) (dbms : Dbms) (db : Database) (conn : Connection)
    (hconn : conn = ConnectionService.toConnection ctx created.toInput) :
    conn.validate = .ok () ∧
    (db.connections.find? conn.connectionId = none →
      (∀ r ∈ db.connections.rows, ¬ (r.address = conn.address ∧ r.username = conn.username)) →
      ∃ db', (Write.insertConnection (ConnectionRepository.toRow ctx.now conn token)).apply dbms
        db = .ok db') ∧
    ∀ db', (Write.insertConnection (ConnectionRepository.toRow ctx.now conn token)).apply dbms
        db = .ok db' →
      ∃ loaded, ConnectionRepository.loadFromColumns
          (fun stored => (CredentialCipher.decrypt aesgcm toAscii keys stored).mapError raised)
          conn.connectionId db' = .ok (some loaded) ∧ Agrees created loaded := by
  subst hconn
  have hagrees := toConnection_agrees ctx created
  obtain ⟨⟨hname,haddress,husername⟩,hconfiguration⟩ :=
    ConnectionCreate.storable_ofBody hnul haccepted
  have hdecrypt : CredentialCipher.decrypt aesgcm toAscii keys token =
      .ok created.base.password.val :=
    CredentialCipher.decrypt_encrypt haesgcm (fun _ hkey => hkey) htoken
  refine ⟨ConnectionCreate.validate_toConnection ctx created,fun hid htarget => ?_,
    fun db' happly => ?_⟩
  · refine insertConnection_isOk ?_ hid htarget
    simp only [ConnectionRow.storable,Bool.and_eq_true]
    exact ⟨⟨⟨⟨hname,haddress⟩,husername⟩,storable_token htoken⟩,hconfiguration⟩
  · refine ⟨_,loadFromColumns_insertConnection created.base.password.val happly ?_,
      hagrees.kind,hagrees.displayName,hagrees.address,hagrees.port,hagrees.username,
      hagrees.protocol,hagrees.authMethod,hagrees.sessionConfiguration,hagrees.verifyTls,rfl⟩
    change (CredentialCipher.decrypt aesgcm toAscii keys token).mapError raised = _
    rw [hdecrypt]
    rfl

/-- The values of the concrete body. -/
inductive BodyValue
  | null
  | bool (b : Bool)
  | int (n : ℤ)
  | str (text : String)

def readBodyValue : FieldReader BodyValue where
  isNull
    | .null => true
    | _ => false
  str
    | .str text => some text
    | _ => none
  int
    | .int n => some n
    | _ => none
  bool
    | .bool b => some b
    | _ => none

/-- A cluster with spaces around its address and neither a port nor a protocol. -/
def clusterFields : List (String × BodyValue) :=
  [("kind",.str "hyperv-cluster"),("display_name",.str "cl"),("address",.str " hv.local "),
    ("username",.str "reader"),("password",.str "SuperSecret!234"),("verify_tls",.bool false),
    ("auth_method",.str "kerberos"),("session_configuration",.null)]

def clusterBody (name : String) : Option BodyValue := clusterFields.lookup name

def plainRules : AddressRules where
  isSpace := (· = ' ')
  isValidIp := fun _ => false

def clusterCreated : ConnectionCreate plainRules :=
  .hyperv ⟨⟨"cl",by decide⟩,⟨"hv.local",by decide⟩,⟨"reader",by decide⟩,
    ⟨"SuperSecret!234",by decide⟩,false⟩ ⟨.hypervCluster,.inr rfl⟩ ⟨5986,by decide⟩ .https .kerberos
    none

theorem clusterBody_accepted :
    ConnectionCreate.ofBody plainRules readBodyValue clusterBody = some clusterCreated := rfl

theorem clusterBody_nulFree : ConnectionCreate.NulFree readBodyValue clusterBody := by
  intro name value text hvalue htext
  have hall : ∀ entry ∈ clusterFields, ∀ text, readBodyValue.str entry.2 = some text →
      storable text = true := by
    simp [clusterFields,readBodyValue,storable]
  obtain ⟨before,after,hfields,-⟩ := List.lookup_eq_some_iff.mp hvalue
  exact hall (name,value) (by rw [hfields]; simp) text htext

/-- The cluster is stored in the database of the concrete runs and read back. -/
theorem accepted_cluster_loads_back : ∃ db' loaded,
    (Write.insertConnection (ConnectionRepository.toRow 20 (ConnectionService.toConnection
      (contextOf 1 8 20) clusterCreated.toInput) recordedToken)).apply .lenient rootDatabase =
      .ok db' ∧
    ConnectionRepository.loadFromColumns (fun stored => (CredentialCipher.decrypt recordedAesgcm id
      firstProvider stored).mapError fun _ => .other "" "") 8 db' = .ok (some loaded) ∧
    Agrees clusterCreated loaded := by
  obtain ⟨-,hinsert,hload⟩ := accepted_connection_loads_back plainRules readBodyValue clusterBody
    clusterCreated clusterBody_accepted clusterBody_nulFree recordedAesgcm
    recordedAesgcm_decryptInvertsEncrypt id firstProvider recordedNonce recordedToken
    encrypt_recorded (fun _ => .other "" "") (contextOf 1 8 20) .lenient rootDatabase _ rfl
  obtain ⟨db',happly⟩ := hinsert rfl fun r hr => by cases hr
  obtain ⟨loaded,hloaded,hagrees⟩ := hload db' happly
  exact ⟨db',loaded,happly,hloaded,hagrees⟩

end WzonePortal
