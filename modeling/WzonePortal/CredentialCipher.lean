import WzonePortal.Base64
import WzonePortal.Password

/-! The keys from the environment and the credential cipher. A token names the version of its
key, so that a password outlives the key it was encrypted with. -/
namespace WzonePortal

def intMaxStrDigits : ℕ := 4300

/-- `str` of an integer; too many digits are refused. -/
def strOfInt (n : ℤ) : Option (List Char) :=
  let digits := Nat.toDigits 10 n.natAbs
  if intMaxStrDigits < digits.length then none
  else some (if n < 0 then '-'::digits else digits)

/-- `int` of a text. `toAscii` maps the decimal digits and spaces beyond ASCII into it. -/
def intOfStr (toAscii : Char → Char) (text : List Char) : Option ℤ :=
  let text := if text.all (·.toNat < 128) then text else text.map toAscii
  if intMaxStrDigits < text.countP Char.isDigit then none else readInt text

/-- `str.split` with at most `n` cuts. -/
def splitMax (sep : Char) : ℕ → List Char → List (List Char)
  | 0, cs => [cs]
  | n+1, cs => match cs.dropWhile (· ≠ sep) with
    | [] => [cs]
    | _::rest => cs.takeWhile (· ≠ sep)::splitMax sep n rest

/-- The exceptions of the key provider and the cipher. -/
inductive CipherExc
  | invalidKey (message : String)
  | valueError
  | keyError (message : String)
  | invalidTag
  | overflowError
  | unicodeDecodeError
  | portalError (message : String)
  deriving DecidableEq, Repr

def keySize : ℕ := 32

abbrev Key := {bytes : List UInt8 // bytes.length = keySize}

structure KeySettings where
  credentialEncryptionKey : String
  credentialKeyVersion : ℤ := 1
  credentialLegacyKeys : List (String × String) := []

def asciiBytes (text : List Char) : Option (List Char) :=
  if text.all (·.toNat < 128) then some text else none

def decodeKey (raw : String) : Except CipherExc Key :=
  match (asciiBytes raw.toList).bind (Base64.decode true) with
  | none => .error (.invalidKey "암호화 키는 base64 문자열이어야 합니다.")
  | some key =>
    if h : key.length = keySize then .ok ⟨key,h⟩
    else .error (.invalidKey "암호화 키는 32바이트(base64)여야 합니다.")

/-- The keys by version; of two entries with one version the first one counts. -/
structure EnvKeyProvider where
  keys : List (ℤ × Key)
  currentVersion : ℤ

namespace EnvKeyProvider

def addLegacyKeys (toAscii : Char → Char) :
    List (String × String) → List (ℤ × Key) → Except CipherExc (List (ℤ × Key))
  | [], keys => .ok keys
  | (version,raw)::legacy, keys => do
    let key ← decodeKey raw
    match intOfStr toAscii version.toList with
    | none => throw .valueError
    | some version => addLegacyKeys toAscii legacy ((version,key)::keys)

def init (toAscii : Char → Char) (settings : KeySettings) : Except CipherExc EnvKeyProvider := do
  let current ← decodeKey settings.credentialEncryptionKey
  let keys ← addLegacyKeys toAscii settings.credentialLegacyKeys
    [(settings.credentialKeyVersion,current)]
  pure ⟨keys,settings.credentialKeyVersion⟩

def getKey (provider : EnvKeyProvider) (version : ℤ) : Except CipherExc Key :=
  match provider.keys.lookup version with
  | some key => .ok key
  | none => .error (.keyError ("키 버전 " ++ toString version ++ "을 찾을 수 없습니다."))

end EnvKeyProvider

/-- AES-GCM without associated data. -/
structure Aesgcm where
  encrypt : Key → List UInt8 → List UInt8 → Except CipherExc (List UInt8)
  decrypt : Key → List UInt8 → List UInt8 → Except CipherExc (List UInt8)

def Aesgcm.DecryptInvertsEncrypt (aesgcm : Aesgcm) : Prop :=
  ∀ key nonce data ct, aesgcm.encrypt key nonce data = .ok ct →
    aesgcm.decrypt key nonce ct = .ok data

namespace CredentialCipher

def nonceSize : ℕ := 12

abbrev Nonce := {bytes : List UInt8 // bytes.length = nonceSize}

def b64 (raw : List UInt8) : List Char := Base64.urlsafeEncode raw

def unb64 (text : List Char) : Option (List UInt8) :=
  (asciiBytes text).bind Base64.urlsafeDecode

def joinToken (version nonce ct : List Char) : String :=
  String.ofList (version ++ '$'::(nonce ++ '$'::ct))

def orValueError {α : Type} : Option α → Except CipherExc α
  | some a => .ok a
  | none => .error .valueError

section
variable (aesgcm : Aesgcm) (toAscii : Char → Char) (keys : EnvKeyProvider)

def encrypt (nonce : Nonce) (plaintext : String) : Except CipherExc String := do
  let key ← keys.getKey keys.currentVersion
  let ct ← aesgcm.encrypt key nonce.val plaintext.toByteArray.data.toList
  let version ← orValueError (strOfInt keys.currentVersion)
  pure (joinToken version (b64 nonce.val) (b64 ct))

/-- The part of `decrypt` inside its `try`. -/
def openToken (stored : String) : Except CipherExc (List UInt8) :=
  match splitMax '$' 2 stored.toList with
  | [version,nonce,ct] => do
    let version ← orValueError (intOfStr toAscii version)
    let key ← keys.getKey version
    let nonce ← orValueError (unb64 nonce)
    let ct ← orValueError (unb64 ct)
    aesgcm.decrypt key nonce ct
  | _ => .error .valueError

def isCaught : CipherExc → Bool
  | .invalidKey _ | .valueError | .keyError _ | .invalidTag => true
  | .overflowError | .unicodeDecodeError | .portalError _ => false

def decrypt (stored : String) : Except CipherExc String :=
  match openToken aesgcm toAscii keys stored with
  | .ok plain => match String.fromUTF8? ⟨plain.toArray⟩ with
    | some password => .ok password
    | none => .error .unicodeDecodeError
  | .error e =>
    if isCaught e then .error (.portalError "자격증명을 복호화할 수 없습니다.") else .error e

def needsRotation (stored : String) : Bool :=
  match (splitMax '$' 1 stored.toList).head?.bind (intOfStr toAscii) with
  | some version => version ≠ keys.currentVersion
  | none => true

end
end CredentialCipher

section
variable {toAscii : Char → Char}

theorem isDigit_toDigits {n : ℕ} {c : Char} (hc : c ∈ Nat.toDigits 10 n) : c.isDigit = true :=
  Nat.isDigit_of_mem_toDigits (by decide) (by decide) hc

theorem readDigits_eq (ds : List Char) (hds : ∀ c ∈ ds, c.isDigit = true) (acc : ℕ) :
    readDigits true acc ds = some ((Nat.ofDigitChars 10 ds acc : ℕ) : ℤ) := by
  induction ds generalizing acc with
  | nil => simp [readDigits]
  | cons d ds ih =>
    have hd := Char.isDigit_iff_toNat.mp (hds d List.mem_cons_self)
    have hle : '0' ≤ d ∧ d ≤ '9' := ⟨hd.1,hd.2⟩
    have hsub : ((d.toNat : ℤ) - 48) = ((d.toNat - '0'.toNat : ℕ) : ℤ) := by
      have h0 : '0'.toNat = 48 := rfl
      omega
    rw [readDigits,if_pos hle,Nat.ofDigitChars_cons,
      ← ih (fun c hc => hds c (List.mem_cons_of_mem _ hc)),hsub]
    push_cast
    rfl

theorem readDigits_toDigits (n : ℕ) : readDigits false 0 (Nat.toDigits 10 n) = some (n : ℤ) := by
  have hread := readDigits_eq (Nat.toDigits 10 n) (fun _ hc => isDigit_toDigits hc) 0
  rw [Nat.ofDigitChars_ten_toDigits] at hread
  rw [← Nat.cast_zero,← hread]
  cases h : Nat.toDigits 10 n with
  | nil => exact absurd h Nat.toDigits_ne_nil
  | cons d ds =>
    have hd := Char.isDigit_iff_toNat.mp (isDigit_toDigits (n := n) (h ▸ List.mem_cons_self))
    have hle : '0' ≤ d ∧ d ≤ '9' := ⟨hd.1,hd.2⟩
    rw [readDigits,readDigits,if_pos hle,if_pos hle]

theorem strip_eq_self {text : List Char} (h : ∀ c ∈ text, isSpace c = false) :
    ((text.dropWhile isSpace).reverse.dropWhile isSpace).reverse = text := by
  have hdrop : ∀ {cs : List Char}, (∀ c ∈ cs, isSpace c = false) → cs.dropWhile isSpace = cs := by
    intro cs hcs
    cases cs with
    | nil => rfl
    | cons c cs => rw [List.dropWhile_cons,hcs c List.mem_cons_self]; rfl
  rw [hdrop h,hdrop fun c hc => h c (List.mem_reverse.mp hc),List.reverse_reverse]

theorem isSpace_of_isDigit {c : Char} (hc : c.isDigit = true) : isSpace c = false := by
  have hd := Char.isDigit_iff_toNat.mp hc
  cases hs : isSpace c with
  | false => rfl
  | true =>
    have hall : ∀ d ∈ [' ','\t','\n','\r','\x0b','\x0c'], d.toNat < '0'.toNat := by simp
    have := hall c (by simpa [isSpace] using hs)
    omega

theorem toNat_of_isDigit {c : Char} (hc : c.isDigit = true) : c.toNat < 128 := by
  have hd := Char.isDigit_iff_toNat.mp hc
  have h9 : '9'.toNat = 57 := rfl
  omega

theorem strOfInt_eq_some {n : ℤ} {text : List Char} (h : strOfInt n = some text) :
    (Nat.toDigits 10 n.natAbs).length ≤ intMaxStrDigits ∧
      text = if n < 0 then '-'::Nat.toDigits 10 n.natAbs else Nat.toDigits 10 n.natAbs := by
  simp only [strOfInt] at h
  split_ifs at h with hlen hneg
  · exact ⟨not_lt.mp hlen,by rw [if_pos hneg,Option.some_inj.mp h]⟩
  · exact ⟨not_lt.mp hlen,by rw [if_neg hneg,Option.some_inj.mp h]⟩

theorem mem_strOfInt {n : ℤ} {text : List Char} (h : strOfInt n = some text) {c : Char}
    (hc : c ∈ text) : c = '-' ∨ c.isDigit = true := by
  rw [(strOfInt_eq_some h).2] at hc
  split at hc
  · rcases List.mem_cons.mp hc with hc | hc
    · exact .inl hc
    · exact .inr (isDigit_toDigits hc)
  · exact .inr (isDigit_toDigits hc)

theorem readInt_strOfInt {n : ℤ} {text : List Char} (h : strOfInt n = some text) :
    readInt text = some n := by
  have hspace : ∀ c ∈ text, isSpace c = false := by
    intro c hc
    rcases mem_strOfInt h hc with rfl | hc
    · decide
    · exact isSpace_of_isDigit hc
  have htext := (strOfInt_eq_some h).2
  have hdigits := readDigits_toDigits n.natAbs
  unfold readInt
  rw [strip_eq_self hspace,htext]
  by_cases hn : n < 0
  · rw [if_pos hn]
    change (readDigits false 0 (Nat.toDigits 10 n.natAbs)).map (fun n => -n) = some n
    rw [hdigits]
    have hneg : -(n.natAbs : ℤ) = n := by omega
    exact congrArg some hneg
  · rw [if_neg hn]
    have hfst : ∀ c ∈ Nat.toDigits 10 n.natAbs, c ≠ '-' ∧ c ≠ '+' := by
      intro c hc
      have hd := isDigit_toDigits hc
      constructor
      · rintro rfl
        cases hd
      · rintro rfl
        cases hd
    have hsome : (n.natAbs : ℤ) = n := by omega
    rw [hsome] at hdigits
    split
    · rename_i cs heq
      exact absurd rfl (hfst '-' (heq ▸ List.mem_cons_self)).1
    · rename_i cs heq
      exact absurd rfl (hfst '+' (heq ▸ List.mem_cons_self)).2
    · exact hdigits

theorem intOfStr_strOfInt {n : ℤ} {text : List Char} (h : strOfInt n = some text) :
    intOfStr toAscii text = some n := by
  have hascii : text.all (·.toNat < 128) = true := by
    refine List.all_eq_true.mpr fun c hc => decide_eq_true ?_
    rcases mem_strOfInt h hc with rfl | hc
    · decide
    · exact toNat_of_isDigit hc
  have hcount : text.countP Char.isDigit ≤ intMaxStrDigits := by
    obtain ⟨hlen,rfl⟩ := strOfInt_eq_some h
    refine le_trans ?_ hlen
    split_ifs
    · rw [List.countP_cons_of_neg (by decide)]
      exact List.countP_le_length
    · exact List.countP_le_length
  unfold intOfStr
  rw [if_pos hascii,if_neg (not_lt.mpr hcount),readInt_strOfInt h]

theorem splitMax_cons {sep : Char} {part : List Char} (h : sep ∉ part) (n : ℕ)
    (rest : List Char) : splitMax sep (n+1) (part ++ sep::rest) = part::splitMax sep n rest := by
  have hpart : ∀ c ∈ part, (decide (c ≠ sep)) = true := fun c hc =>
    decide_eq_true fun hcs => h (hcs ▸ hc)
  rw [splitMax,List.dropWhile_append_of_pos hpart,List.takeWhile_append_of_pos hpart]
  simp

theorem decodeKey_encode (key : Key) :
    decodeKey (String.ofList (Base64.encode key.val)) = .ok key := by
  have hascii : (Base64.encode key.val).all (·.toNat < 128) = true :=
    List.all_eq_true.mpr fun c hc => decide_eq_true (Base64.toNat_of_mem_encode hc)
  rw [decodeKey,String.toList_ofList,asciiBytes,if_pos hascii,Option.bind_some,
    Base64.decode_encode]
  exact dif_pos key.property

/-- A text is the version in a legacy entry. -/
def IsVersion (toAscii : Char → Char) (version : ℤ) (entry : String × String) : Prop :=
  intOfStr toAscii entry.1.toList = some version

/-- The later settings keep the key of the earlier ones: their last legacy entry for its version
holds it. -/
def KeepsKey (toAscii : Char → Char) (earlier later : KeySettings) : Prop :=
  ∀ key, decodeKey earlier.credentialEncryptionKey = .ok key →
    ∃ before entry after, later.credentialLegacyKeys = before ++ entry::after ∧
      IsVersion toAscii earlier.credentialKeyVersion entry ∧ decodeKey entry.2 = .ok key ∧
      ∀ e ∈ after, ¬ IsVersion toAscii earlier.credentialKeyVersion e

/-- A sequence of settings that keeps its keys and never reuses the current version. -/
structure Rotation (toAscii : Char → Char) (configs : List KeySettings) : Prop where
  keeps : configs.Pairwise (KeepsKey toAscii)
  fresh : ∀ c ∈ configs, ∀ entry ∈ c.credentialLegacyKeys,
    ¬ IsVersion toAscii c.credentialKeyVersion entry

namespace EnvKeyProvider

variable {legacy : List (String × String)} {keys all : List (ℤ × Key)} {version : ℤ} {key : Key}

theorem addLegacyKeys_append (before after : List (String × String)) :
    addLegacyKeys toAscii (before ++ after) keys =
      (addLegacyKeys toAscii before keys >>= addLegacyKeys toAscii after) := by
  induction before generalizing keys with
  | nil => rfl
  | cons entry before ih =>
    obtain ⟨name,raw⟩ := entry
    rw [List.cons_append]
    unfold addLegacyKeys
    cases decodeKey raw with
    | error e => rfl
    | ok key =>
      cases intOfStr toAscii name.toList with
      | none => rfl
      | some v => exact ih

theorem addLegacyKeys_cons {entry : String × String}
    (h : addLegacyKeys toAscii (entry::legacy) keys = .ok all) :
    ∃ v key, decodeKey entry.2 = .ok key ∧ IsVersion toAscii v entry ∧
      addLegacyKeys toAscii legacy ((v,key)::keys) = .ok all := by
  obtain ⟨name,raw⟩ := entry
  unfold addLegacyKeys at h
  unfold IsVersion
  cases hraw : decodeKey raw with
  | error e => rw [hraw] at h; cases h
  | ok key =>
    rw [hraw] at h
    cases hname : intOfStr toAscii name.toList with
    | none => simp only [hname] at h; cases h
    | some v => simp only [hname] at h; exact ⟨v,key,rfl,rfl,h⟩

theorem lookup_of_not_isVersion (hlegacy : ∀ e ∈ legacy, ¬ IsVersion toAscii version e)
    (h : addLegacyKeys toAscii legacy keys = .ok all) :
    all.lookup version = keys.lookup version := by
  induction legacy generalizing keys with
  | nil => cases h; rfl
  | cons entry legacy ih =>
    obtain ⟨v,key,-,hv,h⟩ := addLegacyKeys_cons h
    have hne : version ≠ v := by
      rintro rfl
      exact hlegacy entry List.mem_cons_self hv
    rw [ih (fun e he => hlegacy e (List.mem_cons_of_mem _ he)) h,
      List.lookup_cons,beq_false_of_ne hne]

theorem lookup_of_last {before after : List (String × String)} {entry : String × String}
    (hentry : IsVersion toAscii version entry) (hkey : decodeKey entry.2 = .ok key)
    (hafter : ∀ e ∈ after, ¬ IsVersion toAscii version e)
    (h : addLegacyKeys toAscii (before ++ entry::after) keys = .ok all) :
    all.lookup version = some key := by
  rw [addLegacyKeys_append] at h
  cases hbefore : addLegacyKeys toAscii before keys with
  | error e => rw [hbefore] at h; cases h
  | ok keys' =>
    rw [hbefore] at h
    obtain ⟨v,key',hkey',hv,h⟩ := addLegacyKeys_cons h
    obtain rfl : v = version := Option.some_inj.mp (hv.symm.trans hentry)
    obtain rfl : key' = key := Except.ok.inj (hkey'.symm.trans hkey)
    rw [lookup_of_not_isVersion hafter h,List.lookup_cons,beq_self_eq_true]

theorem init_eq_ok {settings : KeySettings} {provider : EnvKeyProvider}
    (h : init toAscii settings = .ok provider) :
    ∃ current, decodeKey settings.credentialEncryptionKey = .ok current ∧
      addLegacyKeys toAscii settings.credentialLegacyKeys
        [(settings.credentialKeyVersion,current)] = .ok provider.keys ∧
      provider.currentVersion = settings.credentialKeyVersion := by
  unfold init at h
  cases hcurrent : decodeKey settings.credentialEncryptionKey with
  | error e => rw [hcurrent] at h; cases h
  | ok current =>
    rw [hcurrent] at h
    cases hkeys : addLegacyKeys toAscii settings.credentialLegacyKeys
        [(settings.credentialKeyVersion,current)] with
    | error e => simp only [hkeys,bind,Except.bind] at h; cases h
    | ok keys =>
      simp only [hkeys,bind,Except.bind] at h
      cases h
      exact ⟨current,rfl,hkeys,rfl⟩

end EnvKeyProvider

/-- The current key of some settings in the rotation is found under its version by these and by
all later ones. -/
theorem Rotation.getKey {configs : List KeySettings} (hrotation : Rotation toAscii configs)
    {i j : ℕ} (hij : i ≤ j) {earlier later : KeySettings} (hi : configs[i]? = some earlier)
    (hj : configs[j]? = some later) {provider : EnvKeyProvider}
    (hlater : EnvKeyProvider.init toAscii later = .ok provider) {key : Key}
    (hkey : decodeKey earlier.credentialEncryptionKey = .ok key) :
    provider.getKey earlier.credentialKeyVersion = .ok key := by
  obtain ⟨current,hcurrent,hkeys,-⟩ := EnvKeyProvider.init_eq_ok hlater
  have hlookup : provider.keys.lookup earlier.credentialKeyVersion = some key := by
    rcases Nat.eq_or_lt_of_le hij with rfl | hij
    · obtain rfl : earlier = later := Option.some_inj.mp (hi.symm.trans hj)
      obtain rfl : current = key := Except.ok.inj (hcurrent.symm.trans hkey)
      rw [EnvKeyProvider.lookup_of_not_isVersion
        (hrotation.fresh earlier (List.mem_of_getElem? hi)) hkeys,List.lookup_cons,
        beq_self_eq_true]
    · obtain ⟨hi',rfl⟩ := List.getElem?_eq_some_iff.mp hi
      obtain ⟨hj',rfl⟩ := List.getElem?_eq_some_iff.mp hj
      obtain ⟨before,entry,after,hlegacy,hentry,hdecode,hafter⟩ :=
        List.pairwise_iff_getElem.mp hrotation.keeps i j hi' hj' hij key hkey
      rw [hlegacy] at hkeys
      exact EnvKeyProvider.lookup_of_last hentry hdecode hafter hkeys
  rw [EnvKeyProvider.getKey,hlookup]

namespace CredentialCipher

variable {aesgcm : Aesgcm} {keys : EnvKeyProvider} {nonce : Nonce} {password token : String}

theorem encrypt_eq_ok (h : encrypt aesgcm keys nonce password = .ok token) :
    ∃ key ct version, keys.getKey keys.currentVersion = .ok key ∧
      aesgcm.encrypt key nonce.val password.toByteArray.data.toList = .ok ct ∧
      strOfInt keys.currentVersion = some version ∧
      token = joinToken version (b64 nonce.val) (b64 ct) := by
  unfold encrypt at h
  cases hkey : keys.getKey keys.currentVersion with
  | error e => rw [hkey] at h; cases h
  | ok key =>
    cases hct : aesgcm.encrypt key nonce.val password.toByteArray.data.toList with
    | error e => simp only [hkey,hct,bind,Except.bind] at h; cases h
    | ok ct =>
      cases hversion : strOfInt keys.currentVersion with
      | none => simp only [hkey,hct,hversion,orValueError,bind,Except.bind] at h; cases h
      | some version =>
        simp only [hkey,hct,hversion,orValueError,bind,Except.bind] at h
        exact ⟨key,ct,version,rfl,hct,rfl,(Except.ok.inj h).symm⟩

theorem not_mem_strOfInt {n : ℤ} {text : List Char} (h : strOfInt n = some text) :
    '$' ∉ text := fun hmem => by
  rcases mem_strOfInt h hmem with hc | hc
  · cases hc
  · cases hc

theorem not_mem_b64 (raw : List UInt8) : '$' ∉ b64 raw := fun h =>
  (Base64.mem_urlsafeEncode h).1 rfl

theorem unb64_b64 (raw : List UInt8) : unb64 (b64 raw) = some raw := by
  have hascii : (b64 raw).all (·.toNat < 128) = true :=
    List.all_eq_true.mpr fun c hc => decide_eq_true (Base64.mem_urlsafeEncode hc).2.2
  rw [unb64,asciiBytes,if_pos hascii]
  exact Base64.urlsafeDecode_urlsafeEncode raw

theorem splitMax_joinToken {n : ℤ} {version : List Char} (h : strOfInt n = some version)
    (raw : List UInt8) (ct : List Char) :
    splitMax '$' 2 (joinToken version (b64 raw) ct).toList = [version,b64 raw,ct] := by
  rw [joinToken,String.toList_ofList,splitMax_cons (not_mem_strOfInt h),
    splitMax_cons (not_mem_b64 raw)]
  rfl

theorem needsRotation_joinToken {n : ℤ} {version : List Char} (h : strOfInt n = some version)
    (raw ct : List Char) :
    needsRotation toAscii keys (joinToken version raw ct) = decide (n ≠ keys.currentVersion) := by
  rw [needsRotation,joinToken,String.toList_ofList,splitMax_cons (not_mem_strOfInt h)]
  simp only [List.head?_cons,Option.bind_some,intOfStr_strOfInt h]

theorem openToken_joinToken {n : ℤ} {version : List Char} (h : strOfInt n = some version)
    {key : Key} (hkey : keys.getKey n = .ok key) (raw ct : List UInt8) :
    openToken aesgcm toAscii keys (joinToken version (b64 raw) (b64 ct)) =
      aesgcm.decrypt key raw ct := by
  rw [openToken,splitMax_joinToken h]
  simp only [intOfStr_strOfInt h,orValueError,hkey,unb64_b64,bind,Except.bind]

theorem fromUTF8?_toByteArray (password : String) :
    String.fromUTF8? ⟨password.toByteArray.data.toList.toArray⟩ = some password := by
  rw [Array.toArray_toList]
  exact dif_pos password.isValidUTF8

theorem decrypt_encrypt (haesgcm : aesgcm.DecryptInvertsEncrypt) {later : EnvKeyProvider}
    (hlater : ∀ key, keys.getKey keys.currentVersion = .ok key →
      later.getKey keys.currentVersion = .ok key)
    (h : encrypt aesgcm keys nonce password = .ok token) :
    decrypt aesgcm toAscii later token = .ok password := by
  obtain ⟨key,ct,version,hkey,hct,htext,rfl⟩ := encrypt_eq_ok h
  rw [decrypt,openToken_joinToken htext (hlater key hkey),haesgcm _ _ _ _ hct]
  simp only [fromUTF8?_toByteArray]

theorem needsRotation_encrypt {later : EnvKeyProvider}
    (h : encrypt aesgcm keys nonce password = .ok token) :
    needsRotation toAscii later token = true ↔ keys.currentVersion ≠ later.currentVersion := by
  obtain ⟨key,ct,version,-,-,htext,rfl⟩ := encrypt_eq_ok h
  rw [needsRotation_joinToken htext,decide_eq_true_iff]

theorem le_toNat_of_mem_token (h : encrypt aesgcm keys nonce password = .ok token) {c : Char}
    (hc : c ∈ token.toList) : 32 ≤ c.toNat := by
  obtain ⟨key,ct,version,-,-,htext,rfl⟩ := encrypt_eq_ok h
  rw [joinToken,String.toList_ofList] at hc
  simp only [List.mem_append,List.mem_cons] at hc
  rcases hc with hc | rfl | hc | rfl | hc
  · rcases mem_strOfInt htext hc with rfl | hc
    · decide
    · have hd := Char.isDigit_iff_toNat.mp hc
      have h0 : '0'.toNat = 48 := rfl
      omega
  · decide
  · exact (Base64.mem_urlsafeEncode hc).2.1
  · decide
  · exact (Base64.mem_urlsafeEncode hc).2.1

end CredentialCipher

/-- A token from any settings of a rotation is decrypted by these and by all later settings, and
only the settings with its version leave it as it is. -/
theorem credentials_survive_rotation (aesgcm : Aesgcm) (haesgcm : aesgcm.DecryptInvertsEncrypt)
    (toAscii : Char → Char) (configs : List KeySettings) (hrotation : Rotation toAscii configs)
    (i j : ℕ) (hij : i ≤ j) (earlier later : KeySettings) (hi : configs[i]? = some earlier)
    (hj : configs[j]? = some later) (before after : EnvKeyProvider)
    (hbefore : EnvKeyProvider.init toAscii earlier = .ok before)
    (hafter : EnvKeyProvider.init toAscii later = .ok after) (nonce : CredentialCipher.Nonce)
    (password token : String)
    (htoken : CredentialCipher.encrypt aesgcm before nonce password = .ok token) :
    CredentialCipher.decrypt aesgcm toAscii after token = .ok password ∧
      (CredentialCipher.needsRotation toAscii after token = true ↔
        before.currentVersion ≠ after.currentVersion) := by
  obtain ⟨current,hcurrent,-,hversion⟩ := EnvKeyProvider.init_eq_ok hbefore
  have hfound := hrotation.getKey (Nat.le_refl i) hi hi hbefore hcurrent
  have hlater := hrotation.getKey hij hi hj hafter hcurrent
  refine ⟨CredentialCipher.decrypt_encrypt haesgcm (fun key hkey => ?_) htoken,
    CredentialCipher.needsRotation_encrypt htoken⟩
  rw [hversion] at hkey ⊢
  obtain rfl : key = current := Except.ok.inj (hkey.symm.trans hfound)
  exact hlater

/-- The one message that the concrete run encrypts, with its key, nonce and ciphertext. -/
def recordedAesgcm : Aesgcm :=
  let key : List UInt8 := List.replicate 32 107
  let nonce : List UInt8 := [0,1,2,3,4,5,6,7,8,9,10,11]
  let data : List UInt8 := [83,117,112,101,114,83,101,99,114,101,116,33,50,51,52]
  let ciphertext : List UInt8 := [57,168,132,75,118,131,227,22,49,254,39,171,86,246,60,25,205,168,
    227,224,250,169,190,176,249,107,243,207,171,186,72]
  { encrypt := fun k n d =>
      if k.val = key ∧ n = nonce ∧ d = data then .ok ciphertext else .error .overflowError
    decrypt := fun k n ct =>
      if k.val = key ∧ n = nonce ∧ ct = ciphertext then .ok data else .error .invalidTag }

theorem recordedAesgcm_decryptInvertsEncrypt : recordedAesgcm.DecryptInvertsEncrypt := by
  intro key nonce data ct h
  simp only [recordedAesgcm] at h ⊢
  split_ifs at h with hmessage
  obtain ⟨hkey,hnonce,rfl⟩ := hmessage
  obtain rfl := Except.ok.inj h
  rw [if_pos ⟨hkey,hnonce,rfl⟩]

def firstKey : Key := ⟨List.replicate 32 107,rfl⟩
def secondKey : Key := ⟨List.replicate 32 109,rfl⟩

def firstProvider : EnvKeyProvider := ⟨[(1,firstKey)],1⟩

def recordedNonce : CredentialCipher.Nonce := ⟨[0,1,2,3,4,5,6,7,8,9,10,11],rfl⟩

def recordedToken : String := "1$AAECAwQFBgcICQoL$OaiES3aD4xYx_ierVvY8Gc2o4-D6qb6w-Wvzz6u6SA=="

theorem encrypt_recorded : CredentialCipher.encrypt recordedAesgcm firstProvider recordedNonce
    "SuperSecret!234" = .ok recordedToken := by
  decide +kernel

def firstSettings : KeySettings where
  credentialEncryptionKey := String.ofList (Base64.encode firstKey.val)

def secondSettings : KeySettings where
  credentialEncryptionKey := String.ofList (Base64.encode secondKey.val)
  credentialKeyVersion := 2
  credentialLegacyKeys := [("1",String.ofList (Base64.encode firstKey.val))]

theorem rotation_sample : Rotation id [firstSettings,secondSettings] := by
  have hversion : intOfStr id "1".toList = some 1 := by decide
  constructor
  · refine List.pairwise_pair.mpr fun key hkey => ?_
    obtain rfl := Except.ok.inj ((decodeKey_encode firstKey).symm.trans hkey)
    exact ⟨[],_,[],rfl,hversion,decodeKey_encode firstKey,by simp⟩
  · intro c hc entry hentry
    rcases List.mem_pair.mp hc with rfl | rfl
    · cases hentry
    · obtain rfl := List.mem_singleton.mp hentry
      unfold IsVersion
      rw [hversion]
      decide

/-- A password encrypted under version 1 is read under version 2 and marked for rotation. -/
theorem credentials_survive_rotation_sample :
    CredentialCipher.decrypt recordedAesgcm id ⟨[(1,firstKey),(2,secondKey)],2⟩ recordedToken =
        .ok "SuperSecret!234" ∧
      (CredentialCipher.needsRotation id ⟨[(1,firstKey),(2,secondKey)],2⟩ recordedToken = true ↔
        (1 : ℤ) ≠ 2) := by
  have hversion : intOfStr id "1".toList = some 1 := by decide
  have hfst : EnvKeyProvider.init id firstSettings = .ok firstProvider := by
    unfold EnvKeyProvider.init
    rw [firstSettings,decodeKey_encode]
    rfl
  have hsnd : EnvKeyProvider.init id secondSettings =
      .ok ⟨[(1,firstKey),(2,secondKey)],2⟩ := by
    unfold EnvKeyProvider.init
    simp only [secondSettings,decodeKey_encode,EnvKeyProvider.addLegacyKeys,hversion]
    rfl
  exact credentials_survive_rotation recordedAesgcm recordedAesgcm_decryptInvertsEncrypt id
    [firstSettings,secondSettings] rotation_sample 0 1 (by decide) firstSettings secondSettings rfl
    rfl _ _ hfst hsnd recordedNonce "SuperSecret!234" _ encrypt_recorded

end
end WzonePortal
