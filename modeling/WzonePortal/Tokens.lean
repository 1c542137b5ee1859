import WzonePortal.Password

/-! The session token and the cookie that carries it. A token names an account; what an
identifier is written as is read back as the same identifier. -/
namespace WzonePortal

/-- `str.replace` of a part by the empty text. -/
def without (part : List Char) (text : List Char) : List Char :=
  match text with
  | [] => []
  | c::cs =>
    if part.isPrefixOf (c::cs) then without part (cs.drop (part.length-1)) else c::without part cs
termination_by text.length

theorem without_eq_self {c : Char} {part text : List Char} (h : c ∉ text) :
    without (c::part) text = text := by
  induction text with
  | nil => rw [without]
  | cons d text ih =>
    obtain ⟨hd,ht⟩ := not_or.mp (List.mem_cons.not.mp h)
    rw [without,if_neg (by simp [hd]),ih ht]

namespace UUID

def hexValue (c : Char) : Option ℕ :=
  if '0' ≤ c ∧ c ≤ '9' then some (c.toNat - 48)
  else if 'a' ≤ c ∧ c ≤ 'f' then some (c.toNat - 87)
  else if 'A' ≤ c ∧ c ≤ 'F' then some (c.toNat - 55)
  else none

/-- Hexadecimal digits with single underscores between them, as `int` reads them. -/
def readHexDigits : Bool → ℕ → List Char → Option ℕ
  | true, acc, [] => some acc
  | false, _, [] => none
  | afterDigit, acc, c::cs => match hexValue c with
    | some d => readHexDigits true (16*acc + d) cs
    | none => if c = '_' ∧ afterDigit then readHexDigits false acc cs else none

/-- The base may be written before the digits, with an underscore after it. -/
def unprefixed : List Char → List Char
  | '0' :: 'x' :: '_' :: cs => cs
  | '0' :: 'X' :: '_' :: cs => cs
  | '0' :: 'x' :: cs => cs
  | '0' :: 'X' :: cs => cs
  | cs => cs

/-- `int` of a text, to the base 16. -/
def readHex (text : List Char) : Option ℤ :=
  match ((text.dropWhile isSpace).reverse.dropWhile isSpace).reverse with
  | '-'::cs => (readHexDigits false 0 (unprefixed cs)).map fun n => -(n : ℤ)
  | '+'::cs => (readHexDigits false 0 (unprefixed cs)).map fun n => (n : ℤ)
  | cs => (readHexDigits false 0 (unprefixed cs)).map fun n => (n : ℤ)

def isBrace (c : Char) : Bool := c ∈ ['\x7b','\x7d']

/-- `UUID` of a text. `toAscii` maps the decimal digits and spaces beyond ASCII into it. -/
def parse (toAscii : Char → Char) (text : String) : Option UUID :=
  let hex := without "uuid:".toList (without "urn:".toList text.toList)
  let hex := ((hex.dropWhile isBrace).reverse.dropWhile isBrace).reverse
  let hex := hex.filter (· ≠ '-')
  if hex.length ≠ 32 then none
  else match readHex (if hex.all (·.toNat < 128) then hex else hex.map toAscii) with
    | none => none
    | some n => if 0 ≤ n ∧ n < 2^128 then some (BitVec.ofInt 128 n) else none

theorem hexValue_hexDigit : ∀ d < 16, hexValue (hexDigit d) = some d := by decide

theorem readHexDigits_append {ds : List Char} (hds : ∀ c ∈ ds, ∃ d < 16, c = hexDigit d) (b : Bool)
    (acc : ℕ) (cs : List Char) : readHexDigits b acc (ds ++ cs) =
      readHexDigits (b || !ds.isEmpty)
        (ds.foldl (fun n c => 16*n + (hexValue c).getD 0) acc) cs := by
  induction ds generalizing b acc with
  | nil => simp
  | cons c ds ih =>
    obtain ⟨d,hd,rfl⟩ := hds _ List.mem_cons_self
    simp only [List.cons_append,readHexDigits,hexValue_hexDigit d hd,List.foldl_cons,
      Option.getD_some]
    rw [ih fun c hc => hds c (List.mem_cons_of_mem _ hc)]
    simp

theorem foldl_hexDigits (width n : ℕ) : (hexDigits width n).foldl
    (fun n c => 16*n + (hexValue c).getD 0) 0 = n % 16^width := by
  induction width generalizing n with
  | zero => simp [hexDigits,Nat.mod_one]
  | succ width ih =>
    rw [hexDigits,List.foldl_append,ih]
    simp only [List.foldl_cons,List.foldl_nil,hexValue_hexDigit _ (Nat.mod_lt n (by decide)),
      Option.getD_some]
    rw [pow_succ,Nat.mul_comm (16^width) 16,Nat.mod_mul]
    omega

theorem readHexDigits_hexDigits {width n : ℕ} (hw : 0 < width) (hn : n < 16^width) :
    readHexDigits false 0 (hexDigits width n) = some n := by
  have hdigits : ∀ c ∈ hexDigits width n, ∃ d < 16, c = hexDigit d :=
    fun _ hc => hexDigits_mem hc
  have h := readHexDigits_append hdigits false 0 []
  have hne : (hexDigits width n).isEmpty = false := by
    rw [List.isEmpty_eq_false_iff,← List.length_pos_iff,hexDigits_length]
    exact hw
  rw [List.append_nil,foldl_hexDigits,Nat.mod_eq_of_lt hn,hne] at h
  exact h

theorem dropWhile_eq_self {φ : Char → Bool} {cs : List Char} (h : ∀ c ∈ cs, φ c = false) :
    ((cs.dropWhile φ).reverse.dropWhile φ).reverse = cs := by
  have hkeep : ∀ ds : List Char, (∀ c ∈ ds, φ c = false) → ds.dropWhile φ = ds := by
    intro ds hds
    cases ds with
    | nil => rfl
    | cons d ds => rw [List.dropWhile_cons_of_neg (by simp [hds d List.mem_cons_self])]
  rw [hkeep cs h,hkeep _ fun c hc => h c (List.mem_reverse.mp hc),List.reverse_reverse]

theorem readHex_digits {cs : List Char} (h : ∀ c ∈ cs, ∃ d < 16, c = hexDigit d) :
    readHex cs = (readHexDigits false 0 cs).map fun n => (n : ℤ) := by
  have hspace : ∀ d < 16, isSpace (hexDigit d) = false := by decide
  have hminus : ∀ d < 16, hexDigit d ≠ '-' := by decide
  have hplus : ∀ d < 16, hexDigit d ≠ '+' := by decide
  have hsmall : ∀ d < 16, hexDigit d ≠ 'x' := by decide
  have hlarge : ∀ d < 16, hexDigit d ≠ 'X' := by decide
  have hbase : unprefixed cs = cs := by
    unfold unprefixed
    split
    all_goals first
      | rfl
      | (obtain ⟨d,hd,he⟩ := h 'x' (List.mem_cons_of_mem _ List.mem_cons_self)
         exact absurd he.symm (hsmall d hd))
      | (obtain ⟨d,hd,he⟩ := h 'X' (List.mem_cons_of_mem _ List.mem_cons_self)
         exact absurd he.symm (hlarge d hd))
  rw [readHex,dropWhile_eq_self fun c hc => ?_]
  · split
    · obtain ⟨d,hd,he⟩ := h '-' List.mem_cons_self
      exact absurd he.symm (hminus d hd)
    · obtain ⟨d,hd,he⟩ := h '+' List.mem_cons_self
      exact absurd he.symm (hplus d hd)
    · rw [hbase]
  · obtain ⟨d,hd,rfl⟩ := h c hc
    exact hspace d hd

theorem mem_dashed {digits : List Char} {c : Char} (h : c ∈ dashed digits) :
    c ∈ digits ∨ c = '-' := by
  simp only [dashed,List.mem_append,List.mem_cons] at h
  rcases h with h | h | h | h | h | h | h | h | h
  · exact .inl (List.mem_of_mem_take h)
  · exact .inr h
  · exact .inl (List.mem_of_mem_drop (List.mem_of_mem_take h))
  · exact .inr h
  · exact .inl (List.mem_of_mem_drop (List.mem_of_mem_take h))
  · exact .inr h
  · exact .inl (List.mem_of_mem_drop (List.mem_of_mem_take h))
  · exact .inr h
  · exact .inl (List.mem_of_mem_drop h)

/-- The text of an identifier is read back as the identifier. -/
theorem parse_str (toAscii : Char → Char) (u : UUID) : parse toAscii u.str = some u := by
  have hchars : ∀ c ∈ u.str.toList, (∃ d < 16, c = hexDigit d) ∨ c = '-' := by
    intro c hc
    rw [str,String.toList_ofList] at hc
    rcases mem_dashed hc with hc | hc
    · exact .inl (hexDigits_mem hc)
    · exact .inr hc
  have habsent : ∀ c : Char, (∀ d < 16, hexDigit d ≠ c) → c ≠ '-' → c ∉ u.str.toList := by
    intro c hdigit hdash hc
    rcases hchars c hc with ⟨d,hd,rfl⟩ | rfl
    · exact hdigit d hd rfl
    · exact hdash rfl
  have hu : 'u' ∉ u.str.toList := habsent 'u' (by decide) (by decide)
  have hbrace : ∀ c ∈ u.str.toList, isBrace c = false := by
    have hall : ∀ d < 16, isBrace (hexDigit d) = false := by decide
    intro c hc
    rcases hchars c hc with ⟨d,hd,rfl⟩ | rfl
    · exact hall d hd
    · rfl
  have hdigits : u.str.toList.filter (· ≠ '-') = hexDigits 32 u.toNat := by
    rw [str,String.toList_ofList,filter_dashed (hexDigits_ne_dash _ _)]
  have hascii : (hexDigits 32 u.toNat).all (·.toNat < 128) = true := by
    have hall : ∀ d < 16, decide ((hexDigit d).toNat < 128) = true := by decide
    rw [List.all_eq_true]
    intro c hc
    obtain ⟨d,hd,rfl⟩ := hexDigits_mem hc
    exact hall d hd
  have hlt : u.toNat < 16^32 := by simpa using u.isLt
  have hread : readHex (hexDigits 32 u.toNat) = some (u.toNat : ℤ) := by
    rw [readHex_digits fun c hc => hexDigits_mem hc,readHexDigits_hexDigits (by decide) hlt]
    rfl
  have hrange : (u.toNat : ℤ) < 2^128 := by exact_mod_cast u.isLt
  unfold parse
  rw [show "urn:".toList = 'u' :: ['r','n',':'] from rfl,without_eq_self hu,
    show "uuid:".toList = 'u' :: ['u','i','d',':'] from rfl,without_eq_self hu]
  simp only [dropWhile_eq_self hbrace,hdigits,hexDigits_length,ne_eq,not_true_eq_false,if_false,
    hascii,if_true,hread]
  rw [if_pos ⟨Int.natCast_nonneg _,hrange⟩]
  simp

end UUID

namespace Role

def ofValue (text : String) : Option Role :=
  [Role.viewer,Role.operator,Role.admin].find? fun role => role.value = text

@[simp] theorem ofValue_value (role : Role) : ofValue role.value = some role := by
  cases role <;> decide

end Role

structure TokenSettings where
  jwtSecret : String
  jwtExpireMinutes : ℤ := 480

/-- The claims of a token as JSON carries them. -/
structure Payload where
  sub : Option String
  username : Option String
  role : Option String
  iat : Option ℤ
  exp : Option ℤ
  jti : Option String
  deriving DecidableEq, Repr

/-- The signing library: `decode` checks the signature and, at the given time, the expiry. -/
structure Jose where
  encode : Payload → String → String
  decode : String → String → Timestamp → Option Payload

def microsecondsPerSecond : ℤ := 1000000

/-- `int` of a timestamp in seconds. -/
def Timestamp.seconds (t : Timestamp) : ℤ := t.tdiv microsecondsPerSecond

/-- A token that the library has signed opens to its claims until they have expired. -/
structure Jose.Opens (jose : Jose) (secret token : String) : Prop where
  nonempty : token ≠ ""
  decode : ∀ claims exp, jose.encode claims secret = token → claims.exp = some exp → ∀ now,
    jose.decode token secret now = if exp < now / microsecondsPerSecond then none else some claims

namespace Tokens

variable (jose : Jose) (toAscii : Char → Char) (settings : TokenSettings)

/-- The scope is not in the token: it would outlive its revocation. -/
def payload (jti : String) (now : Timestamp) (user : AuthenticatedUser) : Payload where
  sub := some user.userId.str
  username := some user.username
  role := some user.role.value
  iat := some (Timestamp.seconds now)
  exp := some (Timestamp.seconds (now + settings.jwtExpireMinutes * microsecondsPerMinute))
  jti := some jti

def createAccessToken (jti : String) (now : Timestamp) (user : AuthenticatedUser) : String :=
  jose.encode (payload settings jti now user) settings.jwtSecret

/-- The claims by their names; one that is missing or malformed refuses the token. -/
def claimsOf (p : Payload) : Option TokenClaims := do
  let sub ← p.sub.bind (UUID.parse toAscii)
  let username ← p.username
  let role ← p.role.bind Role.ofValue
  let exp ← p.exp
  let iat ← p.iat
  let jti ← p.jti
  pure ⟨sub,username,role,exp,iat,jti⟩

def decodeAccessToken (now : Timestamp) (token : String) : Except Exc TokenClaims :=
  match (jose.decode token settings.jwtSecret now).bind (claimsOf toAscii) with
  | some claims => .ok claims
  | none => .error (.authentication "토큰이 유효하지 않습니다.")

/-- What the dependency makes of the session cookie of a request. -/
def readCookie (now : Timestamp) (cookie : Option String) : Cookie :=
  match cookie with
  | none => .missing
  | some token =>
    if token = "" then .missing
    else match decodeAccessToken jose toAscii settings now token with
      | .ok claims => .valid claims
      | .error _ => .invalid

variable {jose toAscii settings}

theorem claimsOf_payload (jti : String) (now : Timestamp) (user : AuthenticatedUser) :
    claimsOf toAscii (payload settings jti now user) = some ⟨user.userId,user.username,user.role,
      Timestamp.seconds (now + settings.jwtExpireMinutes * microsecondsPerMinute),
      Timestamp.seconds now,jti⟩ := by
  simp [claimsOf,payload,UUID.parse_str]

theorem readCookie_issued {jti : String} {issued : Timestamp} {user : AuthenticatedUser}
    (h : jose.Opens settings.jwtSecret (createAccessToken jose settings jti issued user))
    (now : Timestamp) : readCookie jose toAscii settings now
        (some (createAccessToken jose settings jti issued user)) =
      if Timestamp.seconds (issued + settings.jwtExpireMinutes * microsecondsPerMinute) <
        now / microsecondsPerSecond then .invalid
      else .valid ⟨user.userId,user.username,user.role,
        Timestamp.seconds (issued + settings.jwtExpireMinutes * microsecondsPerMinute),
        Timestamp.seconds issued,jti⟩ := by
  rw [readCookie,if_neg h.nonempty,decodeAccessToken,h.decode _ _ rfl rfl]
  by_cases hexp : Timestamp.seconds (issued + settings.jwtExpireMinutes * microsecondsPerMinute) <
      now / microsecondsPerSecond
  · rw [if_pos hexp,if_pos hexp]
    rfl
  · rw [if_neg hexp,if_neg hexp,Option.bind_some,claimsOf_payload]

end Tokens
end WzonePortal
