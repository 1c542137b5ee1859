import WzonePortal.Session

/-! What a request brings from outside the database: the settings, the library functions
of the platform, the clock and the random draws; and the password rules built on them. -/
namespace WzonePortal

structure Settings where
  maxFailedLoginAttempts : ℤ := 5
  lockoutMinutes : ℤ := 15
  deriving DecidableEq, Repr

def Settings.lockout (s : Settings) : ℤ := s.lockoutMinutes * microsecondsPerMinute

/-- Settings and the functions of the platform: text normalisation, bcrypt, JWT, the
credential cipher and the log masking. `checkpw` answers `none` where bcrypt raises. -/
structure Env where
  settings : Settings
  strip : String → String
  lower : String → String
  checkpw : String → String → Option Bool
  hashpw : String → String → String
  createAccessToken : AuthenticatedUser → Settings → Timestamp → String
  encrypt : String → String
  maskText : String → String

structure TokenClaims where
  sub : UUID
  username : String
  role : Role
  exp : ℤ
  iat : ℤ
  jti : String
  deriving DecidableEq, Repr

/-- The session cookie after decoding. -/
inductive Cookie
  | missing
  | invalid
  | valid (claims : TokenClaims)
  deriving DecidableEq, Repr

/-- One request's clock, client, cookie and random draws. -/
structure Context where
  now : Timestamp
  clientIp : Option String
  cookie : Cookie
  uuid4 : UUID
  salt : String
  choices : ℕ → Fin 62

def maxPasswordBytes : ℕ := 72
def minPasswordLength : ℕ := 10
def bcryptRounds : ℤ := 12

def validatePasswordPolicy (plain : String) : Except Exc Unit :=
  if plain.length < minPasswordLength then
    .error (.validation "비밀번호는 10자 이상이어야 합니다." (some "password") [])
  else if maxPasswordBytes < plain.utf8ByteSize then
    .error (.validation "비밀번호는 72바이트를 넘을 수 없습니다." (some "password") [])
  else .ok ()

def hashPassword (env : Env) (ctx : Context) (plain : String) : Except Exc String :=
  match validatePasswordPolicy plain with
  | .ok () => .ok (env.hashpw plain ctx.salt)
  | .error e => .error e

/-- `str.split` at one character. -/
def splitAt (sep : Char) : List Char → List (List Char)
  | [] => [[]]
  | c::cs =>
    if c = sep then []::splitAt sep cs
    else match splitAt sep cs with
      | [] => [[c]]
      | part::parts => (c::part)::parts

def isSpace (c : Char) : Bool := c ∈ [' ','\t','\n','\r','\x0b','\x0c']

/-- Decimal digits with single underscores between them, as `int` reads them. -/
def readDigits : Bool → ℤ → List Char → Option ℤ
  | true, acc, [] => some acc
  | false, _, [] => none
  | afterDigit, acc, c::cs =>
    if '0' ≤ c ∧ c ≤ '9' then readDigits true (10*acc + (c.toNat - 48)) cs
    else if c = '_' ∧ afterDigit then readDigits false acc cs
    else none

def readInt (text : List Char) : Option ℤ :=
  match ((text.dropWhile isSpace).reverse.dropWhile isSpace).reverse with
  | '-'::cs => (readDigits false 0 cs).map fun n => -n
  | '+'::cs => readDigits false 0 cs
  | cs => readDigits false 0 cs

/-- Whether a stored hash was made with a lower cost than the current one. -/
def needsRehash (hashed : String) : Bool :=
  match (splitAt '$' hashed.toList)[2]? with
  | none => false
  | some field => match readInt field with
    | none => false
    | some rounds => rounds < bcryptRounds

/-- The verdict, and a new hash when the stored one is to be replaced. -/
def verifyPassword (env : Env) (ctx : Context) (plain hashed : String) : Bool × Option String :=
  if maxPasswordBytes < plain.utf8ByteSize then (false,none)
  else match env.checkpw plain hashed with
    | none => (false,none)
    | some ok =>
      if ok && needsRehash hashed then (true,some (env.hashpw plain ctx.salt)) else (ok,none)

def tempAlphabet : List Char :=
  "abcdefghijklmnopqrstuvwxyzABCDEFGHIJKLMNOPQRSTUVWXYZ0123456789".toList

/-- Fourteen drawn characters and a fixed ending. -/
def generateTemporaryPassword (ctx : Context) : String :=
  String.ofList (((List.range 14).map fun i => tempAlphabet.getD (ctx.choices i) 'a') ++ ['a','1'])

end WzonePortal
