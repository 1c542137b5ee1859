import Mathlib.Data.List.Infix
import WzonePortal.Masking

/-! The domain errors that the adapters raise for the exceptions of their libraries. Their texts
are shown to users and stored with the connection; what they tell of a secret is what the masking
of messages leaves of it. -/
namespace WzonePortal
open Masking Regex

structure TranslatedError where
  typeName : String
  message : List Char
  field : Option String
  deriving DecidableEq

def translated (typeName message : String) : TranslatedError := ⟨typeName,message.toList,none⟩

namespace HypervErrors

/-- The types that `translate_error` asks for, by the first that holds. -/
inductive ExceptionType
  | portal (e : TranslatedError)
  | authentication
  | ssl
  | timeout
  | transport
  | winrm
  | other
  deriving DecidableEq

def mentions (text : List Char) (words : String) : Bool := decide (words.toList <:+: text)

/-- The words that `translate_error` looks for in a message. -/
structure Mentioned where
  unauthorized : Bool
  accessDenied : Bool
  virtualMachineManager : Bool
  missingModule : Bool

def mentioned (lower : List Char → List Char) (msg : List Char) : Mentioned where
  unauthorized := mentions msg "401" || mentions (lower msg) "unauthorized"
  accessDenied := mentions (lower msg) "access is denied" || mentions (lower msg) "accessdenied"
  virtualMachineManager := mentions (lower msg) "virtualmachinemanager"
  missingModule :=
    mentions (lower msg) "cannot find the type" || mentions (lower msg) "is not recognized"

/-- `translate_error` of Hyper-V; `lower` is `str.lower` and `isWord` is `\w`. -/
def translateError (isWord : Char → Bool) (lower : List Char → List Char) (exc : ExceptionType)
    (msg : List Char) (secrets : List (List Char)) : TranslatedError :=
  let found := mentioned lower msg
  match exc with
  | .portal e => e
  | exc =>
    if exc = .authentication ∨ found.unauthorized then
      translated "AuthenticationError"
        "인증에 실패했습니다. 계정, 비밀번호, 인증 방식을 확인하세요."
    else if found.accessDenied then
      translated "PermissionError" "원격 관리 권한이 부족합니다."
    else if exc = .ssl then
      translated "UnreachableError"
        "TLS 인증서 검증에 실패했습니다. 자체 서명 인증서라면 검증을 비활성화하세요."
    else if exc = .timeout then translated "UnreachableError" "응답 시간이 초과되었습니다."
    else if exc = .transport then
      translated "UnreachableError"
        "WinRM 서비스에 연결할 수 없습니다. 포트와 방화벽을 확인하세요."
    else if found.virtualMachineManager then
      ⟨"ValidationError",("대상 서버에서 SCVMM 모듈을 찾을 수 없습니다. " ++
        "SCVMM 관리 서버 주소가 맞는지, 연결 유형이 올바른지 확인하세요.").toList,some "kind"⟩
    else if found.missingModule then
      translated "CollectionError"
        "필요한 PowerShell 모듈이 없습니다 (Hyper-V / FailoverClusters / VirtualMachineManager)."
    else if exc = .winrm then
      ⟨"CollectionError","WinRM 오류: ".toList++sanitizeMessage isWord msg secrets,none⟩
    else ⟨"CollectionError","Hyper-V 수집 오류: ".toList++sanitizeMessage isWord msg secrets,none⟩

theorem translateError_congr {isWord : Char → Bool} {lower : List Char → List Char}
    {exc : ExceptionType} {msg msg' : List Char} {secrets secrets' : List (List Char)}
    (hmentioned : mentioned lower msg = mentioned lower msg')
    (h : sanitizeMessage isWord msg secrets = sanitizeMessage isWord msg' secrets') :
    translateError isWord lower exc msg secrets = translateError isWord lower exc msg' secrets' := by
  simp only [translateError,hmentioned,h]

end HypervErrors

namespace VCenterErrors

/-- The types that `translate_error` asks for, by the first that holds. -/
inductive ExceptionType
  | portal (e : TranslatedError)
  | invalidLogin
  | noPermission (privilegeId : Option (List Char))
  | hostConnectFault
  | ssl
  | timeout
  | network
  | methodFault
  | other

/-- `translate_error` of vCenter; `msg` is the attribute of a fault, `str` its text. -/
def translateError (isWord : Char → Bool) (exc : ExceptionType) (msg str : List Char)
    (secrets : List (List Char)) : TranslatedError :=
  match exc with
  | .portal e => e
  | .invalidLogin =>
    translated "AuthenticationError" "인증에 실패했습니다. 계정 또는 비밀번호를 확인하세요."
  | .noPermission priv =>
    ⟨"PermissionError","조회 권한이 부족합니다.".toList++
      (match priv with
      | none | some [] => []
      | some priv => " (필요 권한: ".toList++priv++")".toList),none⟩
  | .hostConnectFault => translated "UnreachableError" "vCenter에 연결할 수 없습니다."
  | .ssl =>
    translated "UnreachableError"
      "TLS 인증서 검증에 실패했습니다. 자체 서명 인증서라면 검증을 비활성화하세요."
  | .timeout => translated "UnreachableError" "응답 시간이 초과되었습니다."
  | .network => translated "UnreachableError" "네트워크 연결에 실패했습니다."
  | .methodFault =>
    ⟨"CollectionError","vCenter 오류: ".toList++
      sanitizeMessage isWord (if msg = [] then str else msg) secrets,none⟩
  | .other =>
    ⟨"CollectionError","알 수 없는 오류: ".toList++sanitizeMessage isWord str secrets,none⟩

theorem translateError_congr {isWord : Char → Bool} {exc : ExceptionType}
    {msg msg' str str' : List Char} {secrets secrets' : List (List Char)}
    (hmsg : sanitizeMessage isWord (if msg = [] then str else msg) secrets =
      sanitizeMessage isWord (if msg' = [] then str' else msg') secrets')
    (hstr : sanitizeMessage isWord str secrets = sanitizeMessage isWord str' secrets') :
    translateError isWord exc msg str secrets = translateError isWord exc msg' str' secrets' := by
  cases exc <;> simp only [translateError,hmsg,hstr]

end VCenterErrors

section
variable {isWord : Char → Bool} {p q s s' : List Char}

theorem exists_secret_with_other_message (isWord : Char → Bool) (p q out : List Char) :
    ∃ s, 4 ≤ s.length ∧ Pattern.OccursOnlyAt p s q ∧
      sanitizeMessage isWord (p++s++q) [s] ≠ out := by
  let k := p.length+q.length+out.length+1
  refine ⟨paddedToken k,by rw [length_paddedToken]; omega,
    occursOnlyAt_paddedToken (by omega),fun h => ?_⟩
  have hspaces := le_count_space_sanitizeMessage isWord p q k
  have hout : out.count ' ' ≤ out.length := List.count_le_length
  rw [h] at hspaces
  omega

theorem sanitizeMessage_eq_of_alike (hs : 4 ≤ s.length) (hs' : 4 ≤ s'.length)
    (h : Alike MASK s s' (patterns isWord) p s s' q) :
    sanitizeMessage isWord (p++s++q) [s] = sanitizeMessage isWord (p++s'++q) [s'] := by
  rw [sanitizeMessage_singleton hs,sanitizeMessage_singleton hs']
  exact h.sub_literal (ne_nil_of_four_le hs) (ne_nil_of_four_le hs')

end

/-- No surroundings make the message independent of the secret that stands in them. Two secrets
leave the same message, and the same domain error, when every pattern cuts their surroundings in
the same way and neither of them. -/
theorem message_depends_on_secret (isWord : Char → Bool) (lower : List Char → List Char) :
    (∀ p q s₁, ∃ s₂, 4 ≤ s₂.length ∧ Pattern.OccursOnlyAt p s₂ q ∧
      sanitizeMessage isWord (p++s₂++q) [s₂] ≠ sanitizeMessage isWord (p++s₁++q) [s₁]) ∧
    ∀ p q s₁ s₂, 4 ≤ s₁.length → 4 ≤ s₂.length →
      Alike MASK s₁ s₂ (patterns isWord) p s₁ s₂ q →
      sanitizeMessage isWord (p++s₁++q) [s₁] = sanitizeMessage isWord (p++s₂++q) [s₂] ∧
      (∀ exc, VCenterErrors.translateError isWord exc [] (p++s₁++q) [s₁] =
        VCenterErrors.translateError isWord exc [] (p++s₂++q) [s₂]) ∧
      (∀ exc, VCenterErrors.translateError isWord exc (p++s₁++q) (p++s₁++q) [s₁] =
        VCenterErrors.translateError isWord exc (p++s₂++q) (p++s₂++q) [s₂]) ∧
      (HypervErrors.mentioned lower (p++s₁++q) = HypervErrors.mentioned lower (p++s₂++q) →
        ∀ exc, HypervErrors.translateError isWord lower exc (p++s₁++q) [s₁] =
          HypervErrors.translateError isWord lower exc (p++s₂++q) [s₂]) := by
  refine ⟨fun p q s₁ => exists_secret_with_other_message isWord p q _,?_⟩
  intro p q s₁ s₂ hs₁ hs₂ halike
  have heq := sanitizeMessage_eq_of_alike hs₁ hs₂ halike
  refine ⟨heq,fun exc => ?_,fun exc => ?_,fun hmentioned exc => ?_⟩
  · exact VCenterErrors.translateError_congr (by simpa using heq) heq
  · exact VCenterErrors.translateError_congr (by simpa using heq) heq
  · exact HypervErrors.translateError_congr hmentioned heq

def isAsciiWord (c : Char) : Bool := c.isAlphanum || c == '_'

theorem message_depends_on_secret_sample :
    sanitizeMessage isAsciiWord ("pwd=".toList++"Moonlight".toList++" failed".toList)
        ["Moonlight".toList] =
      sanitizeMessage isAsciiWord ("pwd=".toList++"Starfish1".toList++" failed".toList)
        ["Starfish1".toList] := by
  refine ((message_depends_on_secret isAsciiWord id).2 _ _ _ _ (by decide) (by decide) ?_).1
  have h₁ : ∀ s ∈ ["Moonlight".toList,"Starfish1".toList],
      credential.pieces ("pwd=".toList++s++" failed".toList) =
        "pwd=".toList.map .kept++[.hidden ([]++s++[])]++" failed".toList.map .kept := by
    decide +kernel
  have h₂ : ∀ pat ∈ [urlCredential,authorization isAsciiWord,basic],
      pat.pieces ("pwd=".toList++MASK++" failed".toList) =
        "pwd=".toList.map .kept++MASK.map .kept++" failed".toList.map .kept := by
    decide +kernel
  refine .pass (h₁ _ (by simp)) (h₁ _ (by simp)) (.hidden [] []) (.hidden [] []) (by decide) ?_
  simp only [Piece.shown_kept]
  refine .pass (h₂ _ (by simp)) (h₂ _ (by simp)) .shown .shown (by decide) ?_
  simp only [Piece.shown_kept]
  refine .pass (h₂ _ (by simp)) (h₂ _ (by simp)) .shown .shown (by decide) ?_
  simp only [Piece.shown_kept]
  refine .pass (h₂ _ (by simp)) (h₂ _ (by simp)) .shown .shown (by decide) ?_
  simp only [Piece.shown_kept]
  exact .done (.hidden (by decide +kernel)) (.hidden (by decide +kernel))

/-- The part of a password behind a semicolon is not masked, and the search misses it. -/
theorem password_after_semicolon_remains :
    Pattern.OccursOnlyAt "pwd=".toList "Sun;shine2".toList [] ∧
    Pattern.OccursOnlyAt "pwd=".toList "Moonlight".toList [] ∧
    sanitizeMessage isAsciiWord ("pwd=".toList++"Sun;shine2".toList++[]) ["Sun;shine2".toList] =
      "pwd=***;shine2".toList ∧
    sanitizeMessage isAsciiWord ("pwd=".toList++"Sun;shine2".toList++[]) ["Sun;shine2".toList] ≠
      sanitizeMessage isAsciiWord ("pwd=".toList++"Moonlight".toList++[]) ["Moonlight".toList] := by
  refine ⟨?_,?_,by decide +kernel,by decide +kernel⟩
  · exact Pattern.occursOnlyAt_of_head (a := 'S') (w := "un;shine2".toList) (by decide) (by decide)
      (by decide)
  · exact Pattern.occursOnlyAt_of_head (a := 'M') (w := "oonlight".toList) (by decide) (by decide)
      (by decide)

end WzonePortal
