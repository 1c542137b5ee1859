import Mathlib.Tactic

/-! 128-bit identifiers and their canonical text, and the composite key text
`connection:native` that the identity table stores. The text of an identifier has
36 characters, so the composite text determines both of its parts. -/
namespace WzonePortal

abbrev UUID := BitVec 128

namespace UUID

def hexDigit (n : ℕ) : Char :=
  if n < 10 then Char.ofNat (48 + n) else Char.ofNat (87 + n)

/-- The lowest `width` hexadecimal digits of `n`, most significant first. -/
def hexDigits : ℕ → ℕ → List Char
  | 0, _ => []
  | width+1, n => hexDigits width (n / 16) ++ [hexDigit (n % 16)]

@[simp] theorem hexDigits_length (width n : ℕ) : (hexDigits width n).length = width := by
  induction width generalizing n with
  | zero => rfl
  | succ width ih => simp [hexDigits,ih]

theorem hexDigit_injective {m n : ℕ} (hm : m < 16) (hn : n < 16) (h : hexDigit m = hexDigit n) :
    m = n := by
  have hall : ∀ a < 16, ∀ b < 16, hexDigit a = hexDigit b → a = b := by decide
  exact hall m hm n hn h

theorem hexDigits_mem {width n : ℕ} {c : Char} (h : c ∈ hexDigits width n) :
    ∃ d < 16, c = hexDigit d := by
  induction width generalizing n with
  | zero => simp [hexDigits] at h
  | succ width ih =>
    simp only [hexDigits,List.mem_append,List.mem_singleton] at h
    rcases h with h | rfl
    · exact ih h
    · exact ⟨n % 16,Nat.mod_lt _ (by decide),rfl⟩

theorem hexDigits_ne_dash (width n : ℕ) : ∀ c ∈ hexDigits width n, c ≠ '-' := by
  have hall : ∀ a < 16, hexDigit a ≠ '-' := by decide
  intro c hc
  obtain ⟨d,hd,rfl⟩ := hexDigits_mem hc
  exact hall d hd

theorem hexDigits_injective {width m n : ℕ} (hm : m < 16^width) (hn : n < 16^width)
    (h : hexDigits width m = hexDigits width n) : m = n := by
  induction width generalizing m n with
  | zero => simp at hm hn; omega
  | succ width ih =>
    simp only [hexDigits] at h
    obtain ⟨hq,hr⟩ := List.append_inj' h rfl
    have hdigit := hexDigit_injective (Nat.mod_lt m (by decide)) (Nat.mod_lt n (by decide))
      (List.singleton_injective hr)
    have hdiv := ih (m := m / 16) (n := n / 16) (by rw [pow_succ] at hm; omega)
      (by rw [pow_succ] at hn; omega) hq
    omega

/-- Cut a 32-digit text into groups of 8, 4, 4, 4 and 12. -/
def dashed (digits : List Char) : List Char :=
  digits.take 8 ++ '-' :: ((digits.drop 8).take 4 ++ '-' :: ((digits.drop 12).take 4 ++
    '-' :: ((digits.drop 16).take 4 ++ '-' :: digits.drop 20)))

theorem dashed_length {digits : List Char} (h : digits.length = 32) :
    (dashed digits).length = 36 := by
  simp [dashed,h]

theorem filter_dashed {digits : List Char} (h : ∀ c ∈ digits, c ≠ '-') :
    (dashed digits).filter (fun c => c ≠ '-') = digits := by
  have keep : ∀ l : List Char, (∀ c ∈ l, c ∈ digits) → l.filter (fun c => decide (c ≠ '-')) = l := by
    intro l hl
    rw [List.filter_eq_self]
    intro c hc
    simpa using h c (hl c hc)
  simp only [dashed,List.filter_append,List.filter_cons,ne_eq,not_true_eq_false,decide_false,
    Bool.false_eq_true,if_false]
  simp only [ne_eq] at keep
  rw [keep _ fun c hc => List.mem_of_mem_take hc,
    keep _ fun c hc => List.mem_of_mem_drop (List.mem_of_mem_take hc),
    keep _ fun c hc => List.mem_of_mem_drop (List.mem_of_mem_take hc),
    keep _ fun c hc => List.mem_of_mem_drop (List.mem_of_mem_take hc),
    keep _ fun c hc => List.mem_of_mem_drop hc]
  have h4 : digits.drop 20 = (digits.drop 16).drop 4 := by rw [List.drop_drop]
  have h3 : digits.drop 16 = (digits.drop 12).drop 4 := by rw [List.drop_drop]
  have h2 : digits.drop 12 = (digits.drop 8).drop 4 := by rw [List.drop_drop]
  rw [h4,List.take_append_drop,h3,List.take_append_drop,h2,List.take_append_drop,
    List.take_append_drop]

def str (u : UUID) : String := String.ofList (dashed (hexDigits 32 u.toNat))

@[simp] theorem str_length (u : UUID) : u.str.toList.length = 36 := by
  simp [str,dashed_length]

theorem str_chars (u : UUID) : '\x00' ∉ u.str.toList := by
  have hall : ∀ a < 16, hexDigit a ≠ '\x00' := by decide
  have hdigits : '\x00' ∉ hexDigits 32 u.toNat := by
    intro h
    obtain ⟨d,hd,he⟩ := hexDigits_mem h
    exact hall d hd he.symm
  simp only [str,String.toList_ofList,dashed,List.mem_append,List.mem_cons,not_or]
  exact ⟨fun h => hdigits (List.mem_of_mem_take h),by decide,
    fun h => hdigits (List.mem_of_mem_drop (List.mem_of_mem_take h)),by decide,
    fun h => hdigits (List.mem_of_mem_drop (List.mem_of_mem_take h)),by decide,
    fun h => hdigits (List.mem_of_mem_drop (List.mem_of_mem_take h)),by decide,
    fun h => hdigits (List.mem_of_mem_drop h)⟩

theorem str_injective {u v : UUID} (h : u.str = v.str) : u = v := by
  have hl : dashed (hexDigits 32 u.toNat) = dashed (hexDigits 32 v.toNat) := by
    simpa [str] using congrArg String.toList h
  have hd := congrArg (List.filter fun c => decide (c ≠ '-')) hl
  rw [filter_dashed (hexDigits_ne_dash _ _),filter_dashed (hexDigits_ne_dash _ _)] at hd
  apply BitVec.eq_of_toNat_eq
  exact hexDigits_injective (by simpa using u.isLt) (by simpa using v.isLt) hd

end UUID

theorem compositeKey_injective {c d : UUID} {m n : String}
    (h : c.str ++ ":" ++ m = d.str ++ ":" ++ n) : c = d ∧ m = n := by
  have hl := congrArg String.toList h
  simp only [String.toList_append,List.append_assoc] at hl
  obtain ⟨hc,ht⟩ := List.append_inj hl (by simp)
  refine ⟨UUID.str_injective (String.toList_injective hc),?_⟩
  exact String.toList_injective (List.append_cancel_left ht)

end WzonePortal
