import Mathlib.Data.List.GetD
import Mathlib.Tactic.IntervalCases

/-! Base64 over bytes and characters: the padded encoder, and a decoder that takes one
character after another. The strict decoder refuses what the lenient one skips; both invert
the encoder, in the standard and in the URL-safe alphabet. -/
namespace Base64

def alphabet : List Char :=
  ['A','B','C','D','E','F','G','H','I','J','K','L','M','N','O','P','Q','R','S','T','U','V','W',
    'X','Y','Z','a','b','c','d','e','f','g','h','i','j','k','l','m','n','o','p','q','r','s','t',
    'u','v','w','x','y','z','0','1','2','3','4','5','6','7','8','9','+','/']

def char (n : ℕ) : Char := alphabet.getD n 'A'

def value (c : Char) : Option ℕ := alphabet.findIdx? (· = c)

def encode : List UInt8 → List Char
  | [] => []
  | [a] => [char (a.toNat / 4),char (a.toNat % 4 * 16),'=','=']
  | [a,b] => [char (a.toNat / 4),char (a.toNat % 4 * 16 + b.toNat / 16),
      char (b.toNat % 16 * 4),'=']
  | a::b::c::bs => char (a.toNat / 4)::char (a.toNat % 4 * 16 + b.toNat / 16)::
      char (b.toNat % 16 * 4 + c.toNat / 64)::char (c.toNat % 64)::encode bs

/-- The place in a group of four characters, with the bits that are not yet in a byte. -/
inductive Quad
  | first
  | second (left : ℕ)
  | third (left : ℕ)
  | fourth (left : ℕ)
  deriving DecidableEq

namespace Quad

def pos : Quad → ℕ
  | .first => 0
  | .second _ => 1
  | .third _ => 2
  | .fourth _ => 3

def push (v : ℕ) : Quad → Option UInt8 × Quad
  | .first => (none,.second v)
  | .second left => (some (UInt8.ofNat (left*4 + v / 16)),.third (v % 16))
  | .third left => (some (UInt8.ofNat (left*16 + v / 4)),.fourth (v % 4))
  | .fourth left => (some (UInt8.ofNat (left*64 + v)),.first)

end Quad

/-- The decoder: the place, the padding characters in a row and whether there was one at all. -/
def scan (strict : Bool) : Quad → ℕ → Bool → List Char → Option (List UInt8)
  | q, _, _, [] => if q = .first then some [] else none
  | q, pads, started, c::cs =>
    if c = '=' then
      if 2 ≤ q.pos then
        if 4 ≤ q.pos + (pads+1) then
          if strict && !cs.isEmpty then none else some []
        else scan strict q (pads+1) true cs
      else scan strict q pads true cs
    else match value c with
      | none => if strict then none else scan strict q pads started cs
      | some v =>
        if strict && started then none
        else (scan strict (q.push v).2 0 started cs).map ((q.push v).1.toList ++ ·)

def decode (strict : Bool) (cs : List Char) : Option (List UInt8) :=
  if strict && cs.head? = some '=' then none else scan strict .first 0 false cs

def toUrlsafe (c : Char) : Char := if c = '+' then '-' else if c = '/' then '_' else c

def fromUrlsafe (c : Char) : Char := if c = '-' then '+' else if c = '_' then '/' else c

def urlsafeEncode (bs : List UInt8) : List Char := (encode bs).map toUrlsafe

def urlsafeDecode (cs : List Char) : Option (List UInt8) := decode false (cs.map fromUrlsafe)

/-- Every character that the encoder writes. -/
def Encoding (c : Char) : Prop := c ∈ alphabet ∨ c = '='

section
variable {strict : Bool} {n : ℕ}

theorem value_char (hn : n < 64) : value (char n) = some n := by
  interval_cases n <;> decide

theorem char_mem (n : ℕ) : char n ∈ alphabet := by
  unfold char
  rcases Nat.lt_or_ge n alphabet.length with hn | hn
  · rw [List.getD_eq_getElem _ _ hn]
    exact List.getElem_mem hn
  · rw [List.getD_eq_default _ _ hn]
    decide

theorem char_ne_pad (n : ℕ) : char n ≠ '=' := fun h => absurd (h ▸ char_mem n) (by decide)

theorem scan_char (hn : n < 64) (q : Quad) (pads : ℕ) (cs : List Char) :
    scan strict q pads false (char n::cs) =
      (scan strict (q.push n).2 0 false cs).map ((q.push n).1.toList ++ ·) := by
  rw [scan.eq_2,if_neg (char_ne_pad n),value_char hn]
  simp

theorem ofNat_toNat {a : UInt8} {m : ℕ} (h : m = a.toNat) : UInt8.ofNat m = a := by
  rw [h]
  exact UInt8.ofNat_toNat

theorem scan_encode (bs : List UInt8) : scan strict .first 0 false (encode bs) = some bs := by
  induction bs using encode.induct with
  | case1 => rfl
  | case2 a =>
    have ha := a.toNat_lt
    rw [encode,scan_char (by omega),scan_char (by omega)]
    have hbyte : UInt8.ofNat (a.toNat / 4 * 4 + a.toNat % 4 * 16 / 16) = a :=
      ofNat_toNat (by omega)
    simp only [Quad.push,hbyte]
    cases strict <;> rfl
  | case3 a b =>
    have ha := a.toNat_lt
    have hb := b.toNat_lt
    rw [encode,scan_char (by omega),scan_char (by omega),scan_char (by omega)]
    have hfst : UInt8.ofNat (a.toNat / 4 * 4 + (a.toNat % 4 * 16 + b.toNat / 16) / 16) = a :=
      ofNat_toNat (by omega)
    have hsnd : UInt8.ofNat ((a.toNat % 4 * 16 + b.toNat / 16) % 16 * 16 +
        b.toNat % 16 * 4 / 4) = b := ofNat_toNat (by omega)
    simp only [Quad.push,hfst,hsnd]
    cases strict <;> rfl
  | case4 a b c bs ih =>
    have ha := a.toNat_lt
    have hb := b.toNat_lt
    have hc := c.toNat_lt
    rw [encode,scan_char (by omega),scan_char (by omega),scan_char (by omega),
      scan_char (by omega)]
    have hfst : UInt8.ofNat (a.toNat / 4 * 4 + (a.toNat % 4 * 16 + b.toNat / 16) / 16) = a :=
      ofNat_toNat (by omega)
    have hsnd : UInt8.ofNat ((a.toNat % 4 * 16 + b.toNat / 16) % 16 * 16 +
        (b.toNat % 16 * 4 + c.toNat / 64) / 4) = b := ofNat_toNat (by omega)
    have hthd : UInt8.ofNat ((b.toNat % 16 * 4 + c.toNat / 64) % 4 * 64 + c.toNat % 64) = c :=
      ofNat_toNat (by omega)
    simp only [Quad.push,hfst,hsnd,hthd,ih]
    rfl

theorem encoding_of_mem_encode (bs : List UInt8) : ∀ c ∈ encode bs, Encoding c := by
  induction bs using encode.induct with
  | case1 => simp [encode]
  | case2 a => simp [encode,Encoding,char_mem]
  | case3 a b => simp [encode,Encoding,char_mem]
  | case4 a b c bs ih =>
    intro d hd
    simp only [encode,List.mem_cons] at hd
    rcases hd with rfl | rfl | rfl | rfl | hd
    · exact .inl (char_mem _)
    · exact .inl (char_mem _)
    · exact .inl (char_mem _)
    · exact .inl (char_mem _)
    · exact ih d hd

theorem head?_encode (bs : List UInt8) : (encode bs).head? ≠ some '=' := by
  cases bs using encode.fun_cases with
  | case1 => simp [encode]
  | case2 a => simp [encode,char_ne_pad]
  | case3 a b => simp [encode,char_ne_pad]
  | case4 a b c bs => simp [encode,char_ne_pad]

theorem decode_encode (strict : Bool) (bs : List UInt8) : decode strict (encode bs) = some bs := by
  rw [decode,if_neg (by simp [head?_encode])]
  exact scan_encode bs

theorem fromUrlsafe_toUrlsafe {c : Char} (hc : Encoding c) : fromUrlsafe (toUrlsafe c) = c := by
  have hdash : c ≠ '-' := fun h => by subst h; revert hc; unfold Encoding; decide
  have hunderscore : c ≠ '_' := fun h => by subst h; revert hc; unfold Encoding; decide
  unfold toUrlsafe
  split_ifs with hplus hslash
  · rw [hplus]; rfl
  · rw [hslash]; rfl
  · rw [fromUrlsafe,if_neg hdash,if_neg hunderscore]

theorem urlsafeDecode_urlsafeEncode (bs : List UInt8) :
    urlsafeDecode (urlsafeEncode bs) = some bs := by
  have hmap : (encode bs).map (fromUrlsafe ∘ toUrlsafe) = encode bs :=
    (List.map_congr_left fun c hc => fromUrlsafe_toUrlsafe (encoding_of_mem_encode bs c hc)).trans
      (List.map_id _)
  rw [urlsafeDecode,urlsafeEncode,List.map_map,hmap,decode_encode]

theorem toNat_of_mem_encode {bs : List UInt8} {c : Char} (hc : c ∈ encode bs) : c.toNat < 128 := by
  rcases encoding_of_mem_encode bs c hc with hc | rfl
  · have hall : ∀ d ∈ alphabet, d.toNat < 128 := by simp [alphabet]
    exact hall c hc
  · decide

theorem mem_urlsafeEncode {bs : List UInt8} {c : Char} (hc : c ∈ urlsafeEncode bs) :
    c ≠ '$' ∧ 32 ≤ c.toNat ∧ c.toNat < 128 := by
  obtain ⟨d,hd,rfl⟩ := List.mem_map.mp hc
  rcases encoding_of_mem_encode bs d hd with hd | rfl
  · have hall : ∀ d ∈ alphabet,
        toUrlsafe d ≠ '$' ∧ 32 ≤ (toUrlsafe d).toNat ∧ (toUrlsafe d).toNat < 128 := by
      simp [alphabet,toUrlsafe]
    exact hall d hd
  · decide

end
end Base64
