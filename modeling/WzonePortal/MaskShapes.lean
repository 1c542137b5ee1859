import WzonePortal.MaskTwice
import WzonePortal.RegexCut

/-! What the masking lets through of a secret in the shapes that it is meant for: the value of a
key, with or without quotes, the password of a URL and the credential of a header. -/
namespace WzonePortal.Masking

open Regex Pattern

/-- A character in a string of JSON. -/
def jsonEscapeChar (c : Char) : List Char :=
  match c with
  | '\x22' => ['\\','\x22']
  | '\\' => ['\\','\\']
  | '\n' => ['\\','n']
  | '\r' => ['\\','r']
  | '\t' => ['\\','t']
  | '\x08' => ['\\','b']
  | '\x0c' => ['\\','f']
  | c => if c.toNat < 32 then
      "\\u00".toList++[Nat.digitChar (c.toNat/16),Nat.digitChar (c.toNat%16)]
    else [c]

def jsonEscape (s : List Char) : List Char := s.flatMap jsonEscapeChar

/-- The shapes that the masking is meant for, each with what it has besides the secret: the value of
a key in JSON, of `key=` and of `key: `, the password of a URL and the credential of a header. -/
inductive Shape
  | json (key : List Char)
  | assigned (key : List Char)
  | labelled (key : List Char)
  | url (user : List Char)
  | header (scheme : List Char)

namespace Shape

/-- The secret `s` in the shape, with the text `p` in front of it and `q` behind it. -/
def text (p s q : List Char) : Shape → List Char
  | json key => p++['\x22']++key++"\x22: \x22".toList++jsonEscape s++ '\x22'::q
  | assigned key => p++key++"=".toList++s++q
  | labelled key => p++key++": ".toList++s++q
  | url user => p++"://".toList++(user++[':'])++s++ '@'::q
  | header scheme => p++"Authorization:".toList++(' '::scheme++[' '])++s++q

/-- The keys are those that the first pattern knows. -/
def WellFormed : Shape → Prop
  | json key | assigned key | labelled key => keyword.Matches key
  | url _ | header _ => True

/-- The secrets of the shape. -/
def Secret (s : List Char) : Shape → Prop
  | json _ => s ≠ []
  | assigned _ | labelled _ => s ≠ [] ∧ ∀ c ∈ s, isValue c = true
  | url _ => s ≠ [] ∧ ∀ c ∈ s, c ≠ '/' ∧ isWhitespace c = false
  | header _ => s ≠ [] ∧ ∀ c ∈ s, isWhitespace c = false

/-- Where no other sign ends the secret, a blank or the end of the text does. -/
def Ends (q : List Char) : Shape → Prop
  | json _ | url _ => True
  | assigned _ | labelled _ | header _ => ∀ c ∈ q.head?, isWhitespace c = true

/-- No secret makes a difference. -/
def Hides (isWord : Char → Bool) (sh : Shape) (p q : List Char) : Prop :=
  ∀ s s', sh.Secret s → sh.Secret s' →
    maskText isWord (sh.text p s q) = maskText isWord (sh.text p s' q)

end Shape

theorem jsonEscape_ne_nil {s : List Char} (h : s ≠ []) : jsonEscape s ≠ [] := by
  obtain ⟨c,s,rfl⟩ := List.exists_cons_of_ne_nil h
  have hc : jsonEscapeChar c ≠ [] := by
    unfold jsonEscapeChar
    split <;> try simp
    split <;> simp
  simp [jsonEscape,hc]

theorem keyword_ne_nil {key : List Char} (h : keyword.Matches key) : key ≠ [] := by
  rintro rfl
  have hrun : ([],[]) ∉ keyword.run ([] : List Char) := by decide +kernel
  exact hrun (mem_run_iff.2 ⟨rfl,h⟩)

section
variable {key q z q' z' : List Char} {s : Char}

theorem credential_before_of (hkey : keyword.Matches key) (hq : (Regex.optional isQuote).Matches q)
    (hz : (Regex.star isWhitespace).Matches z) (hs : oneOf ":=" s = true)
    (hz' : (Regex.star isWhitespace).Matches z') (hq' : (Regex.optional isQuote).Matches q') :
    credential.before.Matches (key++(q++z++s::(z'++q'))) := by
  have hsign : (one (oneOf ":=")).Matches [s] := matches_one.2 ⟨s,rfl,hs⟩
  have h := Matches.seq (matches_optional_nil isQuote) (.seq hkey (.seq hq (.seq hz (.seq hsign
    (.seq hz' hq')))))
  simpa [credential] using h

/-- The value of a key is the run of its class behind the sign. -/
theorem credential_leads (hkey : keyword.Matches key) (hq : (Regex.optional isQuote).Matches q)
    (hz : (Regex.star isWhitespace).Matches z) (hs : oneOf ":=" s = true)
    (hz' : (Regex.star isWhitespace).Matches z') (hq' : (Regex.optional isQuote).Matches q') :
    credential.Leads isValue key (q++z++s::(z'++q')) where
  chars x hx := value_of_keyword (hkey.accepts x hx)
  before := credential_before_of hkey hq hz hs hz' hq'
  only d f g v r c hc hne hv hcut hb := by
    simp only [Regex.optional,Regex.star,matches_chars] at hq hz hz' hq'
    obtain ⟨y,s',u,w,hb,hy,hs',hu,hw⟩ := credential_before hb
    have hblank : ∀ {l l' : List Char}, (∀ x ∈ l, isWhitespace x = true) →
        (∀ x ∈ l', isQuote x = true) → ∀ x ∈ l++l', isValue x = false := by
      intro l l' hl hl' x hx
      exact (List.mem_append.1 hx).elim (fun h => not_value_of_whitespace (hl x h))
        fun h => not_value_of_quote (hl' x h)
    -- The key has no sign and ends with a letter, so the sign stands behind it.
    obtain ⟨f,rfl,rfl⟩ : ∃ f₁, y = d++key++f₁ ∧ f = f₁++s'::(u++w) := by
      obtain ⟨a,ha,hcut⟩ | ⟨a,ha,hcut⟩ := List.append_eq_append_iff.1 hb
      · exact ⟨a,ha,hcut⟩
      · cases a with
        | nil => exact ⟨[],by simpa using ha.symm,by simpa using hcut.symm⟩
        | cons b a =>
          exfalso
          simp only [List.cons_append,List.cons.injEq] at hcut
          obtain ⟨rfl,hcut⟩ := hcut
          obtain ⟨k,x,rfl⟩ := List.eq_nil_or_concat' key |>.resolve_left (keyword_ne_nil hkey)
          have hx := hkey.accepts x (by simp)
          obtain rfl | ⟨a,b,rfl⟩ := List.eq_nil_or_concat' a
          · rw [← List.append_assoc] at ha
            obtain ⟨-,hlast⟩ := List.append_singleton_inj.mp ha
            exact Bool.false_ne_true ((not_sign_of_keyword hx).symm.trans (hlast ▸ hs'))
          · rw [← List.append_assoc,← List.cons_append,← List.append_assoc] at ha
            obtain ⟨-,hlast⟩ := List.append_singleton_inj.mp ha
            have hb := hblank hu hw b (by simp [hcut])
            exact Bool.false_ne_true (hb.symm.trans (hlast ▸ value_of_keyword hx))
    obtain ⟨x,v,rfl⟩ := List.exists_cons_of_ne_nil hne
    have hnosign : ∀ x ∈ q++z, oneOf ":=" x = false := by
      intro x hx
      rw [← Bool.not_eq_true]
      intro hsign
      have hstop := (List.mem_append.1 hx).elim (fun h => not_value_of_quote (hq.1 x h))
        fun h => not_value_of_whitespace (hz.1 x h)
      rcases sign_cases hsign with rfl | rfl <;> exact absurd hstop (by decide)
    obtain ⟨rfl,rfl,htail⟩ := cut_unique (y:=f) (u:=q++z) (s:=s') (r:=s)
      (z:=u++w++c::g) (v:=z'++q'++(x::v++r)) (fun b hb => hy b (by simp [hb])) hs' hnosign hs
      (by simpa using hcut)
    obtain ⟨hrun,-,-⟩ := cut_unique (p:=isValue) (hblank hu hw) hc (hblank hz'.1 hq'.1)
      (hv x (by simp)) (by simpa using htail)
    rw [hrun]

end

section
variable {isWord : Char → Bool} {scheme : List Char}

theorem authorization_before_of (hne : scheme ≠ []) (hscheme : ∀ c ∈ scheme, isWord c = true) :
    (authorization isWord).before.Matches ("Authorization:".toList++(' '::scheme++[' '])) := by
  have hblank : ∀ x ∈ [' '], isWhitespace x = true := by
    intro x hx
    rw [List.mem_singleton.1 hx]
    decide
  have hspaces : (Regex.star isWhitespace).Matches [' '] := by
    rw [Regex.star,matches_chars]
    exact ⟨hblank,by simp,by simp⟩
  have hword : (plus isWord).Matches scheme := by
    rw [plus,matches_chars]
    exact ⟨hscheme,List.length_pos_of_ne_nil hne,by simp⟩
  have hend : (plus isWhitespace).Matches [' '] := by
    rw [plus,matches_chars]
    exact ⟨hblank,by simp,by simp⟩
  have h := Matches.seq (matches_word "Authorization:") (.seq hspaces (.seq hword hend))
  simpa [authorization] using h

/-- The credential of a header is the run of its class behind the name and the scheme. -/
theorem authorization_leads (hword : IsWordClass isWord) (hne : scheme ≠ [])
    (hscheme : ∀ c ∈ scheme, isWord c = true) :
    (authorization isWord).Leads isSolid "Authorization:".toList (' '::scheme++[' ']) where
  chars := forall_of_all (by decide)
  before := authorization_before_of hne hscheme
  only d f g v r c hc hv hsolid hcut hb := by
    have hletter : ∀ {u : List Char}, (∀ c ∈ u, isWord c = true) → ∀ c ∈ u, isWhitespace c = false :=
      fun hu c hc => hword.not_whitespace c (hu c hc)
    obtain ⟨y,s,x,w,u,hb,hy,hs,hw,hu,hblank⟩ := authorization_before hb
    have hname : "Authorization:".toList = "Authorization".toList++[':'] := by decide
    -- There is no second colon, so the name ends at the first one.
    obtain ⟨a,ha⟩ := suffix_of_place (p:=fun c => c == ':') (y:=y)
      (z:= ':'::(s++x::(w++u))) (u:=d++"Authorization".toList) (s:= ':') (v:=f)
      (fun c hc => by simp [hy c hc]) rfl (by rw [← hb,hname]; simp)
    have hf : f = s++x::(w++u) := by
      cases a with
      | nil => simpa using ha.symm
      | cons b a =>
        simp only [List.cons_append,List.cons.injEq] at ha
        refine absurd ?_ (not_colon_mem hword hs hw hblank)
        simp [ha.2]
    subst hf
    obtain ⟨x₀,scheme,rfl⟩ := List.exists_cons_of_ne_nil hne
    have hnot : ∀ {l : List Char}, (∀ c ∈ l, isWhitespace c = true) → ∀ c ∈ l, isSolid c = false := by
      intro l hl c hc
      simp [isSolid,hl c hc]
    obtain ⟨rfl,rfl,htail⟩ := cut_unique (p:=isSolid) (y:=s) (u:=[' ']) (s:=x) (r:=x₀)
      (z:=w++u++c::g) (v:=scheme++ ' '::(v++r)) (hnot hs)
      (by simp [isSolid,hletter hw x (by simp)]) (forall_not_of_any (l:=[' ']) (by decide))
      (by simp [isSolid,hletter hscheme x₀ (by simp)]) (by simpa using hcut)
    obtain ⟨b,u,rfl⟩ := List.exists_cons_of_ne_nil hu
    obtain ⟨rfl,rfl,hend⟩ := cut_unique (p:=isWhitespace) (y:=w) (u:=scheme) (s:=b) (r:= ' ')
      (z:=u++c::g) (v:=v++r) (fun c hc => hletter hw c (by simp [hc])) (hblank b (by simp))
      (fun c hc => hletter hscheme c (by simp [hc])) (by decide) (by simpa using htail)
    cases u with
    | nil => rfl
    | cons b u =>
      obtain ⟨c₀,v,rfl⟩ := List.exists_cons_of_ne_nil hv
      simp only [List.cons_append,List.cons.injEq] at hend
      have hstop : isSolid c₀ = false := hend.1 ▸ hnot hblank b (by simp)
      exact absurd (hstop.symm.trans (hsolid c₀ (by simp))) Bool.false_ne_true

end

section
variable {isWord : Char → Bool}

/-- A blank, or a word between blanks. -/
def Blanks (isWord : Char → Bool) (x : List Char) : Prop :=
  x = [' '] ∨ ∃ w, x = ' '::(w++[' ']) ∧ ∀ c ∈ w, isWord c = true

theorem Blanks.head? {x : List Char} (h : Blanks isWord x) (z : List Char) :
    (x++z).head? = some ' ' := by
  obtain rfl | ⟨w,rfl,-⟩ := h <;> rfl

/-- Marks that no pattern hides, behind a mask and blanks. -/
def Marked (isWord : Char → Bool) (n : ℕ) (t : List Char) : Prop :=
  ∃ u x v, Blanks isWord x ∧ t = u++ '*'::(x++(List.replicate (n+1) '!'++v))

theorem Marked.lt_count {n : ℕ} {t : List Char} (h : Marked isWord n t) : n < t.count '!' := by
  obtain ⟨u,x,v,-,rfl⟩ := h
  simp only [List.count_append,List.count_cons,List.count_replicate_self]
  omega

/-- A pattern that keeps what stands behind a mask and blanks. -/
structure KeepsMarks (isWord : Char → Bool) (pat : Pattern Char) : Prop where
  kept : ∀ x n v, Blanks isWord x → pat.pieces (x++(List.replicate (n+1) '!'++v)) =
    (x++List.replicate (n+1) '!').map .kept++pat.pieces v
  cut : ∀ u x z, Blanks isWord x →
    pat.pieces (u++['*']++(x++z)) = pat.pieces (u++['*'])++pat.pieces (x++z)

theorem KeepsMarks.sub_kept {pat : Pattern Char} (hpat : KeepsMarks isWord pat) {x : List Char}
    (hx : Blanks isWord x) (n : ℕ) (v : List Char) :
    pat.sub MASK (x++(List.replicate (n+1) '!'++v)) =
      x++(List.replicate (n+1) '!'++pat.sub MASK v) := by
  rw [Pattern.sub,hpat.kept _ _ _ hx,Piece.shown_append,Piece.shown_kept,List.append_assoc]
  rfl

theorem exists_shown_star {ps : List (Piece Char)} {u : List Char} (h : Piece.source ps = u++['*']) :
    ∃ u', Piece.shown MASK ps = u'++['*'] := by
  obtain rfl | ⟨ps,p,rfl⟩ := List.eq_nil_or_concat' ps
  · simp [Piece.source] at h
  · cases p with
    | kept c =>
      rw [Piece.source_append,Piece.source,Piece.source] at h
      obtain ⟨-,hc⟩ := List.append_singleton_inj.mp h
      exact ⟨_,by rw [Piece.shown_append,Piece.shown,Piece.shown,hc]⟩
    | hidden w => exact ⟨Piece.shown MASK ps++['*','*'],by simp [Piece.shown,MASK]⟩

theorem KeepsMarks.sub {pat : Pattern Char} (hpat : KeepsMarks isWord pat) {n : ℕ} {t : List Char}
    (h : Marked isWord n t) : Marked isWord n (pat.sub MASK t) := by
  obtain ⟨u,x,v,hx,rfl⟩ := h
  obtain ⟨u',hu'⟩ := exists_shown_star (source_pieces pat (u++['*']))
  refine ⟨u',x,pat.sub MASK v,hx,?_⟩
  have htext : u++ '*'::(x++(List.replicate (n+1) '!'++v)) =
      u++['*']++(x++(List.replicate (n+1) '!'++v)) := by simp
  rw [Pattern.sub,htext,hpat.cut _ _ _ hx,Piece.shown_append,hu',← Pattern.sub,
    hpat.sub_kept hx]
  simp

theorem KeepsMarks.marked_of_hidden {pat : Pattern Char} (hpat : KeepsMarks isWord pat)
    {t x v w : List Char} {ps : List (Piece Char)} {n : ℕ} (hx : Blanks isWord x)
    (h : pat.pieces t = ps++.hidden w::pat.pieces (x++(List.replicate (n+1) '!'++v))) :
    Marked isWord n (pat.sub MASK t) := by
  refine ⟨Piece.shown MASK ps++['*','*'],x,pat.sub MASK v,hx,?_⟩
  rw [Pattern.sub,h,Piece.shown_append,Piece.shown,← Pattern.sub,hpat.sub_kept hx]
  simp [MASK]

/-- The group before has a sign that is no part of a word, and no mark in front of it. -/
def NeedsSign (pat : Pattern Char) : Prop :=
  ∀ b, pat.before.Matches b → ∃ y e, b = y++e ∧ '!' ∉ y ∧ ∃ c ∈ y, oneOf ":=" c = true

/-- Between blanks and at marks no match starts that needs a sign. -/
theorem NeedsSign.kept {pat : Pattern Char} (h : NeedsSign pat) (hword : IsWordClass isWord)
    (hnullable : pat.before.nullable = false)
    (hstarts : ∀ x ∈ [' ','!'], pat.before.starts x = false) (x : List Char) (n : ℕ) (v : List Char)
    (hx : Blanks isWord x) : pat.pieces (x++(List.replicate (n+1) '!'++v)) =
      (x++List.replicate (n+1) '!').map .kept++pat.pieces v := by
  have hmarks : pat.pieces (List.replicate (n+1) '!'++v) =
      (List.replicate (n+1) '!').map .kept++pat.pieces v :=
    pieces_eq_kept_of_not_starts hnullable (fun c hc => hstarts c (by
      simp [List.eq_of_mem_replicate hc])) v
  have hnone : ∀ a b, x = a++b → b ≠ [] →
      pat.firstMatch (b++(List.replicate (n+1) '!'++v)) = none := by
    intro a b hab hb
    refine Option.eq_none_iff_forall_ne_some.2 fun m hm => ?_
    obtain ⟨ht,hbefore,-,-⟩ := firstMatch_eq_some hm
    obtain ⟨y,e,he,hmark,c,hc,hsign⟩ := h _ hbefore
    have hcx : c ∉ x := by
      intro hmem
      have hspace : c ≠ ' ' := by
        rintro rfl
        cases hsign
      obtain rfl | ⟨w,rfl,hw⟩ := hx
      · simp [hspace] at hmem
      · have hcw : c ∈ w := by simpa [hspace] using hmem
        exact Bool.false_ne_true ((hword.not_sign c hsign).symm.trans (hw c hcw))
    have hcut : b++(List.replicate (n+1) '!'++v) = y++(e++m.hidden++m.after++m.rest) := by
      simpa [he] using ht
    obtain ⟨f,hf,hcut⟩ | ⟨f,hf,-⟩ := List.append_eq_append_iff.1 hcut
    · cases f with
      | nil => exact hcx (by rw [hab]; simpa [hf] using Or.inr hc)
      | cons z f =>
        rw [List.replicate_succ,List.cons_append,List.cons_append,List.cons.injEq] at hcut
        exact hmark (by simp [hf,← hcut.1])
    · exact hcx (by simp [hab,hf,hc])
  rw [pieces_eq_kept hnone,hmarks]
  simp

theorem credential_starts : ∀ x ∈ [' ','!','@','*'], credential.before.starts x = false :=
  forall_not_of_any (by decide +kernel)

theorem pieces_star_blank {pat : Pattern Char} {accepts : Char → Bool} {least : ℕ}
    (hpat : pat.Reaches accepts least) (hspace : accepts ' ' = false)
    (hstar : pat.before.accepts '*' = false) (u x z : List Char) (hx : Blanks isWord x) :
    pat.pieces (u++['*']++(x++z)) = pat.pieces (u++['*'])++pat.pieces (x++z) := by
  have hapart : pat.Apart accepts (u++['*']) (x++z) := by
    refine ⟨fun c hc => ?_,fun a d f g hu _ hd _ hb => ?_⟩
    · rw [hx.head?] at hc
      cases hc
      exact hspace
    · obtain ⟨d,x,rfl⟩ := List.eq_nil_or_concat' d |>.resolve_left hd
      rw [← List.append_assoc] at hu
      obtain ⟨-,hx⟩ := List.append_singleton_inj.mp hu
      exact absurd (by simp [← hx]) (hb.not_mem hstar)
  exact hapart.pieces hpat

theorem credential_keepsMarks (hword : IsWordClass isWord) : KeepsMarks isWord credential where
  kept := by
    refine NeedsSign.kept (fun b hb => ⟨b,[],by simp,hb.not_mem (by decide +kernel),?_⟩) hword rfl
      fun x hx => credential_starts x (List.mem_of_mem_take (i:=2) hx)
    obtain ⟨y,s,z,q,rfl,-,hs,-⟩ := credential_before hb
    exact ⟨s,by simp,hs⟩
  cut := pieces_star_blank credential_reaches (by decide) (by decide +kernel)

theorem url_ignores {c : Char} (h : isWhitespace c = true) : urlCredential.Ignores c := by
  have hnot : ∀ {x : Char}, isWhitespace x = false → (x == c) = false := by
    intro x hx
    rw [← Bool.not_eq_true,beq_iff_eq]
    rintro rfl
    exact Bool.false_ne_true (hx.symm.trans h)
  constructor
  · have hscheme : (exactly "://").accepts c = false := by
      rw [exactly,accepts_spell,← Bool.not_eq_true,List.any_eq_true]
      rintro ⟨a,ha,hac⟩
      exact Bool.false_ne_true ((hnot (forall_not_of_any (by decide) a ha)).symm.trans hac)
    have hcolon : (c == ':') = false := by
      rw [Bool.beq_comm]
      exact hnot (by decide)
    simp only [urlCredential,Regex.accepts,plus,one,hscheme,hcolon,h,Bool.or_true,Bool.not_true,
      Bool.or_self]
  · simp [urlCredential,Regex.accepts,plus,h]
  · simp only [urlCredential,Regex.accepts,one]
    rw [Bool.beq_comm]
    exact hnot (by decide)

theorem url_pieces_blanks {x : List Char} (hx : Blanks isWord x) (u z : List Char) :
    urlCredential.pieces (u++(x++z)) = urlCredential.pieces u++urlCredential.pieces (x++z) := by
  obtain ⟨y,hy⟩ : ∃ y, x++z = ' '::y := by
    obtain rfl | ⟨w,rfl,-⟩ := hx
    · exact ⟨_,rfl⟩
    · exact ⟨_,rfl⟩
  have hblank : urlCredential.pieces (' '::y) = .kept ' '::urlCredential.pieces y :=
    (url_ignores (by decide)).pieces [] y
  rw [hy,(url_ignores (by decide)).pieces,hblank]

theorem url_keepsMarks (hword : IsWordClass isWord) : KeepsMarks isWord urlCredential where
  kept := by
    refine NeedsSign.kept (fun b hb => ?_) hword rfl (forall_not_of_any (by decide +kernel))
    obtain ⟨u,rfl,-⟩ := url_before hb
    exact ⟨"://".toList,u++[':'],by simp,by decide,':',by decide,rfl⟩
  cut u x z hx := url_pieces_blanks hx (u++['*']) z

theorem authorization_keepsMarks (hword : IsWordClass isWord) :
    KeepsMarks isWord (authorization isWord) where
  kept := by
    refine NeedsSign.kept (fun b hb => ?_) hword rfl (forall_not_of_any rfl)
    simp only [authorization,matches_seq] at hb
    obtain ⟨n,e,rfl,hn,-⟩ := hb
    obtain ⟨y,hy,-⟩ := header_name hn
    exact ⟨n,e,rfl,hn.not_mem (by decide +kernel),':',by simp [hy],rfl⟩
  cut := pieces_star_blank (authorization_reaches hword) (by decide)
    (authorization_not_mask hword '*' (by decide))

theorem basic_ignores_mark : basic.Ignores '!' where
  before := by decide +kernel
  masked := by decide +kernel
  after := rfl

theorem basic_keepsMarks (hword : IsWordClass isWord) : KeepsMarks isWord basic where
  kept x n v hx := by
    have hx' : basic.pieces (x++[]) = x.map .kept++basic.pieces [] := by
      refine pieces_eq_kept fun a b hab hb => Option.eq_none_iff_forall_ne_some.2 fun m hm => ?_
      obtain ⟨ht,hbefore,hmasked,-,-⟩ := basic_reaches.cut hm
      obtain ⟨u,hu,hne,hspace⟩ := basic_before hbefore
      obtain ⟨s,u,rfl⟩ := List.exists_cons_of_ne_nil hne
      rw [List.append_nil,hu] at ht
      have hlength := congrArg List.length hab
      have hhidden := List.length_pos_of_ne_nil (basic.masked_ne_nil hmasked)
      simp only [ht,List.length_append,List.length_cons] at hlength
      obtain rfl | ⟨w,rfl,hw⟩ := hx
      · simp at hlength
        omega
      · have hletters : ∀ c ∈ w, isWhitespace c = false := fun c hc => hword.not_whitespace c (hw c hc)
        cases a with
        | nil => simp [ht] at hab
        | cons c a =>
          simp only [ht,List.cons_append,List.cons.injEq] at hab
          obtain ⟨e,he⟩ := suffix_of_place (y:=w) (z:=[' ']) (u:=a++"Basic".toList) (s:=s)
            (v:=u++m.hidden++m.rest) hletters (hspace s (by simp)) (by simpa using hab.2)
          have hend := congrArg List.length he
          simp only [List.length_append,List.length_cons,List.length_nil] at hend
          omega
    have hmarks : basic.pieces (List.replicate (n+1) '!'++v) =
        (List.replicate (n+1) '!').map .kept++basic.pieces v :=
      pieces_eq_kept_of_not_starts rfl (fun c hc => by rw [List.eq_of_mem_replicate hc]; decide) v
    have hcut := basic_ignores_mark.pieces x (List.replicate n '!'++v)
    have hmark := basic_ignores_mark.pieces [] (List.replicate n '!'++v)
    rw [List.nil_append,pieces_nil,List.nil_append] at hmark
    rw [List.append_nil,pieces_nil,List.append_nil] at hx'
    rw [List.replicate_succ,List.cons_append] at hmarks ⊢
    rw [hcut,hx',← hmark,hmarks]
    simp
  cut := pieces_star_blank basic_reaches (by decide) (by decide +kernel)

/-- Marks that the first pattern shows behind a mask and blanks are shown in the end. -/
theorem lt_count_of_marked (hword : IsWordClass isWord) {n : ℕ} {t : List Char}
    (h : Marked isWord n (credential.sub MASK t)) : n < (maskText isWord t).count '!' :=
  ((basic_keepsMarks hword).sub ((authorization_keepsMarks hword).sub
    ((url_keepsMarks hword).sub h))).lt_count

end

theorem maskText_congr {isWord : Char → Bool} {t t' : List Char}
    (h : credential.sub MASK t = credential.sub MASK t') : maskText isWord t = maskText isWord t' := by
  simp only [maskText,patterns,maskAll,List.foldl_cons,h]

theorem not_value_of_ends {q : List Char} (h : ∀ c ∈ q.head?, isWhitespace c = true) :
    ∀ c ∈ q.head?, isValue c = false := fun c hc => not_value_of_whitespace (h c hc)

theorem sub_credential_of_leads {p key e v v' r : List Char} (hp : credential.AtRest p key)
    (he : credential.Leads isValue key e) (hv : v ≠ [] ∧ ∀ c ∈ v, isValue c = true)
    (hv' : v' ≠ [] ∧ ∀ c ∈ v', isValue c = true) (hr : ∀ c ∈ r.head?, isValue c = false) :
    credential.sub MASK (p++key++e++v++r) = credential.sub MASK (p++key++e++v'++r) := by
  obtain ⟨ps,hps⟩ := hp.exists_pieces credential_reaches he
  simp only [Pattern.sub,hps v r hv.1 hv.2 hr,hps v' r hv'.1 hv'.2 hr,Piece.shown_append,Piece.shown]

theorem not_atRest {pat : Pattern Char} {p k : List Char} (h : ¬ pat.AtRest p k) :
    ∃ ps w, pat.pieces (p++k) = ps++[.hidden w] := by
  simpa [AtRest] using h

theorem matches_blank : (Regex.star isWhitespace).Matches [' '] := by
  rw [Regex.star,matches_chars]
  exact ⟨forall_of_all (by decide),by simp,by simp⟩

theorem matches_quote : (Regex.optional isQuote).Matches ['\x22'] := by
  rw [Regex.optional,matches_chars]
  exact ⟨forall_of_all (by decide),by simp,by simp⟩

theorem credential_ignores_comma : credential.Ignores ',' where
  before := by decide +kernel
  masked := by decide
  after := rfl

theorem matches_token_key : keyword.Matches "token".toList :=
  .right (.right (.right (.right (.left (matches_word "token")))))

theorem sub_token_marks (n : ℕ) :
    credential.sub MASK ("token=".toList++ ' '::List.replicate (n+1) '!') = "token= ***".toList := by
  have hbefore : credential.before.Matches "token= ".toList :=
    credential_before_of matches_token_key (matches_optional_nil _) (matches_star_nil _) (s:= '=')
      (by decide) matches_blank (matches_optional_nil _)
  have hmasked := credential_reaches.masked_of_chars (w:=List.replicate (n+1) '!') (by simp)
    fun x hx => by
      rw [List.eq_of_mem_replicate hx]
      decide
  have hpieces := credential_reaches.pieces_of (r:=[]) hbefore hmasked (by simp)
  have htext : "token=".toList++ ' '::List.replicate (n+1) '!' =
      "token= ".toList++List.replicate (n+1) '!'++[] := by simp
  rw [Pattern.sub,htext,hpieces,Piece.shown_append,Piece.shown_kept]
  rfl

theorem pieces_cons_of_starts {x : Char} (hx : x ∈ [' ','!','@','*']) (v : List Char) :
    credential.pieces (x::v) = .kept x::credential.pieces v :=
  pieces_eq_kept_of_not_starts (u:=[x]) rfl (by simpa using credential_starts x hx) v

theorem url_firstMatch_of {b w r : List Char} (hb : urlCredential.before.Matches b)
    (hw : urlCredential.masked.Matches w) :
    urlCredential.firstMatch (b++w++ '@'::r) = some ⟨b,w,['@'],r⟩ := by
  cases hm : urlCredential.firstMatch (b++w++ '@'::r) with
  | none =>
    have hsome : urlCredential.firstMatch (b++w++['@']++r) ≠ none :=
      firstMatch_ne_none hb hw (matches_one.2 ⟨'@',rfl,rfl⟩)
    exact absurd (by simpa using hm) hsome
  | some m =>
    obtain ⟨b',w',c',r'⟩ := m
    obtain ⟨ht,hb',hw',hc'⟩ := firstMatch_eq_some hm
    simp only at ht hb' hw' hc'
    obtain rfl := url_after hc'
    obtain ⟨u,rfl,hu⟩ := url_before hb
    obtain ⟨u',rfl,hu'⟩ := url_before hb'
    have hcut : u++ ':'::(w++ '@'::r) = u'++ ':'::(w'++ '@'::r') := by simpa using ht
    obtain ⟨rfl,-,htail⟩ := cut_unique (p:=fun c => c == ':') (fun c hc => by simp [(hu c hc).1]) rfl
      (fun c hc => by simp [(hu' c hc).1]) rfl hcut
    obtain ⟨rfl,-,rfl⟩ := cut_unique (p:=fun c => c == '@')
      (fun c hc => by simp [((url_masked hw).2 c hc).1]) rfl
      (fun c hc => by simp [((url_masked hw').2 c hc).1]) rfl htail
    rfl

theorem url_pieces_of {b w r : List Char} (hb : urlCredential.before.Matches b)
    (hw : urlCredential.masked.Matches w) : urlCredential.pieces (b++w++ '@'::r) =
      b.map .kept++.hidden w::.kept '@'::urlCredential.pieces r := by
  rw [pieces_of_some (url_firstMatch_of hb hw)]
  simp [Found.pieces]

theorem url_masked_of {w : List Char} (hne : w ≠ []) (hw : ∀ c ∈ w, c ≠ '@' ∧ isWhitespace c = false) :
    urlCredential.masked.Matches w := by
  simp only [urlCredential,plus,matches_chars]
  exact ⟨fun c hc => by simp [hw c hc],List.length_pos_of_ne_nil hne,by simp⟩

theorem url_before_of {user : List Char} (hne : user ≠ [])
    (huser : ∀ c ∈ user, oneOf ":/@" c = false ∧ isWhitespace c = false) :
    urlCredential.before.Matches ("://".toList++(user++[':'])) := by
  have hname : (plus fun c => !(oneOf ":/@" c || isWhitespace c)).Matches user := by
    rw [plus,matches_chars]
    exact ⟨fun c hc => by simp [huser c hc],List.length_pos_of_ne_nil hne,by simp⟩
  have hcolon : (one (· == ':')).Matches [':'] := matches_one.2 ⟨':',rfl,rfl⟩
  exact .seq (matches_literal.2 rfl) (.seq hname hcolon)

theorem not_url_before {a : Char} {p user e : List Char} :
    ¬ urlCredential.before.Matches (a::p++"://".toList++(user++[':'])++e) := by
  intro h
  obtain ⟨u,hu,hclass⟩ := url_before h
  have hcut : p++ ':'::("//".toList++user++[':']++e) = "//".toList++u++[':'] := by
    have htail := congrArg List.tail hu
    simpa using htail
  have hnot : ∀ c ∈ "//".toList++u, (c == ':') = false := by
    intro c hc
    rcases List.mem_append.1 hc with hc | hc
    · exact forall_not_of_any (p:=fun c => c == ':') (by decide) c hc
    · simp [(hclass c hc).1]
  obtain ⟨b,hb⟩ := suffix_of_place (z:=[':']) hnot rfl hcut.symm
  have hlength := congrArg List.length hb
  simp only [List.length_append,List.length_cons] at hlength
  omega

/-- No match starts in front of the password unless a group is open at its end or closed before. -/
theorem url_firstMatch_eq_none {a : Char} {user p s r : List Char}
    (huser : ∀ c ∈ user, oneOf ":/@" c = false ∧ isWhitespace c = false)
    (hclass : ∀ c ∈ s, c ≠ '@' ∧ isWhitespace c = false)
    (hopen : ¬ ∃ b h, a::p++"://".toList++(user++[':']) = b++h ∧ urlCredential.before.Matches b ∧
      ∀ c ∈ h, c ≠ '@' ∧ isWhitespace c = false)
    (hclosed : ¬ ∃ b w p', a::p = b++w++ '@'::p' ∧ urlCredential.before.Matches b ∧
      urlCredential.masked.Matches w) :
    urlCredential.firstMatch (a::(p++"://".toList++(user++[':'])++s++ '@'::r)) = none := by
  refine Option.eq_none_iff_forall_ne_some.2 fun m hm => ?_
  obtain ⟨ht,hb,hw,hafter⟩ := firstMatch_eq_some hm
  rw [url_after hafter] at ht
  have hm : ∀ c ∈ m.before++m.hidden, (c == '@') = false := by
    intro c hc
    rw [beq_eq_false_iff_ne]
    rcases List.mem_append.1 hc with hc | hc
    · rintro rfl
      exact hb.not_mem (by decide) hc
    · exact ((url_masked hw).2 c hc).1
  -- The first `@` ends the match: it stands in the text in front, or behind the password.
  by_cases hat : '@' ∈ a::p
  · obtain ⟨p₁,p₂,hp,hfirst⟩ := List.eq_append_cons_of_mem hat
    obtain ⟨hcut,-,-⟩ := cut_unique (p:=fun c => c == '@') (y:=p₁) (s:= '@')
      (z:=p₂++"://".toList++(user++[':'])++s++ '@'::r) (v:=m.rest)
      (fun c hc => by rw [beq_eq_false_iff_ne]; rintro rfl; exact hfirst hc) rfl hm rfl (by
        rw [← List.cons_append,← List.cons_append,← List.cons_append,← List.cons_append,hp] at ht
        simpa using ht)
    exact hclosed ⟨m.before,m.hidden,p₂,by rw [hp,hcut],hb,hw⟩
  · have hclass' : ∀ c ∈ a::p++"://".toList++(user++[':'])++s, (c == '@') = false := by
      intro c hc
      rw [beq_eq_false_iff_ne]
      rintro rfl
      simp only [List.mem_append] at hc
      rcases hc with ((hc | hc) | hc | hc) | hc
      · exact hat hc
      · exact absurd hc (by decide)
      · exact absurd (huser _ hc).1 (by decide)
      · exact absurd hc (by decide)
      · exact (hclass _ hc).1 rfl
    obtain ⟨hcut,-,-⟩ := cut_unique (p:=fun c => c == '@') hclass' rfl hm rfl
      (z:=r) (v:=m.rest) (by simpa using ht)
    obtain ⟨e,he,-⟩ | ⟨h',hk,hh'⟩ := List.append_eq_append_iff.1 hcut
    · exact not_url_before (he ▸ hb)
    · refine hopen ⟨m.before,h',hk,hb,fun c hc => (url_masked hw).2 c ?_⟩
      simp [hh',hc]

/-- The password of a URL is hidden with whatever a URL in front of it has left open. -/
theorem url_exists_pieces {user : List Char} (hne : user ≠ [])
    (huser : ∀ c ∈ user, oneOf ":/@" c = false ∧ isWhitespace c = false) (p : List Char) :
    ∃ ps h, ∀ s r, s ≠ [] → (∀ c ∈ s, c ≠ '@' ∧ isWhitespace c = false) →
      urlCredential.pieces (p++"://".toList++(user++[':'])++s++ '@'::r) =
        ps++.hidden (h++s)::.kept '@'::urlCredential.pieces r := by
  induction hn : p.length using Nat.strong_induction_on generalizing p with
  | _ n ih =>
    by_cases hopen : ∃ b h, p++"://".toList++(user++[':']) = b++h ∧ urlCredential.before.Matches b ∧
        ∀ c ∈ h, c ≠ '@' ∧ isWhitespace c = false
    · obtain ⟨b,h,hcut,hb,hh⟩ := hopen
      refine ⟨b.map .kept,h,fun s r hs hclass => ?_⟩
      have hw : urlCredential.masked.Matches (h++s) := url_masked_of (by simp [hs]) fun c hc =>
        (List.mem_append.1 hc).elim (hh c) (hclass c)
      rw [hcut,List.append_assoc b,url_pieces_of hb hw]
    by_cases hclosed : ∃ b w p', p = b++w++ '@'::p' ∧ urlCredential.before.Matches b ∧
        urlCredential.masked.Matches w
    · obtain ⟨b,w,p',rfl,hb,hw⟩ := hclosed
      obtain ⟨ps,h,hps⟩ := ih p'.length (by simp [← hn]; omega) p' rfl
      refine ⟨b.map .kept++.hidden w::.kept '@'::ps,h,fun s r hs hclass => ?_⟩
      have htext : b++w++ '@'::p'++"://".toList++(user++[':'])++s++ '@'::r =
          b++w++ '@'::(p'++"://".toList++(user++[':'])++s++ '@'::r) := by simp
      rw [htext,url_pieces_of hb hw,hps s r hs hclass]
      simp
    cases p with
    | nil => exact absurd ⟨_,[],by simp,url_before_of hne huser,by simp⟩ hopen
    | cons a p =>
      obtain ⟨ps,h,hps⟩ := ih p.length (by simp [← hn]) p rfl
      refine ⟨.kept a::ps,h,fun s r hs hclass => ?_⟩
      have hpieces : urlCredential.pieces (a::p++"://".toList++(user++[':'])++s++ '@'::r) =
          .kept a::urlCredential.pieces (p++"://".toList++(user++[':'])++s++ '@'::r) :=
        pieces_of_none (url_firstMatch_eq_none huser hclass hopen hclosed)
      rw [hpieces,hps s r hs hclass]
      rfl

namespace Shape

variable {isWord : Char → Bool} {key p q : List Char}

theorem json_leads (hkey : keyword.Matches key) :
    credential.Leads isValue key "\x22: \x22".toList :=
  credential_leads hkey matches_quote (matches_star_nil _) (s:= ':') (by decide) matches_blank
    matches_quote

theorem assigned_leads (hkey : keyword.Matches key) : credential.Leads isValue key "=".toList :=
  credential_leads hkey (matches_optional_nil _) (matches_star_nil _) (s:= '=') (by decide)
    (matches_star_nil _) (matches_optional_nil _)

theorem labelled_leads (hkey : keyword.Matches key) : credential.Leads isValue key ": ".toList :=
  credential_leads hkey (matches_optional_nil _) (matches_star_nil _) (s:= ':') (by decide)
    matches_blank (matches_optional_nil _)

theorem not_json_hides : ¬ (json key).Hides isWord p q := by
  intro h
  have heq := h [' '] ['x'] (by simp [Secret]) (by simp [Secret])
  have hcount := congrArg (List.count ' ') heq
  rw [count_space_maskText,count_space_maskText] at hcount
  have hspace : jsonEscape [' '] = [' '] := by decide
  have hx : jsonEscape ['x'] = ['x'] := by decide
  simp only [text,hspace,hx,List.count_append,List.count_cons] at hcount
  simp at hcount

theorem json_hides (hkey : keyword.Matches key) {s s' : List Char}
    (hp : credential.AtRest (p++['\x22']) key) (hs : s ≠ [] ∧ ∀ c ∈ jsonEscape s, isValue c = true)
    (hs' : s' ≠ [] ∧ ∀ c ∈ jsonEscape s', isValue c = true) :
    maskText isWord ((json key).text p s q) = maskText isWord ((json key).text p s' q) :=
  maskText_congr (sub_credential_of_leads hp (json_leads hkey)
    ⟨jsonEscape_ne_nil hs.1,hs.2⟩ ⟨jsonEscape_ne_nil hs'.1,hs'.2⟩
    (by simpa using not_value_of_quote (c:= '\x22') (by decide)))

/-- A value that is open in front of the key takes the key and its sign, too. -/
theorem assigned_hides (hkey : keyword.Matches key) (hq : (assigned key).Ends q) :
    (assigned key).Hides isWord p q := by
  intro s s' hs hs'
  refine maskText_congr ?_
  by_cases hp : credential.AtRest p key
  · exact sub_credential_of_leads hp (assigned_leads hkey) hs hs' (not_value_of_ends hq)
  · obtain ⟨ps,w,hps⟩ := not_atRest hp
    have hopen : ∀ s, (assigned key).Secret s → credential.sub MASK ((assigned key).text p s q) =
        Piece.shown MASK ps++(MASK++credential.sub MASK q) := by
      intro s hs
      have hv : ∀ c ∈ '='::s, isValue c = true := by
        intro c hc
        rcases List.mem_cons.1 hc with rfl | hc
        · decide
        · exact hs.2 c hc
      have hpieces := credential_reaches.pieces_of_open hps hv (not_value_of_ends hq)
      have htext : (assigned key).text p s q = p++key++ '='::s++q := by simp [text]
      rw [Pattern.sub,htext,hpieces,Piece.shown_append]
      rfl
    rw [hopen s hs,hopen s' hs']

theorem secret_marks (sh : Shape) (n : ℕ) : sh.Secret (List.replicate (n+1) '!') := by
  have hne : List.replicate (n+1) '!' ≠ [] := by simp
  have hall : ∀ {P : Char → Prop}, P '!' → ∀ c ∈ List.replicate (n+1) '!', P c := by
    intro P hP c hc
    rwa [List.eq_of_mem_replicate hc]
  cases sh with
  | json => exact hne
  | assigned => exact ⟨hne,hall (by decide)⟩
  | labelled => exact ⟨hne,hall (by decide)⟩
  | url => exact ⟨hne,hall (by decide)⟩
  | header => exact ⟨hne,hall (by decide)⟩

/-- A shape that shows all marks does not hide the secret. -/
theorem not_hides_of_lt_count {sh : Shape}
    (h : ∀ n, n < (maskText isWord (sh.text p (List.replicate (n+1) '!') q)).count '!') :
    ¬ sh.Hides isWord p q := by
  intro hhides
  let n := (maskText isWord (sh.text p (List.replicate 1 '!') q)).count '!'
  have hlt := h n
  rw [hhides _ _ (sh.secret_marks n) (sh.secret_marks 0)] at hlt
  exact lt_irrefl _ hlt

/-- Behind `key: ` the secret is hidden exactly if no value is open in front of the key. -/
theorem labelled_hides_iff (hword : IsWordClass isWord) (hkey : keyword.Matches key)
    (hq : (labelled key).Ends q) : (labelled key).Hides isWord p q ↔ credential.AtRest p key := by
  constructor
  · intro hhides
    by_contra hp
    obtain ⟨ps,w,hps⟩ := not_atRest hp
    refine not_hides_of_lt_count (fun n => lt_count_of_marked hword ?_) hhides
    have hpieces := credential_reaches.pieces_of_open (v:=[':'])
      (z:=[' ']++(List.replicate (n+1) '!'++q)) hps (forall_of_all (by decide))
      (by simpa using not_value_of_whitespace (c:= ' ') (by decide))
    have htext : (labelled key).text p (List.replicate (n+1) '!') q =
        p++key++[':']++([' ']++(List.replicate (n+1) '!'++q)) := by simp [text]
    exact (credential_keepsMarks hword).marked_of_hidden (.inl rfl) (htext ▸ hpieces)
  · exact fun hp s s' hs hs' =>
      maskText_congr (sub_credential_of_leads hp (labelled_leads hkey) hs hs' (not_value_of_ends hq))

/-- Marks that are shown in one text and hidden behind a comma in another one tell them apart. -/
theorem maskText_ne_of_marked (hword : IsWordClass isWord) {u x t : List Char}
    (hx : (credential.sub MASK x).count '!' = 0)
    (ht : Marked isWord ((credential.sub MASK u).count '!') (credential.sub MASK t)) :
    maskText isWord (u++ ','::x) ≠ maskText isWord t := by
  intro heq
  have hlt := lt_count_of_marked hword ht
  have hle := count_maskText_le_credential (c:= '!') (by decide) isWord (u++ ','::x)
  rw [heq,credential_ignores_comma.sub,List.count_append,List.count_cons_of_ne (by decide),hx] at hle
  omega

/-- A password with a key at its end changes what is hidden behind the URL. -/
theorem exists_not_url_hides (hword : IsWordClass isWord) (p user : List Char) :
    ∃ q, ¬ (url user).Hides isWord p q := by
  let u := p++"://".toList++(user++[':'])
  let n := (credential.sub MASK u).count '!'
  let q := "token=".toList++ ' '::List.replicate (n+1) '!'
  have hsecret : ∀ {s : List Char}, s ≠ [] → s.all (fun c => c != '/' && !isWhitespace c) = true →
      (url user).Secret s := fun hne hs => ⟨hne,fun c hc => by simpa using forall_of_all hs c hc⟩
  have hrest : (credential.sub MASK ('@'::q)).count '!' = 0 := by
    rw [Pattern.sub,pieces_cons_of_starts (by simp),Piece.shown,← Pattern.sub,sub_token_marks]
    rfl
  have hmarked : Marked isWord n (credential.sub MASK ((url user).text p ",token=".toList q)) := by
    have htext : (url user).text p ",token=".toList q =
        u++ ','::("token=".toList++"@token=".toList++([' ']++(List.replicate (n+1) '!'++[]))) := by
      simp [text,u,q]
    have hvalue := credential_reaches.pieces_of (w:="@token=".toList)
      (r:=[' ']++(List.replicate (n+1) '!'++[])) matches_token
      (credential_reaches.masked_of_chars (by decide) (forall_of_all (by decide)))
      (by simpa using not_value_of_whitespace (c:= ' ') (by decide))
    have hpieces : credential.pieces ((url user).text p ",token=".toList q) =
        (credential.pieces u++.kept ','::"token=".toList.map .kept)++.hidden "@token=".toList::
          credential.pieces ([' ']++(List.replicate (n+1) '!'++[])) := by
      rw [htext,credential_ignores_comma.pieces,hvalue]
      simp
    exact (credential_keepsMarks hword).marked_of_hidden (.inl rfl) hpieces
  refine ⟨q,fun hhides => maskText_ne_of_marked hword hrest hmarked ?_⟩
  have htext : (url user).text p [','] q = u++ ','::('@'::q) := by simp [text,u]
  exact htext ▸ hhides [','] ",token=".toList (hsecret (by decide) (by decide))
    (hsecret (by decide) (by decide))

/-- A credential with a key at its end changes what is hidden behind the header. -/
theorem exists_not_header_hides (hword : IsWordClass isWord) (p scheme : List Char) :
    ∃ q, (header scheme).Ends q ∧ ¬ (header scheme).Hides isWord p q := by
  let u := p++"Authorization:".toList++(' '::scheme++[' '])
  let n := (credential.sub MASK u).count '!'
  let q := ' '::List.replicate (n+1) '!'
  have hrest : (credential.sub MASK ("token=".toList++q)).count '!' = 0 := by
    rw [sub_token_marks]
    rfl
  have hmarked : Marked isWord n (credential.sub MASK ((header scheme).text p ",*".toList q)) := by
    have htext : (header scheme).text p ",*".toList q =
        u++ ','::('*'::([' ']++(List.replicate (n+1) '!'++[]))) := by simp [text,u,q]
    have hkept : credential.sub MASK ('*'::([' ']++(List.replicate (n+1) '!'++[]))) =
        '*'::([' ']++(List.replicate (n+1) '!'++[])) := by
      rw [Pattern.sub,pieces_cons_of_starts (by simp),Piece.shown,← Pattern.sub,
        (credential_keepsMarks hword).sub_kept (.inl rfl)]
      rfl
    rw [htext,credential_ignores_comma.sub,hkept]
    exact ⟨credential.sub MASK u++[','],[' '],[],.inl rfl,by simp⟩
  refine ⟨q,by simp [Ends,q]; decide,fun hhides => maskText_ne_of_marked hword hrest hmarked ?_⟩
  have htext : (header scheme).text p ",token=".toList q = u++ ','::("token=".toList++q) := by
    simp [text,u]
  exact htext ▸ hhides ",token=".toList ",*".toList ⟨by decide,forall_not_of_any (by decide)⟩
    ⟨by decide,forall_not_of_any (by decide)⟩

/-- A URL is left alone by the first pattern when no value is open in front of it and no key with a
sign stands in the user and the password. -/
theorem sub_credential_url {user s : List Char} (hp : credential.AtRest p "://".toList)
    (hkey : ∀ b, credential.before.Matches b → ¬ b <:+: user++ ':'::s) :
    credential.sub MASK ((url user).text p s q) =
      credential.sub MASK p++"://".toList++(user++[':'])++s++ '@'::credential.sub MASK q := by
  have hover : ∀ d f, ¬ credential.before.Matches (d++"://".toList++f) := fun d f hb =>
    hb.not_mem (x:= '/') (by decide +kernel) (by simp)
  have hrest := hp.pieces credential_reaches (forall_of_all (by decide)) hover
    ((user++ ':'::s)++('@'::q))
  have hscheme : credential.pieces ("://".toList++((user++ ':'::s)++('@'::q))) =
      "://".toList.map .kept++credential.pieces ((user++ ':'::s)++('@'::q)) :=
    pieces_eq_kept_of_not_starts rfl (forall_not_of_any (by decide +kernel)) _
  have huser : credential.pieces ((user++ ':'::s)++('@'::q)) =
      (user++ ':'::s).map .kept++credential.pieces ('@'::q) := by
    refine pieces_eq_kept fun a b hab _ => Option.eq_none_iff_forall_ne_some.2 fun m hm => ?_
    obtain ⟨ht,hbefore,-,-⟩ := firstMatch_eq_some hm
    have hcut : b++ '@'::q = m.before++(m.hidden++m.after++m.rest) := by simpa using ht
    obtain ⟨f,hf,hcut⟩ | ⟨e,he,-⟩ := List.append_eq_append_iff.1 hcut
    · cases f with
      | nil =>
        refine hkey m.before hbefore ?_
        rw [hab,hf,List.append_nil]
        exact (List.suffix_append a b).isInfix
      | cons x f =>
        simp only [List.cons_append,List.cons.injEq] at hcut
        exact hbefore.not_mem (x:= '@') (by decide +kernel) (by simp [hf,← hcut.1])
    · refine hkey m.before hbefore ?_
      rw [hab,he]
      exact ((List.prefix_append m.before e).isInfix).trans (List.suffix_append a _).isInfix
  have htext : (url user).text p s q = p++"://".toList++((user++ ':'::s)++ '@'::q) := by simp [text]
  rw [Pattern.sub,htext,hrest,hscheme,huser,pieces_cons_of_starts (x:= '@') (by simp)]
  simp [Piece.shown,Pattern.sub]

/-- What the URL and its surroundings must not have. -/
structure PlainUrl (p user s : List Char) : Prop where
  user_ne_nil : user ≠ []
  user_chars : ∀ c ∈ user, oneOf ":/@" c = false ∧ isWhitespace c = false
  atRest : credential.AtRest p "://".toList
  not_at : '@' ∉ s
  not_key : ∀ b, credential.before.Matches b → ¬ b <:+: user++ ':'::s

theorem url_hides {user s s' : List Char} (hs : (url user).Secret s) (hs' : (url user).Secret s')
    (hplain : PlainUrl p user s) (hplain' : PlainUrl p user s') :
    maskText isWord ((url user).text p s q) = maskText isWord ((url user).text p s' q) := by
  obtain ⟨ps,h,hps⟩ := url_exists_pieces hplain.user_ne_nil hplain.user_chars
    (credential.sub MASK p)
  have hsub : ∀ s, (url user).Secret s → PlainUrl p user s →
      urlCredential.sub MASK (credential.sub MASK ((url user).text p s q)) =
        Piece.shown MASK ps++(MASK++ '@'::urlCredential.sub MASK (credential.sub MASK q)) := by
    intro s hs hplain
    rw [sub_credential_url hplain.atRest hplain.not_key,Pattern.sub,hps s _ hs.1,Piece.shown_append]
    · rfl
    · exact fun c hc => ⟨fun hat => hplain.not_at (hat ▸ hc),(hs.2 c hc).2⟩
  simp only [maskText,patterns,maskAll,List.foldl_cons,hsub s hs hplain,hsub s' hs' hplain']

end Shape

end WzonePortal.Masking
