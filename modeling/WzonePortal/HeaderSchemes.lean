import WzonePortal.MaskShapes

/-! Headers whose scheme is no word. The header pattern asks for a word between the name and the
credential, so it passes by a scheme with any other sign in it; a credential that begins with a
comma and goes on with marks is then shown by all four patterns. -/
namespace WzonePortal.Masking

open Regex Pattern

/-- What stands in an HTTP header for a scheme: it has no blank and no colon. -/
def IsScheme (scheme : List Char) : Prop :=
  scheme ≠ [] ∧ ∀ c ∈ scheme, c ≠ ':' ∧ isWhitespace c = false

section
variable {isWord : Char → Bool} {n : ℕ} {t u w : List Char} {pat : Pattern Char}

/-- A scheme that is no word. -/
def Foreign (isWord : Char → Bool) (w : List Char) : Prop :=
  (∀ c ∈ w, c ≠ ':' ∧ isWhitespace c = false) ∧ ∃ c ∈ w, isWord c = false

/-- The comma and the marks behind such a scheme. -/
def Unhidden (isWord : Char → Bool) (n : ℕ) (t : List Char) : Prop :=
  ∃ u w v, t = u++ ' '::(w++ ' '::(','::List.replicate (n+1) '!'++v)) ∧ Foreign isWord w ∧
    ∀ c ∈ v.head?, isWhitespace c = true

theorem Unhidden.lt_count (h : Unhidden isWord n t) : n < t.count '!' := by
  obtain ⟨u,w,v,rfl,-,-⟩ := h
  simp only [List.count_append,List.count_cons,List.count_replicate_self]
  omega

theorem accepts_whitespace {c : Char} (h : isWhitespace c = true) :
    ∀ pat ∈ patterns isWord, pat.masked.accepts c = false := by
  simp only [patterns,List.mem_cons,List.not_mem_nil,or_false]
  rintro _ (rfl | rfl | rfl | rfl)
  · exact not_value_of_whitespace h
  · simp [urlCredential,plus,Regex.accepts,h]
  · simp [authorization,plus,Regex.accepts,h]
  · exact not_base64_of_whitespace h

theorem before_last (hpat : pat ∈ patterns isWord) {b : List Char} {c : Char}
    (h : pat.before.Matches (b++[c])) : c ≠ ',' ∧ c ≠ '!' := by
  have hnot : ∀ {u v : List Char}, b++[c] = u++v → v ≠ [] → (∀ x ∈ v, x ≠ ',' ∧ x ≠ '!') →
      c ≠ ',' ∧ c ≠ '!' := by
    intro u v hcut hne hv
    obtain ⟨v,d,rfl⟩ := List.eq_nil_or_concat' v |>.resolve_left hne
    rw [← List.append_assoc] at hcut
    obtain ⟨-,hc⟩ := List.append_singleton_inj.mp hcut
    exact hc ▸ hv d (by simp)
  have hblank : ∀ {x : Char}, isWhitespace x = true → x ≠ ',' ∧ x ≠ '!' := by
    rintro x hx
    constructor <;> rintro rfl <;> cases hx
  simp only [patterns,List.mem_cons,List.not_mem_nil,or_false] at hpat
  obtain rfl | rfl | rfl | rfl := hpat
  · have haccepts := h.accepts c (by simp)
    have hcomma : credential.before.accepts ',' = false := by decide +kernel
    have hbang : credential.before.accepts '!' = false := by decide +kernel
    constructor <;> rintro rfl
    · exact Bool.false_ne_true (hcomma.symm.trans haccepts)
    · exact Bool.false_ne_true (hbang.symm.trans haccepts)
  · obtain ⟨u,hu,-⟩ := url_before h
    exact hnot hu (by simp) (by simp)
  · obtain ⟨y,s,x,w,v,hb,-,-,-,hv,hv'⟩ := authorization_before h
    exact hnot (u:=y++ ':'::(s++x::w)) (by simpa using hb) hv fun x hx => hblank (hv' x hx)
  · obtain ⟨v,hb,hv,hv'⟩ := basic_before h
    exact hnot hb hv fun x hx => hblank (hv' x hx)

theorem Foreign.shown (hword : IsWordClass isWord) {ps : List (Piece Char)}
    (h : Foreign isWord (Piece.source ps)) : Foreign isWord (Piece.shown MASK ps) := by
  refine ⟨fun c hc => ?_,?_⟩
  · rcases Piece.mem_shown hc with hc | hc
    · rw [eq_of_mem_mask hc]
      decide
    · exact h.1 c hc
  · by_cases hhidden : ∃ v, .hidden v ∈ ps
    · obtain ⟨v,hv⟩ := hhidden
      obtain ⟨as,bs,rfl⟩ := List.append_of_mem hv
      exact ⟨'*',by simp [Piece.shown_append,Piece.shown,MASK],hword.not_mask '*' (by decide)⟩
    · rw [Piece.shown_eq_source fun v hv => absurd ⟨v,hv⟩ hhidden]
      exact h.2

/-- The header pattern does not come as far as a blank behind such a scheme. -/
theorem Foreign.not_authorization (h : Foreign isWord w) {a b : List Char}
    (hcut : u++ ' '::(w++[' ']) = a++b) : ¬ (authorization isWord).before.Matches b := by
  intro hb
  obtain ⟨y,s,x,x',v,rfl,-,hs,hx,hv,hblank⟩ := authorization_before hb
  obtain ⟨c₀,hc₀,hforeign⟩ := h.2
  obtain ⟨v,b,rfl⟩ := List.eq_nil_or_concat' v |>.resolve_left hv
  have hinit : u++ ' '::w = a++y++ ':'::s++(x::x')++v := by
    have heq : (u++ ' '::w)++[' '] = (a++y++ ':'::s++(x::x')++v)++[b] := by simpa using hcut
    exact (List.append_singleton_inj.mp heq).1
  obtain ⟨w,d,rfl⟩ := List.eq_nil_or_concat' w |>.resolve_left (List.ne_nil_of_mem hc₀)
  obtain rfl | ⟨v,e,rfl⟩ := List.eq_nil_or_concat' v
  · have heq : (u++[' '])++(w++[d]) = (a++y++ ':'::s)++(x::x') := by simpa using hinit
    obtain ⟨e,he,hw⟩ | ⟨e,-,hx'⟩ := List.append_eq_append_iff.1 heq
    · obtain rfl | ⟨e,f,rfl⟩ := List.eq_nil_or_concat' e
      · exact Bool.false_ne_true (hforeign.symm.trans (hx c₀ (by rwa [hw] at hc₀)))
      · -- The word would follow a colon or a blank of the scheme.
        have hf := h.1 f (by simp [hw])
        obtain rfl | ⟨s,b,rfl⟩ := List.eq_nil_or_concat' s
        · rw [← List.append_assoc] at he
          obtain ⟨-,hlast⟩ := List.append_singleton_inj.mp he
          exact hf.1 hlast.symm
        · have hlast : a++y++ ':'::s++[b] = u++[' ']++e++[f] := by simpa using he
          obtain ⟨-,hlast⟩ := List.append_singleton_inj.mp hlast
          exact Bool.false_ne_true (hf.2.symm.trans (hlast ▸ hs b (by simp)))
    · have hletter := hx c₀ (by simp only [hx',List.mem_append,hc₀,or_true])
      exact Bool.false_ne_true (hforeign.symm.trans hletter)
  · -- The scheme is solid, so only one blank stands behind it.
    have hlast : u++ ' '::w++[d] = a++y++ ':'::s++(x::x')++v++[e] := by simpa using hinit
    obtain ⟨-,hlast⟩ := List.append_singleton_inj.mp hlast
    exact Bool.false_ne_true ((h.1 d (by simp)).2.symm.trans (hlast ▸ hblank e (by simp)))

theorem before_ne_nil (hpat : pat ∈ patterns isWord) {b : List Char} (h : pat.before.Matches b) :
    b ≠ [] := by
  rintro rfl
  simp only [patterns,List.mem_cons,List.not_mem_nil,or_false] at hpat
  obtain rfl | rfl | rfl | rfl := hpat <;> cases h.nullable

/-- Only the URL and the header pattern hide what begins with a comma: behind a colon, and behind a
word. -/
theorem not_hidden_comma (hpat : pat ∈ patterns isWord) {a b z : List Char}
    (hcut : u++ ' '::(w++[' ']) = a++b) (h : Foreign isWord w) (hb : pat.before.Matches b) :
    ¬ pat.masked.Matches (','::z) := by
  intro hmasked
  have haccepts := hmasked.accepts ',' (by simp)
  simp only [patterns,List.mem_cons,List.not_mem_nil,or_false] at hpat
  obtain rfl | rfl | rfl | rfl := hpat
  · cases haccepts
  · obtain ⟨v,rfl,-⟩ := url_before hb
    have hlast : (u++ ' '::w)++[' '] = a++("://".toList++v)++[':'] := by simpa using hcut
    obtain ⟨-,hlast⟩ := List.append_singleton_inj.mp hlast
    cases hlast
  · exact h.not_authorization hcut hb
  · cases haccepts

theorem Foreign.marks_kept (h : Foreign isWord w) (hpat : pat ∈ patterns isWord)
    {as ms bs : List (Piece Char)} (hps : pat.pieces t = as++(ms++bs))
    (has : Piece.source as = u++ ' '::(w++[' ']))
    (hms : Piece.source ms = ','::List.replicate (n+1) '!') : ∀ z, .hidden z ∉ ms := by
  intro z hz
  obtain ⟨cs,ds,rfl⟩ := List.append_of_mem hz
  have hcut : pat.pieces t = (as++cs)++.hidden z::(ds++bs) := by simpa using hps
  obtain ⟨m,ps,hm,rfl,hpre,-⟩ := match_of_hidden hcut
  obtain ⟨-,hbefore,hmasked,-⟩ := firstMatch_eq_some hm
  have hsource : u++ ' '::(w++[' '])++Piece.source cs = Piece.source ps++m.before := by
    rw [← has,← Piece.source_append,hpre,Piece.source_append,Piece.source_kept]
  rw [Piece.source_append,Piece.source] at hms
  obtain hnil | ⟨e,c,he⟩ := List.eq_nil_or_concat' (Piece.source cs)
  · rw [hnil,List.append_nil] at hsource
    obtain ⟨x,z,hz⟩ := List.exists_cons_of_ne_nil (pat.masked_ne_nil hmasked)
    rw [hnil,hz,List.nil_append,List.cons_append,List.cons.injEq] at hms
    exact not_hidden_comma hpat hsource h hbefore (z:=z) (by rw [← hms.1,← hz]; exact hmasked)
  · obtain ⟨b,d,hb⟩ := List.eq_nil_or_concat' m.before |>.resolve_left (before_ne_nil hpat hbefore)
    rw [he,hb,← List.append_assoc,← List.append_assoc] at hsource
    obtain ⟨-,hlast⟩ := List.append_singleton_inj.mp hsource
    have hmark : c ∈ ','::List.replicate (n+1) '!' := by simp [← hms,he]
    rw [hb] at hbefore
    obtain ⟨hcomma,hbang⟩ := before_last hpat hbefore
    rcases List.mem_cons.1 hmark with rfl | hc
    · exact hcomma hlast.symm
    · exact hbang (hlast.symm.trans (List.eq_of_mem_replicate hc))

/-- The comma and the marks stay, and what stands in front of them. -/
theorem Unhidden.sub (hword : IsWordClass isWord) (hpat : pat ∈ patterns isWord)
    (h : Unhidden isWord n t) : Unhidden isWord n (pat.sub MASK t) := by
  obtain ⟨u,w,v,rfl,hforeign,hv⟩ := h
  have hnot : ∀ {c : Char}, isWhitespace c = true → ∀ {t : List Char} {z : List Char},
      .hidden z ∈ pat.pieces t → c ∉ z := by
    intro c hc t z hz hmem
    exact Bool.false_ne_true ((accepts_whitespace hc pat hpat).symm.trans
      ((matches_of_hidden hz).accepts c hmem))
  obtain ⟨qs,rs,hps,hqs,hrs⟩ := Piece.cut_source (x:= ' ') (fun z => hnot (by decide))
    (source_pieces pat (u++ ' '::(w++ ' '::(','::List.replicate (n+1) '!'++v))))
  obtain ⟨ws,zs,rfl,rfl,hzs⟩ := Piece.cut_source (x:= ' ') (fun z hz => hnot (by decide)
    (by rw [hps]; simp [hz])) hrs
  obtain ⟨ms,vs,rfl,hms,hvs⟩ : ∃ ms vs, zs = ms++vs ∧
      Piece.source ms = ','::List.replicate (n+1) '!' ∧
      ∀ c ∈ (Piece.shown MASK vs).head?, isWhitespace c = true := by
    cases v with
    | nil => exact ⟨zs,[],by simp,by simpa using hzs,by simp [Piece.shown]⟩
    | cons c v =>
      have hc := hv c rfl
      obtain ⟨ms,vs,rfl,hms,-⟩ := Piece.cut_source (x:=c) (fun z hz => hnot hc
        (by rw [hps]; simp [hz])) hzs
      exact ⟨ms,.kept c::vs,rfl,hms,by simpa [Piece.shown] using hc⟩
  have hcut : pat.pieces (u++ ' '::(Piece.source ws++ ' '::(','::List.replicate (n+1) '!'++v))) =
      (qs++.kept ' '::(ws++[.kept ' ']))++(ms++vs) := by rw [hps]; simp
  have hkept := hforeign.marks_kept (u:=u) hpat hcut
    (by simp [Piece.source_append,Piece.source,hqs]) hms
  refine ⟨Piece.shown MASK qs,Piece.shown MASK ws,Piece.shown MASK vs,?_,hforeign.shown hword,hvs⟩
  have hmarks : Piece.shown MASK ms = ','::List.replicate (n+1) '!' := by
    rw [Piece.shown_eq_source fun z hz => absurd hz (hkept z),hms]
  rw [Pattern.sub,hps]
  simp [Piece.shown_append,Piece.shown,hmarks]

theorem Unhidden.maskText (hword : IsWordClass isWord) (h : Unhidden isWord n t) :
    Unhidden isWord n (maskText isWord t) :=
  maskAll_invariant (fun _ hpat _ ht => ht.sub hword hpat) h

/-- A header whose scheme is no word hides no credential, whatever stands around it. -/
theorem not_header_hides (hword : IsWordClass isWord) {p q scheme : List Char}
    (hscheme : IsScheme scheme) (hforeign : ¬ ∀ c ∈ scheme, isWord c = true)
    (hq : (Shape.header scheme).Ends q) : ¬ (Shape.header scheme).Hides isWord p q := by
  have hsecret : ∀ n, (Shape.header scheme).Secret (','::List.replicate (n+1) '!') := by
    refine fun n => ⟨by simp,fun c hc => ?_⟩
    rcases List.mem_cons.1 hc with rfl | hc
    · decide
    · rw [List.eq_of_mem_replicate hc]
      decide
  have hlt : ∀ n, n < (maskText isWord
      ((Shape.header scheme).text p (','::List.replicate (n+1) '!') q)).count '!' := by
    intro n
    have hstart : Unhidden isWord n
        ((Shape.header scheme).text p (','::List.replicate (n+1) '!') q) := by
      refine ⟨p++"Authorization:".toList,scheme,q,by simp [Shape.text],⟨hscheme.2,?_⟩,hq⟩
      simpa using hforeign
    exact (hstart.maskText hword).lt_count
  intro hhides
  let n := (maskText isWord ((Shape.header scheme).text p (','::List.replicate 1 '!') q)).count '!'
  have heq := congrArg (List.count '!') (hhides _ _ (hsecret n) (hsecret 0))
  exact absurd heq (hlt n).ne'

end

end WzonePortal.Masking
