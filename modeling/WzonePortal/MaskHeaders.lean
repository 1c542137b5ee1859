import WzonePortal.HeaderSchemes

/-! The credential of a header, which the first pattern may use as a key for what stands behind it:
exactly when the masking hides it, and the shapes together. -/
namespace WzonePortal.Masking

open Regex Pattern

/-- Behind blanks and a quote stands no value but the mask. -/
def Settled (q : List Char) : Prop :=
  ∀ z w v r, q = z++w++v++r → (Regex.star isWhitespace).Matches z →
    (Regex.optional isQuote).Matches w → v ≠ [] → (∀ c ∈ v, isValue c = true) →
    (∀ c ∈ r.head?, isValue c = false) → v = MASK

theorem Settled.run_eq {q z w r : List Char} {c : Char} (h : Settled q) (hq : q = z++w++c::r)
    (hz : (Regex.star isWhitespace).Matches z) (hw : (Regex.optional isQuote).Matches w)
    (hc : isValue c = true) : (c::r).takeWhile isValue = MASK := by
  refine h z w _ ((c::r).dropWhile isValue) ?_ hz hw ?_ (fun x hx => List.mem_takeWhile_imp hx)
    (head?_dropWhile isValue _)
  · rw [List.append_assoc (z++w),List.takeWhile_append_dropWhile,hq]
  · rw [List.takeWhile_cons_of_pos hc]
    simp

theorem blanks_of_suffix {z a b : List Char} (hz : (Regex.star isWhitespace).Matches z)
    (h : z = a++b) : (Regex.star isWhitespace).Matches b := by
  simp only [Regex.star,matches_chars] at hz ⊢
  exact ⟨fun c hc => hz.1 c (by simp [h,hc]),by simp,by simp⟩

section
variable {q : List Char}

/-- A match that passes the end of a credential hides the mask behind blanks and a quote. -/
theorem Settled.of_passing (h : Settled q) (hq : ∀ c ∈ q.head?, isWhitespace c = true)
    {x f v r : List Char} (hb : credential.before.Matches (x++f)) (hf : f ≠ [])
    (hcut : q = f++v++r) (hv : v ≠ []) (hvalue : ∀ c ∈ v, isValue c = true)
    (hr : ∀ c ∈ r.head?, isValue c = false) :
    ∃ z w, f = z++w ∧ (Regex.star isWhitespace).Matches z ∧ (Regex.optional isQuote).Matches w ∧
      v = MASK := by
  have hblank : ∀ c g, f = c::g → isWhitespace c = true := fun c g hcg =>
    hq c (by simp [hcut,hcg])
  have hsign : ∀ c, oneOf ":=" c = true → isWhitespace c = false ∧ isValue c = true ∧ c ≠ '*' := by
    intro c hc
    rcases sign_cases hc with rfl | rfl <;> decide
  obtain ⟨k,z,s,z',w,hparts,hk,-,hz,hs,hz',hw,-⟩ := credential_groups hb
  obtain ⟨a,ha,hcut'⟩ | ⟨a,ha,hcut'⟩ := List.append_eq_append_iff.1 hparts
  · -- The sign stands behind the end, where blanks lead to it.
    exfalso
    have hza : (Regex.star isWhitespace).Matches a := by
      obtain ⟨e,-,he⟩ | ⟨e,he,he'⟩ := List.append_eq_append_iff.1 ha
      · exact blanks_of_suffix hz he
      · cases e with
        | nil => exact blanks_of_suffix (a:=[]) hz (by simpa using he'.symm)
        | cons c e =>
          have hc := hblank c (e++z++s::(z'++w)) (by rw [hcut',he']; simp)
          exact absurd ((hk c (by simp [he])).symm.trans hc) Bool.false_ne_true
    have hrun := h.run_eq (z:=a) (w:=[]) (c:=s) (r:=z'++w++v++r) (by rw [hcut,hcut']; simp) hza
      (matches_optional_nil _) (hsign s hs).2.1
    rw [List.takeWhile_cons_of_pos (hsign s hs).2.1,MASK] at hrun
    exact (hsign s hs).2.2 (List.cons.inj hrun).1
  · cases a with
    | nil =>
      have hc := hblank s _ (by simpa using hcut'.symm)
      exact absurd ((hsign s hs).1.symm.trans hc) Bool.false_ne_true
    | cons c a =>
      simp only [List.cons_append,List.cons.injEq] at hcut'
      obtain ⟨e,he,he'⟩ | ⟨e,he,he'⟩ := List.append_eq_append_iff.1 hcut'.2
      · obtain ⟨c,f,rfl⟩ := List.exists_cons_of_ne_nil hf
        have hquote : isQuote c = true := by
          rw [Regex.optional,matches_chars] at hw
          exact hw.1 c (by simp [he'])
        have hc := hblank c f rfl
        rcases quote_cases hquote with rfl | rfl <;> cases hc
      · have hze := blanks_of_suffix hz' he
        exact ⟨e,w,he',hze,hw,h e w v r (by rw [hcut,he']) hze hw hv hvalue hr⟩

theorem not_starts_of_whitespace {c : Char} (h : isWhitespace c = true) :
    credential.before.starts c = false := by
  have hquote : isQuote c = false := by
    rw [← Bool.not_eq_true]
    intro hq
    rcases quote_cases hq with rfl | rfl <;> cases h
  have hkey : keyword.starts c = false := by
    rw [← Bool.not_eq_true]
    exact fun hk => not_whitespace_of_value (value_of_keyword (accepts_of_starts hk)) h
  have hstarts : credential.before.starts c = (isQuote c || (keyword.starts c || false)) := rfl
  rw [hstarts,hquote,hkey]
  rfl

theorem pieces_settled {z w : List Char} (hz : (Regex.star isWhitespace).Matches z)
    (hw : (Regex.optional isQuote).Matches w) (r : List Char) :
    credential.pieces (z++w++MASK++r) = (z++w++MASK).map .kept++credential.pieces r := by
  simp only [Regex.star,Regex.optional,matches_chars] at hz hw
  have hmask : credential.pieces (MASK++r) = MASK.map .kept++credential.pieces r :=
    pieces_eq_kept_of_not_starts rfl (forall_not_of_any (by decide +kernel)) r
  have hquote : credential.pieces (w++(MASK++r)) = w.map .kept++credential.pieces (MASK++r) := by
    refine pieces_eq_kept fun a b hab hb => Option.eq_none_iff_forall_ne_some.2 fun m hm => ?_
    obtain ⟨c,b,rfl⟩ := List.exists_cons_of_ne_nil hb
    have hlength := hw.2.2 1 rfl
    simp only [hab,List.length_append,List.length_cons] at hlength
    obtain rfl : b = [] := List.eq_nil_of_length_eq_zero (by omega)
    obtain ⟨hcut,hbefore,-,-,-⟩ := credential_reaches.cut hm
    have hquote := hw.1 c (by simp [hab])
    obtain ⟨y,s,z',q',hb,-,hs,-⟩ := credential_before hbefore
    cases hd : m.before with
    | nil => simp [hd] at hb
    | cons x d =>
      rw [hd,MASK] at hcut
      cases d with
      | nil =>
        have hmem : s ∈ [x] := by simp [← hd,hb]
        rw [List.mem_singleton.1 hmem] at hs
        simp only [List.cons_append,List.cons.injEq] at hcut
        rw [← hcut.1] at hs
        rcases quote_cases hquote with rfl | rfl <;> cases hs
      | cons x' d =>
        simp only [List.cons_append,List.cons.injEq] at hcut
        have hstar : '*' = x' := by simpa using congrArg List.head? hcut.2
        exact hbefore.not_mem (x:= '*') (by decide +kernel) (by rw [hd,← hstar]; simp)
  rw [List.append_assoc (z++w),List.append_assoc z,
    pieces_eq_kept_of_not_starts rfl (fun c hc => not_starts_of_whitespace (hz.1 c hc)),hquote,hmask]
  simp

/-- The first pattern shows the same of what stands behind a credential, whatever the credential. -/
theorem Settled.sub_append (h : Settled q) (hq : ∀ c ∈ q.head?, isWhitespace c = true)
    (x : List Char) : credential.sub MASK (x++q) = credential.sub MASK x++credential.sub MASK q := by
  have hstop : ∀ c ∈ q.head?, isValue c = false := fun c hc => not_value_of_whitespace (hq c hc)
  unfold Pattern.sub
  induction x using pieces_induction credential with
  | nil => rfl
  | kept a t hm ih =>
    cases hm' : credential.firstMatch (a::(t++q)) with
    | none =>
      rw [List.cons_append,pieces_of_none hm',Piece.shown,ih]
      rfl
    | some m =>
      obtain ⟨hcut,hbefore,hmasked,hrest,-⟩ := credential_reaches.cut hm'
      have hvalue := credential_reaches.chars_of_masked hmasked
      obtain ⟨c,v,hv⟩ := List.exists_cons_of_ne_nil (credential.masked_ne_nil hmasked)
      have hc : isValue c = true := hvalue c (by simp [hv])
      have hcut' : (a::t)++q = m.before++(m.hidden++m.rest) := by simpa using hcut
      obtain ⟨f,hf,hq'⟩ | ⟨e,he,he'⟩ := List.append_eq_append_iff.1 hcut'
      · have hfne : f ≠ [] := by
          rintro rfl
          exact Bool.false_ne_true ((hstop c (by simp [hq',hv])).symm.trans hc)
        obtain ⟨z,w,rfl,hz,hw,hmask⟩ := h.of_passing hq (hf ▸ hbefore) hfne (by simpa using hq')
          (credential.masked_ne_nil hmasked) hvalue hrest
        -- Nothing is hidden in the credential, which is a part of the group before.
        have hkept : credential.pieces (a::t++[]) = (a::t).map .kept++credential.pieces [] := by
          refine pieces_eq_kept fun a' b hab _ => Option.eq_none_iff_forall_ne_some.2 fun m' hm' => ?_
          obtain ⟨hcut'',hbefore',hmasked',-,-⟩ := credential_reaches.cut hm'
          obtain ⟨c',v',hv'⟩ := List.exists_cons_of_ne_nil (credential.masked_ne_nil hmasked')
          have hc' := credential_reaches.nested a' m'.before c' (v'++m'.rest++(z++w))
            (by
              rw [List.append_nil] at hcut''
              rw [hf,hab,hcut'',hv'] at hbefore
              simpa using hbefore) hbefore'
          exact Bool.false_ne_true (hc'.symm.trans
            (credential_reaches.chars_of_masked hmasked' c' (by simp [hv'])))
        rw [List.append_nil,pieces_nil,List.append_nil] at hkept
        have hleft := credential_reaches.pieces_of hbefore hmasked hrest
        rw [← pieces_of_none hm,hkept,List.cons_append,hcut,hleft,hq',hmask,← List.append_assoc,
          pieces_settled hz hw,hf]
        simp [Piece.shown]
      · exfalso
        cases e with
        | nil =>
          have hstopped := hstop c (by rw [← List.nil_append q,← he',hv]; rfl)
          exact Bool.false_ne_true (hstopped.symm.trans hc)
        | cons c' e =>
          rw [hv,List.cons_append,List.cons_append,List.cons.injEq] at he'
          exact credential_reaches.firstMatch_ne_none hbefore hc (by rw [he'.1,← he,hm])
  | found t m hm ih =>
    obtain ⟨hcut,hbefore,hmasked,hrest,hpieces⟩ := credential_reaches.cut hm
    have hhead : ∀ c ∈ (m.rest++q).head?, isValue c = false := by
      intro c hc
      cases hr : m.rest with
      | nil => exact hstop c (by simpa [hr] using hc)
      | cons y r => exact hrest c (by simpa [hr] using hc)
    conv_lhs => rw [hcut,List.append_assoc,credential_reaches.pieces_of hbefore hmasked hhead]
    rw [Piece.shown_append,Piece.shown,ih,hpieces]
    simp [Piece.shown]

end

theorem pieces_header_name (z : List Char) : credential.pieces ("Authorization:".toList++z) =
    "Authorization:".toList.map .kept++credential.pieces z := by
  have htails : ∀ b ∈ "Authorization:".toList.tails, ¬ credential.before.Matches b := by
    intro b hb h
    have hall : "Authorization:".toList.tails.all
        (fun b => !(credential.before.run b).contains (b,[])) = true := by decide +kernel
    have hnot := List.all_eq_true.1 hall b hb
    have hrun : (b,[]) ∈ credential.before.run b := mem_run_iff.2 ⟨by simp,h⟩
    simp [hrun] at hnot
  refine pieces_eq_kept fun a b hab hb => Option.eq_none_iff_forall_ne_some.2 fun m hm => ?_
  obtain ⟨hcut,hbefore,-,-,-⟩ := credential_reaches.cut hm
  obtain ⟨k,z',s,u,q,he,-,hy,-,hs,-,-,hshort⟩ := credential_groups hbefore
  obtain ⟨b,c,rfl⟩ := List.eq_nil_or_concat' b |>.resolve_left hb
  have hname : "Authorization:".toList = "Authorization".toList++[':'] := by decide
  rw [hname,← List.append_assoc] at hab
  obtain ⟨hab,hc⟩ := List.append_singleton_inj.mp hab
  have hletters : ∀ x ∈ b, oneOf ":=" x = false := fun x hx =>
    forall_not_of_any (l:="Authorization".toList) (by decide) x (by simp [hab,hx])
  obtain ⟨rfl,hsign,-⟩ := cut_unique (y:=b) (s:=c) (z:=z) (v:=u++q++m.hidden++m.rest) hletters
    (by rw [← hc]; decide) hy hs (by simpa [he] using hcut)
  refine htails (k++z'++[s]) ?_ hshort
  rw [List.mem_tails,hname,hab,hc,hsign]
  exact ⟨a,by simp⟩

section
variable {isWord : Char → Bool} {p q s scheme : List Char}

/-- The patterns after the first one. -/
def maskLater (isWord : Char → Bool) (t : List Char) : List Char :=
  basic.sub MASK ((authorization isWord).sub MASK (urlCredential.sub MASK t))

theorem maskText_eq (t : List Char) :
    maskText isWord t = maskLater isWord (credential.sub MASK t) := rfl

theorem solid_sub (pat : Pattern Char) {t : List Char} (hne : t ≠ [])
    (ht : ∀ c ∈ t, isWhitespace c = false) :
    pat.sub MASK t ≠ [] ∧ ∀ c ∈ pat.sub MASK t, isWhitespace c = false := by
  refine ⟨Piece.shown_ne_nil mask_ne_nil (by rwa [source_pieces]),fun c hc => ?_⟩
  rcases Piece.mem_shown hc with hc | hc
  · exact forall_not_of_any (by decide) c hc
  · rw [source_pieces] at hc
    exact ht c hc

theorem sub_credential_append_blank {w : List Char} (hw : ∀ c ∈ w, oneOf ":=" c = false)
    (hne : s ≠ []) (hs : ∀ c ∈ s, isWhitespace c = false) :
    ∃ s', s' ≠ [] ∧ (∀ c ∈ s', isWhitespace c = false) ∧
      credential.sub MASK (w++ ' '::s) = w++ ' '::s' := by
  have hnot : ∀ v, .hidden v ∈ credential.pieces (w++ ' '::s) → ' ' ∉ v := by
    intro v hv hmem
    have hvalue := credential_reaches.chars_of_masked (matches_of_hidden hv) ' ' hmem
    cases hvalue
  obtain ⟨qs,rs,hps,hqs,hrs⟩ := Piece.cut_source hnot (source_pieces credential _)
  have hkept : Piece.shown MASK qs = w := by
    refine (Piece.shown_eq_source fun v hv => ?_).trans hqs
    exfalso
    obtain ⟨as,bs,rfl⟩ := List.append_of_mem hv
    rw [List.append_assoc,List.cons_append] at hps
    obtain ⟨m,ps',hm,-,rfl,-⟩ := match_of_hidden hps
    obtain ⟨y,c,z,q,hb,-,hc,-⟩ := credential_before (firstMatch_eq_some hm).2.1
    refine Bool.false_ne_true ((hw c ?_).symm.trans hc)
    rw [← hqs,Piece.source_append,Piece.source_append,Piece.source_kept,hb]
    simp
  refine ⟨Piece.shown MASK rs,Piece.shown_ne_nil mask_ne_nil (hrs ▸ hne),fun c hc => ?_,?_⟩
  · rcases Piece.mem_shown hc with hc | hc
    · exact forall_not_of_any (by decide) c hc
    · exact hs c (hrs ▸ hc)
  · rw [Pattern.sub,hps,Piece.shown_append,Piece.shown,hkept]

theorem sub_credential_header (hp : credential.AtRest p "Authorization:".toList) (t : List Char) :
    credential.sub MASK (p++"Authorization:".toList++t) =
      credential.sub MASK p++"Authorization:".toList++credential.sub MASK t := by
  have hover : ∀ d f, ¬ credential.before.Matches (d++"Authorization:".toList++f) := fun d f hb =>
    hb.not_mem (x:= 'u') (by decide +kernel) (by simp)
  rw [Pattern.sub,hp.pieces credential_reaches (forall_of_all (by decide)) hover,pieces_header_name,
    Piece.shown_append,Piece.shown_append,Piece.shown_kept,List.append_assoc]
  rfl

/-- A scheme that the header pattern knows. -/
def WordScheme (isWord : Char → Bool) (scheme : List Char) : Prop :=
  scheme ≠ [] ∧ ∀ c ∈ scheme, isWord c = true

/-- What the first pattern makes of a header with no value open in front of it. -/
theorem exists_sub_header (hword : IsWordClass isWord) (hwf : WordScheme isWord scheme)
    (hp : credential.AtRest p "Authorization:".toList) (hq : (Shape.header scheme).Ends q)
    (hset : Settled q) (hs : (Shape.header scheme).Secret s) :
    ∃ s', s' ≠ [] ∧ (∀ c ∈ s', isWhitespace c = false) ∧
      credential.sub MASK ((Shape.header scheme).text p s q) =
        credential.sub MASK p++"Authorization:".toList++(' '::scheme++[' '])++s'++
          credential.sub MASK q := by
  have hscheme : ∀ c ∈ ' '::scheme, oneOf ":=" c = false := by
    intro c hc
    rcases List.mem_cons.1 hc with rfl | hc
    · decide
    · rw [← Bool.not_eq_true]
      exact fun hsign => Bool.false_ne_true ((hword.not_sign c hsign).symm.trans (hwf.2 c hc))
  obtain ⟨s',hne,hs',hsub⟩ := sub_credential_append_blank hscheme hs.1 hs.2
  refine ⟨s',hne,hs',?_⟩
  have htext : (Shape.header scheme).text p s q =
      p++"Authorization:".toList++(' '::scheme++[' ']++s++q) := by simp [Shape.text]
  have hcut : ' '::scheme++[' ']++s = ' '::scheme++ ' '::s := by simp
  rw [htext,sub_credential_header hp,hset.sub_append hq,hcut,hsub]
  simp

/-- Behind a URL nothing is hidden without an `@`. -/
theorem url_pieces_append {z : List Char} (hz : '@' ∉ z) (t : List Char) :
    urlCredential.pieces (t++z) = urlCredential.pieces t++z.map .kept := by
  induction t using pieces_induction urlCredential with
  | nil =>
    have hkept : urlCredential.pieces (z++[]) = z.map .kept++urlCredential.pieces [] := by
      refine pieces_eq_kept fun a b hab _ => Option.eq_none_iff_forall_ne_some.2 fun m hm => hz ?_
      obtain ⟨ht,-,-,hafter⟩ := firstMatch_eq_some hm
      rw [url_after hafter,List.append_nil] at ht
      simp [hab,ht]
    simpa using hkept
  | kept a t hm ih =>
    have hnone : urlCredential.firstMatch (a::(t++z)) = none := by
      refine Option.eq_none_iff_forall_ne_some.2 fun m hm' => ?_
      obtain ⟨ht,hb,hw,hafter⟩ := firstMatch_eq_some hm'
      rw [url_after hafter,← List.cons_append] at ht
      -- The match ends in the text in front, so it was there before.
      obtain ⟨r,hr⟩ : ∃ r, a::t = m.before++m.hidden++ '@'::r := by
        obtain ⟨e,he,he'⟩ | ⟨e,he,-⟩ := List.append_eq_append_iff.1 ht
        · obtain rfl | ⟨e,c,rfl⟩ := List.eq_nil_or_concat' e
          · exact ⟨[],by simpa using he.symm⟩
          · rw [← List.append_assoc] at he
            obtain ⟨-,hc⟩ := List.append_singleton_inj.mp he
            exact absurd (by simp [he',← hc]) hz
        · exact ⟨e,by simpa using he⟩
      rw [hr,url_firstMatch_of hb hw] at hm
      cases hm
    rw [List.cons_append,pieces_of_none hnone,ih,List.cons_append]
  | found t m hm ih =>
    obtain ⟨ht,hb,hw,hafter⟩ := firstMatch_eq_some hm
    have hcut : t++z = m.before++m.hidden++ '@'::(m.rest++z) := by
      conv_lhs => rw [ht,url_after hafter]
      simp
    rw [hcut,url_pieces_of hb hw,ih,Found.pieces,url_after hafter]
    simp

theorem url_sub_append_solid {s y : List Char} (hy : ∀ c ∈ y.head?, isWhitespace c = true) :
    urlCredential.sub MASK (s++y) = urlCredential.sub MASK s++urlCredential.sub MASK y := by
  cases y with
  | nil => simp [Pattern.sub,Piece.shown]
  | cons c y =>
    have hc := url_ignores (hy c rfl)
    rw [hc.sub,← List.nil_append (c::y),hc.sub MASK [] y]
    rfl

/-- What the later patterns make of what stands behind a header does not depend on its credential,
if none of them has a credential open in front of the header. -/
theorem exists_maskLater_header (hword : IsWordClass isWord)
    (hwf : WordScheme isWord scheme) {t : List Char}
    (ht : (authorization isWord).AtRest (urlCredential.sub MASK t) "Authorization:".toList) :
    ∃ u, ∀ s y, s ≠ [] → (∀ c ∈ s, isWhitespace c = false) → (∀ c ∈ y.head?, isWhitespace c = true) →
      maskLater isWord (t++"Authorization:".toList++(' '::scheme++[' '])++s++y) =
        u++MASK++maskLater isWord y := by
  obtain ⟨ps,hps⟩ := ht.exists_pieces (authorization_reaches hword)
    (authorization_leads hword hwf.1 hwf.2)
  refine ⟨basic.sub MASK (Piece.shown MASK ps),fun s y hne hs hy => ?_⟩
  have hurl : urlCredential.sub MASK (t++"Authorization:".toList++(' '::scheme++[' '])++s++y) =
      urlCredential.sub MASK t++"Authorization:".toList++(' '::scheme++[' '])++
        urlCredential.sub MASK s++urlCredential.sub MASK y := by
    have hname : urlCredential.sub MASK (t++"Authorization:".toList) =
        urlCredential.sub MASK t++"Authorization:".toList := by
      rw [Pattern.sub,url_pieces_append (by decide),Piece.shown_append,Piece.shown_kept]
      rfl
    have hscheme : urlCredential.sub MASK scheme = scheme := by
      refine sub_eq_self_of_not_mem (c:= ':') (fun b hb => ?_) (fun hmem => ?_) MASK
      · obtain ⟨u,rfl,-⟩ := url_before hb
        simp
      · exact Bool.false_ne_true ((hword.not_sign ':' rfl).symm.trans (hwf.2 _ hmem))
    have htext : t++"Authorization:".toList++(' '::scheme++[' '])++s++y =
        t++"Authorization:".toList++ ' '::(scheme++ ' '::(s++y)) := by simp
    have hblank := url_ignores (c:= ' ') (by decide)
    rw [htext,hblank.sub,hblank.sub,hname,hscheme,url_sub_append_solid hy]
    simp
  obtain ⟨hne',hs'⟩ := solid_sub urlCredential hne hs
  have hhead : ∀ c ∈ (urlCredential.sub MASK y).head?, isSolid c = false := by
    cases y with
    | nil => simp [Pattern.sub,Piece.shown]
    | cons c y =>
      have hc := hy c rfl
      rw [← List.nil_append (c::y),(url_ignores hc).sub MASK [] y]
      simpa [Pattern.sub,Piece.shown,isSolid] using hc
  have hbasic : ∀ a b, basic.sub MASK (a++MASK++b) = basic.sub MASK a++MASK++basic.sub MASK b := by
    have hstar : basic.Ignores '*' := ⟨by decide +kernel,by decide +kernel,rfl⟩
    intro a b
    have htext : a++MASK++b = a++ '*'::([]++ '*'::([]++ '*'::b)) := by simp [MASK]
    rw [htext,hstar.sub,hstar.sub,hstar.sub]
    simp [MASK,Pattern.sub,Piece.shown]
  have hpieces := hps _ (urlCredential.sub MASK y) hne' (fun c hc => by simp [isSolid,hs' c hc]) hhead
  rw [maskLater,hurl,Pattern.sub.eq_def (authorization isWord),hpieces,Piece.shown_append,
    Piece.shown,← List.append_assoc (Piece.shown MASK ps),hbasic]
  rfl

/-- The credential is hidden where no value and no credential is open in front of the header and no
value stands behind it. -/
theorem header_hides (hword : IsWordClass isWord) (hwf : WordScheme isWord scheme)
    (hp : credential.AtRest p "Authorization:".toList)
    (hp' : (authorization isWord).AtRest (urlCredential.sub MASK (credential.sub MASK p))
      "Authorization:".toList)
    (hq : (Shape.header scheme).Ends q) (hset : Settled q) :
    (Shape.header scheme).Hides isWord p q := by
  obtain ⟨u,hu⟩ := exists_maskLater_header hword hwf hp'
  have hhead : ∀ c ∈ (credential.sub MASK q).head?, isWhitespace c = true := by
    rw [Pattern.sub,head?_shown_pieces credential_reaches.before_ne_nil]
    exact hq
  have hsub : ∀ s, (Shape.header scheme).Secret s →
      maskText isWord ((Shape.header scheme).text p s q) =
        u++MASK++maskLater isWord (credential.sub MASK q) := by
    intro s hs
    obtain ⟨s',hne,hs',hsub⟩ := exists_sub_header hword hwf hp hq hset hs
    rw [maskText_eq,hsub,hu s' _ hne hs' hhead]
  intro s s' hs hs'
  rw [hsub s hs,hsub s' hs']

/-- No match of the later patterns starts with the character. -/
def StartsNone (isWord : Char → Bool) (c : Char) : Prop :=
  ∀ pat ∈ [urlCredential,authorization isWord,basic], pat.before.starts c = false

theorem maskLater_append {u : List Char} (hu : ∀ c ∈ u, StartsNone isWord c) (t : List Char) :
    maskLater isWord (u++t) = u++maskLater isWord t := by
  have hkept : ∀ pat ∈ [urlCredential,authorization isWord,basic], pat.before.nullable = false →
      ∀ t, pat.sub MASK (u++t) = u++pat.sub MASK t := by
    intro pat hpat hnullable t
    rw [Pattern.sub,pieces_eq_kept_of_not_starts hnullable (fun c hc => hu c hc pat hpat),
      Piece.shown_append,Piece.shown_kept]
    rfl
  rw [maskLater,hkept urlCredential (by simp) rfl,hkept (authorization isWord) (by simp) rfl,
    hkept basic (by simp) rfl]
  rfl

theorem head?_maskLater (t : List Char) : (maskLater isWord t).head? = t.head? := by
  have hhead : ∀ {pat : Pattern Char} (t : List Char), pat.before.nullable = false →
      (pat.sub MASK t).head? = t.head? := fun t hnullable =>
    head?_shown_pieces (fun h => Bool.false_ne_true (hnullable.symm.trans h.nullable)) t
  rw [maskLater,hhead _ rfl,hhead _ rfl,hhead _ rfl]

theorem startsNone_star : StartsNone isWord '*' := by
  simp only [StartsNone,List.mem_cons,List.not_mem_nil,or_false]
  rintro _ (rfl | rfl | rfl) <;> rfl

theorem startsNone_quote {c : Char} (h : isQuote c = true) : StartsNone isWord c := by
  simp only [StartsNone,List.mem_cons,List.not_mem_nil,or_false]
  rcases quote_cases h with rfl | rfl <;> rintro _ (rfl | rfl | rfl) <;> rfl

theorem startsNone_whitespace {c : Char} (h : isWhitespace c = true) : StartsNone isWord c := by
  have hnot : ∀ {x : Char}, isWhitespace x = false → (x == c) = false := by
    intro x hx
    rw [← Bool.not_eq_true,beq_iff_eq]
    rintro rfl
    exact Bool.false_ne_true (hx.symm.trans h)
  have hA : ignoreCase 'A' c = false := by
    rw [← Bool.not_eq_true]
    exact fun hA => Bool.false_ne_true ((not_whitespace_of_ignoreCase (by decide) hA).symm.trans h)
  have hurl : urlCredential.before.starts c = ((':' == c || false) || false) := rfl
  have hheader : (authorization isWord).before.starts c = ((ignoreCase 'A' c || false) || false) := rfl
  have hbasic : basic.before.starts c = (('B' == c || false) || false) := rfl
  simp only [StartsNone,List.mem_cons,List.not_mem_nil,or_false]
  rintro _ (rfl | rfl | rfl)
  · rw [hurl,hnot (by decide)]
    rfl
  · rw [hheader,hA]
    rfl
  · rw [hbasic,hnot (by decide)]
    rfl

theorem eq_stars {v r : List Char} (hv : ∀ c ∈ v, isValue c = true)
    (hr : ∀ c ∈ r.head?, isValue c = false) {n : ℕ}
    (h : List.replicate n '*'++maskLater isWord (credential.sub MASK r) =
      maskLater isWord (credential.sub MASK (v++r))) : v = List.replicate n '*' := by
  have hhead : ∀ t, (maskLater isWord (credential.sub MASK t)).head? = t.head? := fun t =>
    (head?_maskLater _).trans (head?_shown_pieces credential_reaches.before_ne_nil t)
  induction v generalizing n with
  | nil =>
    have hlength := congrArg List.length h
    simp only [List.length_append,List.length_replicate,List.nil_append] at hlength
    obtain rfl : n = 0 := by omega
    rfl
  | cons c v ih =>
    have hc := hv c (by simp)
    have hfirst := congrArg List.head? h
    rw [List.cons_append,hhead,List.head?_cons] at hfirst
    cases n with
    | zero =>
      rw [List.replicate_zero,List.nil_append,hhead] at hfirst
      exact absurd ((hr c hfirst).symm.trans hc) Bool.false_ne_true
    | succ n =>
      obtain rfl : '*' = c := by simpa [List.replicate_succ] using hfirst
      have hstar : credential.sub MASK ('*'::v++r) = '*'::credential.sub MASK (v++r) := by
        rw [Pattern.sub,List.cons_append,pieces_cons_of_starts (by simp)]
        rfl
      have hlater : maskLater isWord ('*'::credential.sub MASK (v++r)) =
          '*'::maskLater isWord (credential.sub MASK (v++r)) :=
        maskLater_append (u:=['*']) (by simpa using startsNone_star) _
      rw [hstar] at h
      rw [hlater,List.replicate_succ,List.cons_append,List.cons.injEq] at h
      rw [ih (fun c hc => hv c (by simp [hc])) h.2,List.replicate_succ]

section
variable {z w v r : List Char}

theorem head_whitespace_of_ends (hz : (Regex.star isWhitespace).Matches z)
    (hw : (Regex.optional isQuote).Matches w) (hne : v ≠ []) (hv : ∀ c ∈ v, isValue c = true)
    (hq : ∀ c ∈ (z++w++v++r).head?, isWhitespace c = true) (y : List Char) :
    ∀ c ∈ (z++y).head?, isWhitespace c = true := by
  simp only [Regex.star,Regex.optional,matches_chars] at hz hw
  obtain ⟨c,v,rfl⟩ := List.exists_cons_of_ne_nil hne
  cases z with
  | nil =>
    exfalso
    cases w with
    | nil => exact not_whitespace_of_value (hv c (by simp)) (hq c (by simp))
    | cons d w =>
      have hd := hq d (by simp)
      rcases quote_cases (hw.1 d (by simp)) with rfl | rfl <;> cases hd
  | cons d z =>
    intro x hx
    obtain rfl : d = x := by simpa using hx
    exact hz.1 d (by simp)

theorem sub_header_mark (hword : IsWordClass isWord)
    (hwf : WordScheme isWord scheme)
    (hp : credential.AtRest p "Authorization:".toList) (s : List Char) :
    credential.sub MASK ((Shape.header scheme).text p ('!'::s) q) =
      credential.sub MASK p++"Authorization:".toList++(' '::scheme++[' '])++
        '!'::credential.sub MASK (s++q) := by
  have hkept := (credential_keepsMarks hword).kept (' '::scheme++[' ']) 0 (s++q)
    (.inr ⟨scheme,rfl,hwf.2⟩)
  have htext : (Shape.header scheme).text p ('!'::s) q = p++"Authorization:".toList++
      (' '::scheme++[' ']++(List.replicate (0+1) '!'++(s++q))) := by simp [Shape.text]
  rw [htext,sub_credential_header hp,
    Pattern.sub.eq_def credential MASK (' '::scheme++[' ']++_),hkept,Piece.shown_append,
    Piece.shown_kept]
  simp [Pattern.sub]

theorem sub_token_value (hz : (Regex.star isWhitespace).Matches z)
    (hw : (Regex.optional isQuote).Matches w) (hne : v ≠ []) (hv : ∀ c ∈ v, isValue c = true)
    (hr : ∀ c ∈ r.head?, isValue c = false) :
    credential.sub MASK ("token=".toList++(z++w++v++r)) =
      "token=".toList++(z++(w++MASK++credential.sub MASK r)) := by
  have hbefore := credential_before_of matches_token_key (matches_optional_nil _)
    (matches_star_nil _) (s:= '=') (by decide) hz hw
  have htext : "token=".toList++(z++w++v++r) = "token".toList++([]++[]++ '='::(z++w))++v++r := by
    simp
  rw [htext,Pattern.sub,credential_reaches.pieces_of hbefore
    (credential_reaches.masked_of_chars hne hv) hr,Piece.shown_append,Piece.shown_kept]
  simp [Piece.shown,Pattern.sub]

theorem sub_star_value (hz : ∀ c ∈ z, isWhitespace c = true) :
    credential.sub MASK ("*".toList++(z++w++v++r)) =
      "*".toList++(z++credential.sub MASK (w++v++r)) := by
  have htext : "*".toList++(z++w++v++r) = '*'::(z++(w++v++r)) := by simp
  rw [htext,Pattern.sub,pieces_cons_of_starts (by simp),pieces_eq_kept_of_not_starts rfl
    fun c hc => not_starts_of_whitespace (hz c hc)]
  simp [Piece.shown,Pattern.sub]

/-- A value behind a quote that is shown as a mask is one: where the quote begins a group, the
group goes on with the value, and has no star. -/
theorem eq_mask_of_quote {d : Char} (hd : isQuote d = true) (hne : v ≠ [])
    (hv : ∀ c ∈ v, isValue c = true) (hr : ∀ c ∈ r.head?, isValue c = false)
    (heq : d::(MASK++maskLater isWord (credential.sub MASK r)) =
      maskLater isWord (credential.sub MASK (d::(v++r)))) : v = MASK := by
  have hstars : MASK = List.replicate 3 '*' := by decide
  have hcons : ∀ t, maskLater isWord (d::t) = d::maskLater isWord t := fun t =>
    maskLater_append (u:=[d]) (by simpa using startsNone_quote hd) t
  cases hm : credential.firstMatch (d::(v++r)) with
  | none =>
    have hsub : credential.sub MASK (d::(v++r)) = d::credential.sub MASK (v++r) := by
      rw [Pattern.sub,pieces_of_none hm]
      rfl
    rw [hsub,hcons,List.cons.injEq] at heq
    exact (eq_stars (n:=3) hv hr (by simpa [hstars] using heq.2)).trans hstars.symm
  | some m =>
    exfalso
    obtain ⟨ht,hbefore,hmasked,-,hpieces⟩ := credential_reaches.cut hm
    obtain ⟨y,s,z',q',hb,-,hs,-⟩ := credential_before hbefore
    obtain ⟨c,v,rfl⟩ := List.exists_cons_of_ne_nil hne
    cases hx : m.before with
    | nil => simp [hx] at hb
    | cons x b =>
      rw [hx,List.cons_append,List.cons_append,List.cons_append,List.cons.injEq] at ht
      obtain ⟨rfl,ht⟩ := ht
      cases b with
      | nil =>
        have hmem : s ∈ [d] := by simp [← hx,hb]
        rw [List.mem_singleton.1 hmem] at hs
        rcases quote_cases hd with rfl | rfl <;> cases hs
      | cons x' b =>
        simp only [List.cons_append,List.cons.injEq] at ht
        obtain ⟨rfl,-⟩ := ht
        have hsub : ∃ t, credential.sub MASK (d::(c::v++r)) = d::c::t := by
          rw [Pattern.sub,pieces_of_some hm,hpieces,hx]
          simp [Piece.shown]
        obtain ⟨t,ht⟩ := hsub
        rw [ht,hcons,List.cons.injEq] at heq
        have hfirst := congrArg List.head? heq.2
        rw [head?_maskLater] at hfirst
        obtain rfl : '*' = c := by simpa [MASK] using hfirst
        exact hbefore.not_mem (x:= '*') (by decide +kernel) (by simp [hx])

theorem eq_mask_of_shown (hw : (Regex.optional isQuote).Matches w) (hne : v ≠ [])
    (hv : ∀ c ∈ v, isValue c = true) (hr : ∀ c ∈ r.head?, isValue c = false)
    (heq : maskLater isWord (w++MASK++credential.sub MASK r) =
      maskLater isWord (credential.sub MASK (w++v++r))) : v = MASK := by
  simp only [Regex.optional,matches_chars] at hw
  have hmask : ∀ c ∈ MASK, StartsNone isWord c := fun c hc => by
    rw [eq_of_mem_mask hc]
    exact startsNone_star
  rw [List.append_assoc w,List.append_assoc w,maskLater_append fun c hc =>
    startsNone_quote (hw.1 c hc),maskLater_append hmask] at heq
  cases w with
  | nil =>
    have hstars : MASK = List.replicate 3 '*' := by decide
    exact (eq_stars (n:=3) hv hr (by simpa [hstars] using heq)).trans hstars.symm
  | cons d w =>
    have hlength := hw.2.2 1 rfl
    obtain rfl : w = [] := List.eq_nil_of_length_eq_zero (by simpa using hlength)
    exact eq_mask_of_quote (hw.1 d (by simp)) hne hv hr (by simpa using heq)

end

/-- A value behind the blanks and a quote that is no mask shows which credentials end with a key. -/
theorem settled_of_header_hides (hword : IsWordClass isWord)
    (hwf : WordScheme isWord scheme)
    (hp : credential.AtRest p "Authorization:".toList)
    (hp' : (authorization isWord).AtRest (urlCredential.sub MASK (credential.sub MASK p))
      "Authorization:".toList)
    (hq : (Shape.header scheme).Ends q) (h : (Shape.header scheme).Hides isWord p q) :
    Settled q := by
  rintro z w v r rfl hz hw hne hv hr
  obtain ⟨u,hu⟩ := exists_maskLater_header hword hwf hp'
  have hbehind := head_whitespace_of_ends hz hw hne hv hq
  have hblank := hz
  simp only [Regex.star,matches_chars] at hblank
  have hstart : ∀ c ∈ z, StartsNone isWord c := fun c hc => startsNone_whitespace (hblank.1 c hc)
  have hsolid : ∀ {s : List Char}, ('!'::s).any isWhitespace = false → '!'::s ≠ [] ∧
      ∀ c ∈ '!'::s, isWhitespace c = false := fun hs => ⟨by simp,forall_not_of_any hs⟩
  have htoken := hsolid (s:="token=".toList) (by decide)
  have hstar := hsolid (s:="*".toList) (by decide)
  have hsecrets := h ('!'::"token=".toList) ('!'::"*".toList) htoken hstar
  have hassoc : ∀ t s y : List Char, t++ '!'::(s++y) = t++('!'::s)++y := by simp
  rw [maskText_eq,maskText_eq,sub_header_mark hword hwf hp,sub_header_mark hword hwf hp,
    sub_token_value hz hw hne hv hr,sub_star_value hblank.1,hassoc,hassoc,
    hu _ _ htoken.1 htoken.2 (hbehind _),hu _ _ hstar.1 hstar.2 (hbehind _),
    maskLater_append hstart,maskLater_append hstart] at hsecrets
  exact eq_mask_of_shown hw hne hv hr (by simpa using hsecrets)

theorem blanks_scheme (hwf : WordScheme isWord scheme) :
    Blanks isWord (' '::scheme++[' ']) := .inr ⟨scheme,rfl,hwf.2⟩

theorem credential_atRest_of_header_hides (hword : IsWordClass isWord)
    (hwf : WordScheme isWord scheme) (h : (Shape.header scheme).Hides isWord p q) :
    credential.AtRest p "Authorization:".toList := by
  by_contra hp
  obtain ⟨ps,w,hps⟩ := not_atRest hp
  refine Shape.not_hides_of_lt_count (fun n => lt_count_of_marked hword ?_) h
  have hblanks := blanks_scheme hwf
  have hpieces := credential_reaches.pieces_of_open (v:=[])
    (z:= ' '::scheme++[' ']++(List.replicate (n+1) '!'++q)) hps (by simp)
    (by simpa using not_value_of_whitespace (c:= ' ') (by decide))
  have htext : (Shape.header scheme).text p (List.replicate (n+1) '!') q =
      p++"Authorization:".toList++[]++(' '::scheme++[' ']++(List.replicate (n+1) '!'++q)) := by
    simp [Shape.text]
  exact (credential_keepsMarks hword).marked_of_hidden hblanks (htext ▸ hpieces)

theorem authorization_atRest_of_header_hides (hword : IsWordClass isWord)
    (hwf : WordScheme isWord scheme)
    (hp : credential.AtRest p "Authorization:".toList)
    (h : (Shape.header scheme).Hides isWord p q) :
    (authorization isWord).AtRest (urlCredential.sub MASK (credential.sub MASK p))
      "Authorization:".toList := by
  by_contra hp'
  obtain ⟨ps,w,hps⟩ := not_atRest hp'
  refine Shape.not_hides_of_lt_count (fun n => ?_) h
  have hblanks := blanks_scheme hwf
  have hcredential : credential.sub MASK ((Shape.header scheme).text p (List.replicate (n+1) '!') q) =
      credential.sub MASK p++"Authorization:".toList++
        (' '::scheme++[' ']++(List.replicate (n+1) '!'++credential.sub MASK q)) := by
    have htext : (Shape.header scheme).text p (List.replicate (n+1) '!') q =
        p++"Authorization:".toList++(' '::scheme++[' ']++(List.replicate (n+1) '!'++q)) := by
      simp [Shape.text]
    rw [htext,sub_credential_header hp,(credential_keepsMarks hword).sub_kept hblanks]
  have hurl : urlCredential.sub MASK (credential.sub MASK p++"Authorization:".toList++
        (' '::scheme++[' ']++(List.replicate (n+1) '!'++credential.sub MASK q))) =
      urlCredential.sub MASK (credential.sub MASK p)++"Authorization:".toList++[]++
        (' '::scheme++[' ']++
          (List.replicate (n+1) '!'++urlCredential.sub MASK (credential.sub MASK q))) := by
    rw [Pattern.sub,url_pieces_blanks hblanks,url_pieces_append (by decide),Piece.shown_append,
      Piece.shown_append,Piece.shown_kept,← Pattern.sub,← Pattern.sub,
      (url_keepsMarks hword).sub_kept hblanks,List.append_nil]
  have hpieces := (authorization_reaches hword).pieces_of_open (v:=[])
    (z:= ' '::scheme++[' ']++
      (List.replicate (n+1) '!'++urlCredential.sub MASK (credential.sub MASK q))) hps (by simp)
    (by simp [isSolid]; decide)
  have hmarked := (authorization_keepsMarks hword).marked_of_hidden hblanks hpieces
  rw [maskText_eq,hcredential,maskLater,hurl]
  exact ((basic_keepsMarks hword).sub hmarked).lt_count

/-- Exactly when the credential of a header is hidden. -/
theorem header_hides_iff (hword : IsWordClass isWord)
    (hwf : WordScheme isWord scheme) (hq : (Shape.header scheme).Ends q) :
    (Shape.header scheme).Hides isWord p q ↔ credential.AtRest p "Authorization:".toList ∧
      (authorization isWord).AtRest (urlCredential.sub MASK (credential.sub MASK p))
        "Authorization:".toList ∧ Settled q := by
  constructor
  · intro h
    have hp := credential_atRest_of_header_hides hword hwf h
    have hp' := authorization_atRest_of_header_hides hword hwf hp h
    exact ⟨hp,hp',settled_of_header_hides hword hwf hp hp' hq h⟩
  · exact fun ⟨hp,hp',hset⟩ => header_hides hword hwf hp hp' hq hset

end

namespace Shape

/-- When no secret of the shape makes a difference, whatever stands behind it. -/
def HoldsWhen (p : List Char) : Shape → Prop
  | json _ | url _ | header _ => False
  | assigned _ => True
  | labelled key => credential.AtRest p key

/-- The secrets that are hidden in JSON and in a URL. -/
def Plain (p s : List Char) : Shape → Prop
  | json key => credential.AtRest (p++['\x22']) key ∧ ∀ c ∈ jsonEscape s, isValue c = true
  | url user => PlainUrl p user s
  | _ => False

end Shape

/-- For each shape, the texts in front of it with which no secret makes a difference whatever stands
behind; for a header, which schemes and what stands behind it, too; and the secrets that JSON and
URLs do hide. -/
theorem maskText_hides_iff {isWord : Char → Bool} (hword : IsWordClass isWord) {sh : Shape}
    (hsh : sh.WellFormed) (p : List Char) :
    ((∀ q, sh.Ends q → sh.Hides isWord p q) ↔ sh.HoldsWhen p) ∧
    (∀ scheme q, sh = .header scheme → IsScheme scheme → sh.Ends q →
      (sh.Hides isWord p q ↔ (∀ c ∈ scheme, isWord c = true) ∧
        credential.AtRest p "Authorization:".toList ∧
        (authorization isWord).AtRest (urlCredential.sub MASK (credential.sub MASK p))
          "Authorization:".toList ∧ Settled q)) ∧
    ∀ q s s', sh.Secret s → sh.Secret s' → sh.Plain p s → sh.Plain p s' →
      maskText isWord (sh.text p s q) = maskText isWord (sh.text p s' q) := by
  refine ⟨?_,?_,?_⟩
  · cases sh with
    | json key =>
      exact ⟨fun h => Shape.not_json_hides (h [] trivial),False.elim⟩
    | assigned key => exact ⟨fun _ => trivial,fun _ q hq => Shape.assigned_hides hsh hq⟩
    | labelled key =>
      refine ⟨fun h => ?_,fun hp q hq => (Shape.labelled_hides_iff hword hsh hq).2 hp⟩
      have hnil : (Shape.labelled key).Ends [] := by simp [Shape.Ends]
      exact (Shape.labelled_hides_iff hword hsh hnil).1 (h [] hnil)
    | url user =>
      obtain ⟨q,hq⟩ := Shape.exists_not_url_hides hword p user
      exact ⟨fun h => hq (h q trivial),False.elim⟩
    | header scheme =>
      obtain ⟨q,hends,hq⟩ := Shape.exists_not_header_hides hword p scheme
      exact ⟨fun h => hq (h q hends),False.elim⟩
  · rintro scheme q rfl hscheme hq
    constructor
    · intro h
      have hletters : ∀ c ∈ scheme, isWord c = true := by
        by_contra hforeign
        exact not_header_hides hword hscheme hforeign hq h
      exact ⟨hletters,(header_hides_iff hword ⟨hscheme.1,hletters⟩ hq).1 h⟩
    · rintro ⟨hletters,h⟩
      exact (header_hides_iff hword ⟨hscheme.1,hletters⟩ hq).2 h
  · intro q s s' hs hs' hplain hplain'
    cases sh with
    | json key => exact Shape.json_hides hsh hplain.1 ⟨hs,hplain.2⟩ ⟨hs',hplain'.2⟩
    | url user => exact Shape.url_hides hs hs' hplain hplain'
    | assigned | labelled | header => exact hplain.elim

/-- With nothing open in front of it, a key with a colon hides its value. -/
theorem maskText_hides_sample :
    (Shape.labelled "password".toList).Hides isAsciiWord "db ".toList " ok".toList := by
  have hkey : (Shape.labelled "password".toList).WellFormed :=
    .left (matches_word "password")
  have hpieces : credential.pieces ("db ".toList++"password".toList) =
      "db passwor".toList.map .kept++[.kept 'd'] := by decide +kernel
  have hrest : credential.AtRest "db ".toList "password".toList := by
    intro ps w h
    obtain ⟨-,hlast⟩ := List.append_singleton_inj.mp (hpieces.symm.trans h)
    cases hlast
  exact (maskText_hides_iff isWordClass_isAsciiWord hkey _).1.2 hrest " ok".toList
    (by simp [Shape.Ends]; decide)

/-- A blank in JSON, a key behind an open value, a second `@` in a URL and one without a user, a key
at the end of the credential of a header, and schemes that are no words. -/
theorem secrets_come_through :
    maskText isAsciiWord "\x7b\x22password\x22: \x22correct horse\x22\x7d".toList =
      "\x7b\x22password\x22: \x22*** horse\x22\x7d".toList ∧
    maskText isAsciiWord "token=password: hunter2".toList = "token=*** hunter2".toList ∧
    maskText isAsciiWord "http://user:p@ss@host".toList = "http://user:***@ss@host".toList ∧
    maskText isAsciiWord "redis://:hunter2@host".toList = "redis://:hunter2@host".toList ∧
    maskText isAsciiWord "Authorization: Bearer ,token= 000".toList =
      "Authorization: Bearer *** ***".toList ∧
    maskText isAsciiWord "Authorization: Bearer x 000".toList =
      "Authorization: Bearer *** 000".toList ∧
    maskText isAsciiWord "Authorization: SCRAM-SHA-256 hunter2".toList =
      "Authorization: SCRAM-SHA-256 hunter2".toList ∧
    ¬ (Shape.json "password".toList).Hides isAsciiWord "\x7b".toList "\x7d".toList ∧
    ¬ (Shape.labelled "password".toList).Hides isAsciiWord "token=".toList [] ∧
    ¬ (Shape.url "user".toList).Hides isAsciiWord "http".toList "host".toList ∧
    ¬ (Shape.url []).Hides isAsciiWord "redis".toList "host".toList ∧
    ¬ (Shape.header "Bearer".toList).Hides isAsciiWord [] " 000".toList ∧
    ¬ (Shape.header "SCRAM-SHA-256".toList).Hides isAsciiWord [] [] := by
  have hurl : ∀ user s : List Char, s ≠ [] → s.all (fun c => c != '/' && !isWhitespace c) = true →
      (Shape.url user).Secret s := fun _ s hne hs =>
    ⟨hne,fun c hc => by simpa using forall_of_all hs c hc⟩
  refine ⟨by decide +kernel,by decide +kernel,by decide +kernel,by decide +kernel,by decide +kernel,
    by decide +kernel,by decide +kernel,fun h => ?_,fun h => ?_,fun h => ?_,fun h => ?_,fun h => ?_,
    fun h => ?_⟩
  · exact absurd (h "correct horse".toList "x".toList (by simp [Shape.Secret])
      (by simp [Shape.Secret])) (by decide +kernel)
  · exact absurd (h "hunter2".toList "x".toList ⟨by decide,forall_of_all (by decide)⟩
      ⟨by decide,forall_of_all (by decide)⟩) (by decide +kernel)
  · exact absurd (h "p@ss".toList "x".toList (hurl _ _ (by decide) (by decide))
      (hurl _ _ (by decide) (by decide))) (by decide +kernel)
  · exact absurd (h "hunter2".toList "x".toList (hurl _ _ (by decide) (by decide))
      (hurl _ _ (by decide) (by decide))) (by decide +kernel)
  · exact absurd (h ",token=".toList "x".toList ⟨by decide,forall_not_of_any (by decide)⟩
      ⟨by decide,forall_not_of_any (by decide)⟩) (by decide +kernel)
  · exact absurd (h "hunter2".toList "x".toList ⟨by decide,forall_not_of_any (by decide)⟩
      ⟨by decide,forall_not_of_any (by decide)⟩) (by decide +kernel)

end WzonePortal.Masking
