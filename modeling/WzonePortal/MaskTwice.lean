import WzonePortal.ErrorTranslation
import WzonePortal.RegexScan

/-! The masking applied to its own result. Each pattern leaves nothing for itself and the later ones
leave it so, but for the URLs: their masks may stand behind a user name that ends in a key, and the
first pattern takes such a mask for a value together with what follows it. -/
namespace WzonePortal.Masking

open Regex Pattern

/-- What the masking needs of the characters of a word. -/
structure IsWordClass (isWord : Char → Bool) : Prop where
  not_whitespace : ∀ c, isWord c = true → isWhitespace c = false
  not_mask : ∀ c ∈ MASK, isWord c = false
  not_sign : ∀ c, oneOf ":=" c = true → isWord c = false

def isValue (c : Char) : Bool := !(oneOf "\x27\x22,;\x7d&" c || isWhitespace c)

def isSolid (c : Char) : Bool := !isWhitespace c

def isBase64 (c : Char) : Bool := c.isAlphanum || oneOf "+/=" c

theorem forall_of_all {p : Char → Bool} {l : List Char} (h : l.all p = true) :
    ∀ x ∈ l, p x = true := List.all_eq_true.1 h

theorem forall_not_of_any {p : Char → Bool} {l : List Char} (h : l.any p = false) :
    ∀ x ∈ l, p x = false := by
  intro x hx
  rw [← Bool.not_eq_true]
  exact List.any_eq_false.1 h x hx

theorem eq_of_mem_mask {c : Char} (h : c ∈ MASK) : c = '*' := by
  rw [MASK] at h
  simpa using h

theorem sign_cases {c : Char} (h : oneOf ":=" c = true) : c = ':' ∨ c = '=' := by
  simpa [oneOf] using h

theorem quote_cases {c : Char} (h : isQuote c = true) : c = '\x27' ∨ c = '\x22' := by
  simpa [isQuote,oneOf] using h

theorem cut_unique {p : Char → Bool} {y z u v : List Char} {s r : Char}
    (hy : ∀ x ∈ y, p x = false) (hs : p s = true) (hu : ∀ x ∈ u, p x = false) (hr : p r = true)
    (h : y++s::z = u++r::v) : y = u ∧ s = r ∧ z = v := by
  have hrun : y = u := by
    have hnot : ∀ {l : List Char}, (∀ x ∈ l, p x = false) → ∀ x ∈ l, (!p x) = true := by
      intro l hl x hx
      simp [hl x hx]
    exact run_unique (p:=fun x => !p x) (hnot hy) (by simp [hs]) (hnot hu) (by simp [hr]) h
  subst hrun
  simpa using h

theorem suffix_of_place {p : Char → Bool} {y z u v : List Char} {s : Char}
    (hy : ∀ x ∈ y, p x = false) (hs : p s = true) (h : y++z = u++s::v) : ∃ a, z = a++s::v := by
  obtain ⟨a,-,hcut⟩ | ⟨a,hu,hcut⟩ := List.append_eq_append_iff.1 h
  · exact ⟨a,hcut⟩
  · cases a with
    | nil => exact ⟨[],hcut.symm⟩
    | cons c a =>
      simp only [List.cons_append,List.cons.injEq] at hcut
      have hc := hy c (by simp [hu])
      rw [← hcut.1,hs] at hc
      cases hc

theorem accepts_spell {α : Type*} (stands : α → α → Bool) (w : List α) (c : α) :
    (spell stands w).accepts c = w.any (stands · c) := by
  induction w with
  | nil => rfl
  | cons a w ih => simp only [spell,Regex.accepts,one,ih,List.any_cons]

theorem not_whitespace_of_ignoreCase {a c : Char} (ha : isWhitespace a.toLower = false)
    (h : ignoreCase a c = true) : isWhitespace c = false := by
  simp only [ignoreCase,Bool.or_eq_true,Bool.and_eq_true,beq_iff_eq] at h
  rcases h with ((h | ⟨-,rfl | rfl⟩) | ⟨-,rfl⟩) | ⟨-,rfl⟩
  · rw [← h] at ha
    unfold Char.toLower at ha
    split at ha
    · rename_i hupper
      have hval : c.toNat = c.val.toNat := rfl
      have hA : 'A'.val.toNat = 65 := rfl
      have hZ : 'Z'.val.toNat = 90 := rfl
      rw [← Bool.not_eq_true]
      simp only [ge_iff_le,UInt32.le_iff_toNat_le] at hupper
      simp only [isWhitespace,Bool.or_eq_true,Bool.and_eq_true,decide_eq_true_eq,beq_iff_eq]
      omega
    · exact ha
  all_goals decide

theorem value_of_keyword {c : Char} (h : keyword.accepts c = true) : isValue c = true := by
  have hspace : isWhitespace c = false := by
    have hword : ∀ letters : String, (∀ a ∈ letters.toList, isWhitespace a.toLower = false) →
        (word letters).accepts c = true → isWhitespace c = false := by
      intro letters hletters hc
      rw [word,accepts_spell,List.any_eq_true] at hc
      obtain ⟨a,ha,hc⟩ := hc
      exact not_whitespace_of_ignoreCase (hletters a ha) hc
    simp only [keyword,Regex.accepts,Bool.or_eq_true] at h
    rcases h with h | h | h | h | h | h | h | h
    case inr.inr.inr.inr.inr.inr.inl =>
      have hsign : c = '_' ∨ c = '-' := by simpa [Regex.optional,Regex.accepts,oneOf] using h
      rcases hsign with rfl | rfl <;> decide
    all_goals exact hword _ (forall_not_of_any (by decide)) h
  by_contra hvalue
  have hstop : oneOf "\x27\x22,;\x7d&" c = true := by simpa [isValue,hspace] using hvalue
  have hcases : c = '\x27' ∨ c = '\x22' ∨ c = ',' ∨ c = ';' ∨ c = '\x7d' ∨ c = '&' := by
    simpa [oneOf] using hstop
  have hnot : keyword.accepts c = false := by
    rcases hcases with rfl | rfl | rfl | rfl | rfl | rfl <;> decide +kernel
  exact Bool.false_ne_true (hnot.symm.trans h)

theorem not_whitespace_of_value {c : Char} (h : isValue c = true) : ¬ isWhitespace c = true := by
  intro hspace
  simp [isValue,hspace] at h

theorem not_value_of_whitespace {c : Char} (h : isWhitespace c = true) : isValue c = false := by
  simp [isValue,h]

theorem not_value_of_quote {c : Char} (h : isQuote c = true) : isValue c = false := by
  rcases quote_cases h with rfl | rfl <;> decide

theorem not_sign_of_keyword {c : Char} (h : keyword.accepts c = true) : oneOf ":=" c = false := by
  rw [← Bool.not_eq_true]
  intro hsign
  have hnot : keyword.accepts c = false := by
    rcases sign_cases hsign with rfl | rfl <;> decide +kernel
  exact Bool.false_ne_true (hnot.symm.trans h)

/-- What the group before a value is made of. -/
theorem credential_groups {b : List Char} (h : credential.before.Matches b) :
    ∃ k z s z' q, b = k++z++s::(z'++q) ∧ (∀ c ∈ k, isWhitespace c = false) ∧
      (∀ c ∈ k++z, oneOf ":=" c = false) ∧ (Regex.star isWhitespace).Matches z ∧
      oneOf ":=" s = true ∧ (Regex.star isWhitespace).Matches z' ∧
      (Regex.optional isQuote).Matches q ∧ credential.before.Matches (k++z++[s]) := by
  simp only [credential,matches_seq,matches_one] at h
  obtain ⟨q₁,_,rfl,hq₁,k,_,rfl,hk,q₂,_,rfl,hq₂,z,_,rfl,hz,_,_,rfl,⟨s,rfl,hs⟩,z',q,rfl,hz',hq⟩ := h
  have hshort : credential.before.Matches (q₁++k++q₂++z++[s]) := by
    have hsign : (one (oneOf ":=")).Matches [s] := matches_one.2 ⟨s,rfl,hs⟩
    have h := Matches.seq hq₁ (.seq hk (.seq hq₂ (.seq hz (.seq hsign
      (.seq (matches_star_nil isWhitespace) (matches_optional_nil isQuote))))))
    simpa [credential] using h
  have hquote : ∀ {c : Char}, isQuote c = true → isWhitespace c = false ∧ oneOf ":=" c = false := by
    intro c hc
    rcases quote_cases hc with rfl | rfl <;> decide
  have hkey : ∀ c ∈ k, isWhitespace c = false ∧ oneOf ":=" c = false := by
    intro c hc
    have haccepts := hk.accepts c hc
    refine ⟨?_,not_sign_of_keyword haccepts⟩
    rw [← Bool.not_eq_true]
    exact not_whitespace_of_value (value_of_keyword haccepts)
  have hblank : ∀ {c : Char}, isWhitespace c = true → oneOf ":=" c = false := by
    intro c hc
    rw [← Bool.not_eq_true]
    intro hsign
    rcases sign_cases hsign with rfl | rfl <;> cases hc
  have hletters : ∀ c ∈ q₁++k++q₂, isWhitespace c = false ∧ oneOf ":=" c = false := by
    intro c hc
    simp only [Regex.optional,matches_chars] at hq₁ hq₂
    simp only [List.mem_append] at hc
    rcases hc with (hc | hc) | hc
    · exact hquote (hq₁.1 c hc)
    · exact hkey c hc
    · exact hquote (hq₂.1 c hc)
  refine ⟨q₁++k++q₂,z,s,z',q,by simp,fun c hc => (hletters c hc).1,fun c hc => ?_,hz,hs,hz',hq,hshort⟩
  rcases List.mem_append.1 hc with hc | hc
  · exact (hletters c hc).2
  · simp only [Regex.star,matches_chars] at hz
    exact hblank (hz.1 c hc)

theorem credential_before {b : List Char} (h : credential.before.Matches b) :
    ∃ y s z q, b = y++s::(z++q) ∧ (∀ x ∈ y, oneOf ":=" x = false) ∧ oneOf ":=" s = true ∧
      (∀ x ∈ z, isWhitespace x = true) ∧ ∀ x ∈ q, isQuote x = true := by
  obtain ⟨k,z,s,z',q,hb,-,hsign,-,hs,hz',hq,-⟩ := credential_groups h
  simp only [Regex.star,Regex.optional,matches_chars] at hz' hq
  exact ⟨k++z,s,z',q,hb,hsign,hs,hz'.1,hq.1⟩

theorem credential_reaches : credential.Reaches isValue 1 where
  masked := rfl
  least_pos := Nat.one_pos
  after := rfl
  before_ne_nil h := by
    obtain ⟨y,s,z,q,hb,-⟩ := credential_before h
    simp at hb
  nested d b c e hwhole hb := by
    obtain ⟨y,s,z,q,hwhole,hy,-,hz,hq⟩ := credential_before hwhole
    obtain ⟨y',s',z',q',rfl,-,hs',-,-⟩ := credential_before hb
    obtain ⟨a,ha⟩ := suffix_of_place (u:=d++y') (v:=z'++q'++c::e) hy hs' (by rw [← hwhole]; simp)
    have hmem : c ∈ z++q := by
      cases a with
      | nil =>
        simp only [List.nil_append,List.cons.injEq] at ha
        simp [ha.2]
      | cons x a =>
        simp only [List.cons_append,List.cons.injEq] at ha
        simp [ha.2]
    rcases List.mem_append.1 hmem with hc | hc
    · simp [isValue,hz c hc]
    · rcases quote_cases (hq c hc) with rfl | rfl <;> decide

theorem eq_colon {x : Char} (h : ignoreCase ':' x = true) : x = ':' := by
  have hlower : x.toLower = ':' := by simpa [ignoreCase] using h
  unfold Char.toLower at hlower
  split at hlower
  · rename_i hupper
    have hval := congrArg (fun c => c.val.toNat) hlower
    have hcolon : ':'.val.toNat = 58 := rfl
    have hA : 'A'.val.toNat = 65 := rfl
    have hZ : 'Z'.val.toNat = 90 := rfl
    have hdistance : ('a'.val - 'A'.val).toNat = 32 := rfl
    simp only [UInt32.toNat_add,ge_iff_le,UInt32.le_iff_toNat_le] at hval hupper
    omega
  · exact hlower

theorem header_name {n : List Char} (h : (word "Authorization:").Matches n) :
    ∃ y, n = y++[':'] ∧ ∀ c ∈ y, c ≠ ':' := by
  have hletters : "Authorization:".toList = "Authorization".toList++[':'] := by decide
  rw [word,hletters] at h
  obtain ⟨y,c,rfl,hy,hc⟩ := matches_spell_append.1 h
  simp only [spell,matches_seq,matches_one,matches_eps] at hc
  obtain ⟨_,_,rfl,⟨c,rfl,hc⟩,rfl⟩ := hc
  refine ⟨y,by rw [eq_colon hc]; rfl,fun c hc hcolon => ?_⟩
  exact hy.not_mem (by decide +kernel) (hcolon ▸ hc)

section
variable {isWord : Char → Bool}

theorem authorization_before {b : List Char}
    (h : (authorization isWord).before.Matches b) :
    ∃ y s x w v, b = y++ ':'::(s++x::(w++v)) ∧ (∀ c ∈ y, c ≠ ':') ∧
      (∀ c ∈ s, isWhitespace c = true) ∧ (∀ c ∈ x::w, isWord c = true) ∧ v ≠ [] ∧
      ∀ c ∈ v, isWhitespace c = true := by
  simp only [authorization,matches_seq] at h
  obtain ⟨n,_,rfl,hn,s,_,rfl,hs,w,v,rfl,hw,hv⟩ := h
  simp only [Regex.star,plus,matches_chars] at hs hw hv
  obtain ⟨x,w,rfl⟩ := List.exists_cons_of_ne_nil (List.ne_nil_of_length_pos hw.2.1)
  obtain ⟨y,rfl,hy⟩ := header_name hn
  exact ⟨y,s,x,w,v,by simp,hy,hs.1,hw.1,List.ne_nil_of_length_pos hv.2.1,hv.1⟩

theorem not_colon_mem (hword : IsWordClass isWord) {s w v : List Char}
    (hs : ∀ c ∈ s, isWhitespace c = true) (hw : ∀ c ∈ w, isWord c = true)
    (hv : ∀ c ∈ v, isWhitespace c = true) : ':' ∉ s++w++v := by
  intro hmem
  rcases List.mem_append.1 hmem with hc | hc
  · rcases List.mem_append.1 hc with hc | hc
    · cases hs _ hc
    · exact Bool.false_ne_true ((hword.not_sign ':' rfl).symm.trans (hw _ hc))
  · cases hv _ hc

theorem authorization_reaches (hword : IsWordClass isWord) :
    (authorization isWord).Reaches isSolid 1 where
  masked := rfl
  least_pos := Nat.one_pos
  after := rfl
  before_ne_nil h := by
    obtain ⟨y,s,x,w,v,hb,-⟩ := authorization_before h
    simp at hb
  nested d b c e hwhole hb := by
    obtain ⟨y,s,x,w,v,hwhole,hy,hs,hw,-,hv⟩ := authorization_before hwhole
    obtain ⟨y',s',x',w',v',rfl,-,hs',hw',hne,hv'⟩ := authorization_before hb
    have hsolid : ∀ {u : List Char}, (∀ c ∈ u, isWhitespace c = true) → ∀ c ∈ u, isSolid c = false := by
      intro u hu c hc
      simp [isSolid,hu c hc]
    have hsolid' : ∀ {u : List Char}, (∀ c ∈ u, isWord c = true) → ∀ c ∈ u, isWhitespace c = false :=
      fun hu c hc => hword.not_whitespace c (hu c hc)
    -- There is no second colon, so both names end at the same place.
    obtain ⟨a,ha⟩ := suffix_of_place (p:=fun c => c == ':') (u:=d++y') (s:= ':')
      (v:=s'++x'::(w'++v')++c::e) (fun c hc => by simp [hy c hc]) rfl (by rw [← hwhole]; simp)
    have hcolon : s++x::(w++v) = s'++x'::(w'++v'++c::e) := by
      cases a with
      | nil => simpa using ha
      | cons y₀ a =>
        exfalso
        simp only [List.cons_append,List.cons.injEq] at ha
        exact not_colon_mem hword hs hw hv (by simp [ha.2])
    obtain ⟨-,-,htail⟩ := cut_unique (p:=isSolid) (hsolid hs)
      (by simp [isSolid,hsolid' hw x (by simp)]) (hsolid hs')
      (by simp [isSolid,hsolid' hw' x' (by simp)]) hcolon
    obtain ⟨b₀,v',rfl⟩ := List.exists_cons_of_ne_nil hne
    obtain ⟨a,ha⟩ := suffix_of_place (p:=isWhitespace) (y:=w) (u:=w') (s:=b₀) (v:=v'++c::e)
      (fun c hc => hsolid' hw c (by simp [hc])) (hv' b₀ (by simp)) (by simpa using htail)
    exact hsolid hv c (by simp [ha])

end

theorem basic_before {b : List Char} (h : basic.before.Matches b) :
    ∃ v, b = "Basic".toList++v ∧ v ≠ [] ∧ ∀ c ∈ v, isWhitespace c = true := by
  simp only [basic,matches_seq] at h
  obtain ⟨w,v,rfl,hw,hv⟩ := h
  rw [exactly,matches_literal] at hw
  simp only [plus,matches_chars] at hv
  exact ⟨v,by rw [hw],List.ne_nil_of_length_pos hv.2.1,hv.1⟩

theorem not_alphanum_of_whitespace {c : Char} (h : isWhitespace c = true) :
    c.isAlphanum = false := by
  have halphanum : c.isAlphanum = ((decide (65 ≤ c.val ∧ c.val ≤ 90) ||
      decide (97 ≤ c.val) && decide (c.val ≤ 122)) || decide (48 ≤ c.val) && decide (c.val ≤ 57)) :=
    rfl
  have hval : c.toNat = c.val.toNat := rfl
  simp only [isWhitespace,Bool.or_eq_true,Bool.and_eq_true,decide_eq_true_eq,beq_iff_eq] at h
  rw [← Bool.not_eq_true,halphanum]
  simp only [UInt32.le_iff_toNat_le,Bool.or_eq_true,Bool.and_eq_true,decide_eq_true_eq,
    UInt32.reduceToNat]
  omega

theorem not_base64_of_whitespace {c : Char} (h : isWhitespace c = true) : isBase64 c = false := by
  have hsign : oneOf "+/=" c = false := by
    rw [← Bool.not_eq_true]
    intro hin
    have hcases : c = '+' ∨ c = '/' ∨ c = '=' := by simpa [oneOf] using hin
    rcases hcases with rfl | rfl | rfl <;> cases h
  rw [isBase64,not_alphanum_of_whitespace h,hsign]
  rfl

theorem basic_reaches : basic.Reaches isBase64 8 where
  masked := rfl
  least_pos := by decide
  after := rfl
  before_ne_nil h := by
    obtain ⟨v,hb,-⟩ := basic_before h
    simp at hb
  nested d b c e hwhole hb := by
    obtain ⟨v,hwhole,-,hv⟩ := basic_before hwhole
    obtain ⟨v',rfl,hne,hv'⟩ := basic_before hb
    obtain ⟨s,v',rfl⟩ := List.exists_cons_of_ne_nil hne
    obtain ⟨a,ha⟩ := suffix_of_place (p:=isWhitespace) (y:="Basic".toList) (u:=d++"Basic".toList)
      (v:=v'++c::e) (forall_not_of_any (by decide)) (hv' s (by simp)) (by rw [← hwhole]; simp)
    exact not_base64_of_whitespace (hv c (by simp [ha]))

theorem url_before {b : List Char} (h : urlCredential.before.Matches b) :
    ∃ u, b = "://".toList++u++[':'] ∧ ∀ c ∈ u, c ≠ ':' ∧ isWhitespace c = false := by
  simp only [urlCredential,matches_seq,matches_one] at h
  obtain ⟨n,_,rfl,hn,u,_,rfl,hu,c,rfl,hc⟩ := h
  rw [exactly,matches_literal] at hn
  simp only [plus,matches_chars] at hu
  refine ⟨u,by rw [hn,eq_of_beq hc]; simp,fun c hc => ?_⟩
  have hclass := hu.1 c hc
  simp only [oneOf,Bool.not_eq_true',Bool.or_eq_false_iff] at hclass
  refine ⟨?_,hclass.2⟩
  rintro rfl
  cases hclass.1

theorem url_masked {w : List Char} (h : urlCredential.masked.Matches w) :
    w ≠ [] ∧ ∀ c ∈ w, c ≠ '@' ∧ isWhitespace c = false := by
  refine ⟨urlCredential.masked_ne_nil h,fun c hc => ?_⟩
  simp only [urlCredential,plus,matches_chars] at h
  simpa using h.1 c hc

theorem url_after {c : List Char} (h : urlCredential.after.Matches c) : c = ['@'] := by
  simp only [urlCredential,matches_one] at h
  obtain ⟨x,rfl,hx⟩ := h
  rw [eq_of_beq hx]

/-- Every password of a URL is the mask. -/
def UrlsMasked (t : List Char) : Prop :=
  ∀ a b w r, t = a++b++w++ '@'::r → urlCredential.before.Matches b → urlCredential.masked.Matches w →
    w = MASK

theorem mask_ne_nil : MASK ≠ [] := by decide

theorem sub_eq_self_of_urlsMasked {t : List Char} (h : UrlsMasked t) :
    urlCredential.sub MASK t = t := by
  refine (Piece.shown_eq_source fun w hw => ?_).trans (source_pieces urlCredential t)
  obtain ⟨ps,qs,hps⟩ := List.append_of_mem hw
  obtain ⟨m,ps',hm,rfl,rfl,rfl⟩ := match_of_hidden hps
  obtain ⟨-,hbefore,hmasked,hafter⟩ := firstMatch_eq_some hm
  refine h (Piece.source ps') m.before m.hidden m.rest ?_ hbefore hmasked
  rw [← source_pieces urlCredential t,hps,url_after hafter]
  simp [Piece.source,source_pieces]

theorem url_starts (b : List Char) (h : urlCredential.before.Matches b) :
    ∃ d y, b = d++[y] ∧ y = ':' := by
  obtain ⟨u,rfl,-⟩ := url_before h
  exact ⟨_,':',rfl,rfl⟩

theorem url_kept {t a u z : List Char} (hu : ∀ c ∈ u, c ≠ ':')
    (h : urlCredential.sub MASK t = a++("://".toList++u++[':'])++z) :
    ∃ ps qs, urlCredential.pieces t = ps++("://".toList++u++[':']).map .kept++qs ∧
      Piece.shown MASK qs = z := by
  have hcut : Piece.shown MASK (urlCredential.pieces t) = a++"://".toList++(u++ ':'::z) :=
    h.trans (by simp)
  have hscheme : ∀ c ∈ "://".toList, c ∉ MASK := by
    intro c hc hmask
    rw [eq_of_mem_mask hmask] at hc
    exact absurd hc (by decide)
  obtain ⟨ps,qs,hps,-,hqs⟩ := Piece.cut_shown_word mask_ne_nil (by decide) hscheme hcut
  have hcolon : ∀ c ∈ [':'], c ∉ MASK := by
    intro c hc
    rw [List.mem_singleton.1 hc]
    decide
  have hslash : urlCredential.pieces t = (ps++":/".toList.map .kept)++.kept '/'::qs := by
    rw [hps]
    simp
  obtain ⟨ps',y,rs,hps',hy,hrs,hshown⟩ := kept_run (g:=Piece.shown MASK) url_starts rfl
    (fun _ _ => rfl) hslash (by decide) hqs hu
  obtain ⟨rs,rfl⟩ := Piece.kept_of_shown_prefix (u:=[':']) mask_ne_nil hcolon hshown
  refine ⟨ps,rs,by rw [hps,hrs]; simp,?_⟩
  simpa [Piece.shown] using hshown

/-- A pass hides every password that it finds in a URL. -/
theorem urlsMasked_sub (t : List Char) : UrlsMasked (urlCredential.sub MASK t) := by
  intro a b w r hshown hb hw
  obtain ⟨u,rfl,hu⟩ := url_before hb
  obtain ⟨hne,hclass⟩ := url_masked hw
  rw [List.append_assoc] at hshown
  obtain ⟨ps,qs,hps,hqs⟩ := url_kept (fun c hc => (hu c hc).1) hshown
  have hat : ∀ c ∈ w, (c != '@') = true := fun c hc => by simp [(hclass c hc).1]
  cases qs with
  | nil => simp [Piece.shown] at hqs
  | cons q qs =>
    cases q with
    | hidden v =>
      obtain ⟨m,_,hm,-,-,rfl⟩ := match_of_hidden hps
      rw [url_after (firstMatch_eq_some hm).2.2.2] at hqs
      exact (run_unique (p:=fun c => c != '@') (forall_of_all (by decide)) (by simp [Piece.shown]) hat
        (by simp) hqs).symm
    | kept c =>
      exfalso
      obtain ⟨qs',rs,hcut,hshow,-⟩ := Piece.cut_shown (by decide) hqs
      have hsource : c::Piece.source qs = Piece.source qs'++['@']++Piece.source rs := by
        have h := congrArg Piece.source hcut
        rw [Piece.source_append] at h
        simpa [Piece.source] using h
      have hmatch : urlCredential.masked.Matches (Piece.source qs') := by
        simp only [urlCredential,plus,matches_chars]
        refine ⟨fun x hx => ?_,?_,by simp⟩
        · rcases Piece.mem_source MASK hx with hx | ⟨v,hv,hx⟩
          · simpa using hclass x (hshow ▸ hx)
          · have hmem : .hidden v ∈ urlCredential.pieces t := by
              rw [hps,hcut]
              simp [hv]
            simpa using (url_masked (matches_of_hidden hmem)).2 x hx
        · cases qs' with
          | nil => exact absurd hshow.symm hne
          | cons q' qs' =>
            simp only [List.cons_append,List.cons.injEq] at hcut
            simp [← hcut.1,Piece.source]
      obtain ⟨d,e,hnest⟩ | ⟨d,e,y,hy,hafter⟩ := nested_of_kept hps hb (by simp) hmatch
        (matches_one.2 ⟨'@',rfl,rfl⟩) hsource
      · -- The colon at the end of a user stands nowhere else behind the scheme.
        obtain ⟨u',heq,huser⟩ := url_before hnest
        have hmem : ':' ∈ c::e := by
          have hlast := congrArg List.getLast? heq
          rw [List.getLast?_append_of_ne_nil _ (by simp),List.getLast?_concat] at hlast
          exact List.mem_of_getLast? hlast
        have hpos := List.count_pos_iff.2 hmem
        have hcount := congrArg (List.count ':') heq
        have hscheme : "://".toList.count ':' = 1 := by decide
        simp only [List.count_append,List.count_singleton_self,hscheme,
          List.count_eq_zero_of_not_mem fun h => (huser ':' h).1 rfl] at hcount
        omega
      · have hcolon : y = ':' := by simpa using hy.symm
        have hmem : ':' ∈ ['@'] := by
          rw [← url_after hafter,hcolon]
          simp
        simp at hmem

/-- A substitution behind blanks does not touch a URL. -/
theorem UrlsMasked.sub {later : Pattern Char} {t : List Char} (h : UrlsMasked t)
    (hstarts : ∀ b, later.before.Matches b → ∃ d y, b = d++[y] ∧ isWhitespace y = true) :
    UrlsMasked (later.sub MASK t) := by
  intro a b w r hshown hb hw
  obtain ⟨u,rfl,hu⟩ := url_before hb
  obtain ⟨hne,hclass⟩ := url_masked hw
  have hcut : Piece.shown MASK (later.pieces t) = a++ ':'::("//".toList++u++[':']++w++ '@'::r) :=
    hshown.trans (by simp)
  obtain ⟨ps,qs,hps,-,hqs⟩ := Piece.cut_shown (by decide) hcut
  have hsolid : ∀ y ∈ "//".toList++u++[':']++w++['@'], ¬ isWhitespace y = true := by
    intro y hy hspace
    simp only [List.mem_append] at hy
    rcases hy with (((hy | hy) | hy) | hy) | hy
    · obtain rfl : y = '/' := by simpa using hy
      cases hspace
    · cases hspace.symm.trans (hu y hy).2
    · obtain rfl := List.mem_singleton.1 hy
      cases hspace
    · cases hspace.symm.trans (hclass y hy).2
    · obtain rfl := List.mem_singleton.1 hy
      cases hspace
  obtain ⟨_,_,rs,_,_,hrs,_⟩ := kept_run (u:="//".toList++u++[':']++w++['@']) (r:=r)
    (g:=Piece.shown MASK) hstarts rfl (fun _ _ => rfl) hps (by decide) (by rw [hqs]; simp) hsolid
  refine h (Piece.source ps) ("://".toList++u++[':']) w (Piece.source rs) ?_ hb hw
  rw [← source_pieces later t,hps,hrs]
  simp [Piece.source]

section
variable {isWord : Char → Bool}

theorem last_solid_unique {ps ps' : List (Piece Char)} {x x' : Char} {s s' : List Char}
    (hx : isWhitespace x = false) (hx' : isWhitespace x' = false)
    (hs : ∀ c ∈ s, isWhitespace c = true) (hs' : ∀ c ∈ s', isWhitespace c = true)
    (h : ps++.kept x::s.map .kept = ps'++.kept x'::s'.map .kept) : x = x' ∧ s = s' := by
  have hnot : ∀ {c : Char} {u : List Char} {a qs : List (Piece Char)}, isWhitespace c = false →
      (∀ c ∈ u, isWhitespace c = true) → u.map .kept ≠ a++.kept c::qs := by
    intro c u a qs hc hu heq
    have hmem : Piece.kept c ∈ u.map .kept := by
      rw [heq]
      simp
    have hspace := hu c (by simpa using hmem)
    rw [hc] at hspace
    cases hspace
  have hinj : Function.Injective (Piece.kept : Char → Piece Char) := fun _ _ => Piece.kept.inj
  obtain ⟨a,-,hcut⟩ | ⟨a,-,hcut⟩ := List.append_eq_append_iff.1 h
  · cases a with
    | nil =>
      simp only [List.nil_append,List.cons.injEq,Piece.kept.injEq] at hcut
      exact ⟨hcut.1,List.map_injective_iff.2 hinj hcut.2⟩
    | cons r a =>
      simp only [List.cons_append,List.cons.injEq] at hcut
      exact absurd hcut.2 (hnot hx' hs)
  · cases a with
    | nil =>
      simp only [List.nil_append,List.cons.injEq,Piece.kept.injEq] at hcut
      exact ⟨hcut.1.symm,(List.map_injective_iff.2 hinj hcut.2).symm⟩
    | cons r a =>
      simp only [List.cons_append,List.cons.injEq] at hcut
      exact absurd hcut.2 (hnot hx hs')

/-- A word and blanks end the group before the hidden one. -/
def EndsInWord (pat : Pattern Char) : Prop :=
  ∀ b, pat.before.Matches b → ∃ d x s, b = d++x::s ∧ isWhitespace x = false ∧ oneOf ":=" x = false ∧
    s ≠ [] ∧ ∀ c ∈ s, isWhitespace c = true

theorem authorization_endsInWord (hword : IsWordClass isWord) : EndsInWord (authorization isWord) := by
  intro b h
  obtain ⟨y,s,x,w,v,rfl,-,-,hw,hne,hv⟩ := authorization_before h
  obtain ⟨d,z,hd⟩ := List.eq_nil_or_concat' (x::w) |>.resolve_left (by simp)
  refine ⟨y++ ':'::(s++d),z,v,?_,?_,?_,hne,hv⟩
  · rw [List.append_assoc,List.cons_append,List.append_assoc,← List.singleton_append (l:=v),
      ← List.append_assoc d,← hd]
    simp
  · exact hword.not_whitespace z (hw z (by simp [hd]))
  · rw [← Bool.not_eq_true]
    intro hsign
    exact absurd ((hword.not_sign z hsign).symm.trans (hw z (by simp [hd]))) Bool.false_ne_true

theorem basic_endsInWord : EndsInWord basic := by
  intro b h
  obtain ⟨v,rfl,hne,hv⟩ := basic_before h
  exact ⟨"Basi".toList,'c',v,rfl,by decide,by decide,hne,hv⟩

theorem EndsInWord.starts {pat : Pattern Char} (h : EndsInWord pat) (b : List Char)
    (hb : pat.before.Matches b) : ∃ d y, b = d++[y] ∧ isWhitespace y = true := by
  obtain ⟨d,x,s,rfl,-,-,hne,hs⟩ := h b hb
  obtain ⟨s,z,rfl⟩ := List.eq_nil_or_concat' s |>.resolve_left hne
  exact ⟨d++x::s,z,by simp,hs z (by simp)⟩

theorem EndsInWord.not_key {pat : Pattern Char} (h : EndsInWord pat) {t b v : List Char}
    {ps qs : List (Piece Char)} (hps : pat.pieces t = ps++b.map .kept++.hidden v::qs) :
    ¬ credential.before.Matches b := by
  intro hb
  obtain ⟨m,ps',hm,-,hcut,-⟩ := match_of_hidden hps
  obtain ⟨d,x,s,hbefore,hx,hsign,hne,hs⟩ := h _ (firstMatch_eq_some hm).2.1
  obtain ⟨y,s',z,q,rfl,-,hs',hz,hq⟩ := credential_before hb
  rw [hbefore] at hcut
  rcases List.eq_nil_or_concat' q with rfl | ⟨q,q₀,rfl⟩
  · have hsolid : isWhitespace s' = false := by rcases sign_cases hs' with rfl | rfl <;> decide
    have hends : (ps++y.map .kept)++.kept s'::z.map .kept =
        (ps'++d.map .kept)++.kept x::s.map .kept := by simpa using hcut
    rw [← (last_solid_unique hsolid hx hz hs hends).1,hs'] at hsign
    cases hsign
  · have hsolid : isWhitespace q₀ = false := by
      rcases quote_cases (hq q₀ (by simp)) with rfl | rfl <;> decide
    have hends : (ps++(y++s'::(z++q)).map .kept)++.kept q₀::[].map .kept =
        (ps'++d.map .kept)++.kept x::s.map .kept := by simpa using hcut
    exact hne (last_solid_unique hsolid hx (by simp) hs hends).2.symm

/-- What may stand behind a key: the mask, or the mask of a URL with the host behind it. -/
def MaskOrUrl (w : List Char) : Prop := w = MASK ∨ ∃ r, w = MASK++ '@'::r

theorem credential_not_mask : ∀ x ∈ MASK, credential.before.accepts x = false :=
  forall_not_of_any (by decide +kernel)

theorem value_mask : ∀ x ∈ MASK, isValue x = true := forall_of_all (by decide)

theorem EndsInWord.keeps_values {pat : Pattern Char} (h : EndsInWord pat) {t : List Char}
    (ht : credential.Everywhere isValue MaskOrUrl t) :
    credential.Everywhere isValue MaskOrUrl (pat.sub MASK t) := by
  refine ht.sub credential_reaches mask_ne_nil credential_not_mask h.starts (fun w hw hvalue => ?_)
    fun ps b v qs w r hps hb => absurd hb (h.not_key hps)
  exact ⟨hw,fun c hc => not_whitespace_of_value (hvalue c hc)⟩

/-- The masks of URLs may stand behind a key. -/
theorem url_keeps_values {t : List Char} (ht : credential.Everywhere isValue (· = MASK) t) :
    credential.Everywhere isValue MaskOrUrl (urlCredential.sub MASK t) := by
  refine ht.sub credential_reaches mask_ne_nil credential_not_mask url_starts (fun w hw _ => ?_)
    fun ps b v qs w r hps hb hshown hw hr => ?_
  · subst hw
    exact ⟨.inl rfl,fun x hx => by simp [eq_of_mem_mask hx]⟩
  · obtain ⟨m,_,hm,-,-,rfl⟩ := match_of_hidden hps
    rw [url_after (firstMatch_eq_some hm).2.2.2] at hshown
    simp only [List.map_cons,List.map_nil,List.singleton_append,Piece.shown] at hshown
    obtain ⟨x,hx⟩ : ∃ x, x = Piece.shown MASK (urlCredential.pieces m.rest) := ⟨_,rfl⟩
    rw [← hx,← List.takeWhile_append_dropWhile (p:=isValue) (l:=x),← List.cons_append,
      ← List.append_assoc] at hshown
    refine .inr ⟨x.takeWhile isValue,(run_unique (fun c hc => ?_) (fun c hc => ?_) hw hr hshown).symm⟩
    · simp only [List.mem_append,List.mem_cons] at hc
      rcases hc with hc | rfl | hc
      · exact value_mask c hc
      · decide
      · exact List.mem_takeWhile_imp hc
    · exact head?_dropWhile isValue x c hc

theorem authorization_not_mask (hword : IsWordClass isWord) :
    ∀ x ∈ MASK, (authorization isWord).before.accepts x = false := by
  intro x hx
  obtain rfl : x = '*' := by simpa [MASK] using hx
  have hmask := hword.not_mask '*' (by decide)
  simp only [authorization,Regex.accepts,Regex.star,plus,hmask]
  decide +kernel

theorem basic_keeps_headers (hword : IsWordClass isWord) {t : List Char}
    (ht : (authorization isWord).Everywhere isSolid (· = MASK) t) :
    (authorization isWord).Everywhere isSolid (· = MASK) (basic.sub MASK t) := by
  refine ht.sub (authorization_reaches hword) mask_ne_nil (authorization_not_mask hword)
    basic_endsInWord.starts (fun w hw _ => ?_) fun ps b v qs w r hps hb _ _ _ => ?_
  · subst hw
    exact ⟨rfl,fun x hx => by rw [eq_of_mem_mask hx]; decide⟩
  · -- The header was masked before, and a mask is no text of this class.
    exfalso
    have hv : basic.masked.Matches v := matches_of_hidden (t:=t) (by rw [hps]; simp)
    obtain ⟨c,v,rfl⟩ := List.exists_cons_of_ne_nil (basic.masked_ne_nil hv)
    have hbase : isBase64 c = true := (matches_chars.1 hv).1 c (by simp)
    have hsolid : isSolid c = true := by
      rw [isSolid,Bool.not_eq_true',← Bool.not_eq_true]
      intro hspace
      cases hbase.symm.trans (not_base64_of_whitespace hspace)
    have hmask := ht.good_of_run (a:=Piece.source ps) (z:=v++Piece.source qs)
      (authorization_reaches hword) (by
        rw [← source_pieces basic t,hps]
        simp [Piece.source]) hb hsolid
    simp only [MASK] at hmask
    obtain rfl : c = '*' := (List.cons.inj hmask).1
    cases hbase

/-- What the masking leaves. -/
structure Masked (isWord : Char → Bool) (t : List Char) : Prop where
  values : credential.Everywhere isValue MaskOrUrl t
  urls : UrlsMasked t
  headers : (authorization isWord).Everywhere isSolid (· = MASK) t
  basics : basic.Everywhere isBase64 (· = MASK) t

theorem masked_maskText (hword : IsWordClass isWord) (t : List Char) :
    Masked isWord (maskText isWord t) := by
  have hheader := authorization_endsInWord hword
  have hvalues : credential.Everywhere isValue (· = MASK) (credential.sub MASK t) :=
    credential_reaches.everywhere_sub mask_ne_nil credential_not_mask (.inl ⟨rfl,value_mask⟩) t
  have hheaders : ∀ t, (authorization isWord).Everywhere isSolid (· = MASK)
      ((authorization isWord).sub MASK t) :=
    (authorization_reaches hword).everywhere_sub mask_ne_nil (authorization_not_mask hword)
      (.inl ⟨rfl,forall_of_all (by decide)⟩)
  have hbasics : ∀ t, basic.Everywhere isBase64 (· = MASK) (basic.sub MASK t) :=
    basic_reaches.everywhere_sub mask_ne_nil (forall_not_of_any (by decide))
      (.inr (forall_not_of_any (by decide)))
  exact
    { values := basic_endsInWord.keeps_values (hheader.keeps_values (url_keeps_values hvalues))
      urls := ((urlsMasked_sub _).sub hheader.starts).sub basic_endsInWord.starts
      headers := basic_keeps_headers hword (hheaders _)
      basics := hbasics _ }

/-- The text shows a key and its sign with the mask of a URL behind them. -/
def Exposed (t : List Char) : Prop :=
  ∃ a b r, t = a++b++(MASK++ '@'::r) ∧ credential.before.Matches b

variable {t : List Char}

theorem not_exposed_of_everywhere (h : credential.Everywhere isValue (· = MASK) t) : ¬ Exposed t := by
  rintro ⟨a,b,r,ht,hb⟩
  have hmask := h.good_of_run (x:= '*') (z:=['*','*']++ '@'::r) credential_reaches ht hb (by decide)
  have hat : '@' ∈ '*'::(['*','*']++ '@'::r).takeWhile isValue := by
    rw [List.takeWhile_append_of_pos (forall_of_all (by decide)),List.takeWhile_cons_of_pos (by decide)]
    simp
  rw [hmask] at hat
  exact absurd hat (by decide)

theorem Masked.maskText_eq_self (hword : IsWordClass isWord) (h : Masked isWord t)
    (ht : ¬ Exposed t) : maskText isWord t = t := by
  have hvalues : credential.Everywhere isValue (· = MASK) t := by
    intro a b w r hcut hb hw hr
    refine (h.values a b w r hcut hb hw hr).resolve_right ?_
    rintro ⟨r',rfl⟩
    exact ht ⟨a,b,r'++r,by simp [hcut],hb⟩
  simp only [maskText,patterns,maskAll,List.foldl_cons,List.foldl_nil,
    hvalues.sub_eq_self credential_reaches,sub_eq_self_of_urlsMasked h.urls,
    h.headers.sub_eq_self (authorization_reaches hword),h.basics.sub_eq_self basic_reaches]

theorem count_sub_le {c : Char} (hc : c ∉ MASK) (pat : Pattern Char) (t : List Char) :
    (pat.sub MASK t).count c ≤ t.count c := by
  have hle : (pat.sub MASK t).count c ≤ (Piece.source (pat.pieces t)).count c :=
    Piece.count_shown_le hc _
  rwa [source_pieces] at hle

theorem count_maskText_le_credential {c : Char} (hc : c ∉ MASK) (isWord : Char → Bool)
    (t : List Char) : (maskText isWord t).count c ≤ (credential.sub MASK t).count c :=
  ((count_sub_le hc _ _).trans (count_sub_le hc _ _)).trans (count_sub_le hc _ _)

theorem count_maskText_le (isWord : Char → Bool) (t : List Char) :
    (maskText isWord t).count '@' ≤ t.count '@' :=
  (count_maskText_le_credential (by decide) isWord t).trans (count_sub_le (by decide) _ _)

/-- Masked again, a text with the mask of a URL behind a key loses the sign behind this mask. -/
theorem Masked.count_lt (h : Masked isWord t) (ht : Exposed t) :
    (maskText isWord t).count '@' < t.count '@' := by
  have hrest := count_maskText_le_credential (c:= '@') (by decide) isWord t
  refine hrest.trans_lt (lt_of_le_of_ne (count_sub_le (by decide) credential t) fun heq => ?_)
  -- With no sign hidden, only masks are, and then the text is free of values.
  have hhidden : ∀ w, .hidden w ∈ credential.pieces t → w = MASK := by
    intro w hw
    have hnot : '@' ∉ w := Piece.not_mem_hidden (by decide : '@' ∉ MASK)
      (by rw [source_pieces]; exact heq.ge) w hw
    refine (h.values.good_of_hidden credential_reaches w hw).resolve_right ?_
    rintro ⟨r,rfl⟩
    simp at hnot
  have hself : credential.sub MASK t = t :=
    (Piece.shown_eq_source hhidden).trans (source_pieces credential t)
  have hvalues := credential_reaches.everywhere_sub mask_ne_nil credential_not_mask
    (.inl ⟨rfl,value_mask⟩) t
  rw [hself] at hvalues
  exact not_exposed_of_everywhere hvalues ht

theorem Masked.exists_fixed (hword : IsWordClass isWord) (h : Masked isWord t) :
    ∃ n ≤ t.count '@', maskText isWord ((maskText isWord)^[n] t) = (maskText isWord)^[n] t := by
  induction hk : t.count '@' using Nat.strong_induction_on generalizing t with
  | _ k ih =>
    by_cases ht : Exposed t
    · have hlt := h.count_lt ht
      obtain ⟨n,hn,hfixed⟩ := ih _ (hk ▸ hlt) (masked_maskText hword t) rfl
      exact ⟨n+1,by omega,hfixed⟩
    · exact ⟨0,Nat.zero_le _,h.maskText_eq_self hword ht⟩

end

/-- A masked text that is masked again changes exactly if it shows the mask of a URL behind a key,
and then it loses the sign behind this mask; no more applications than the text has signs are
needed until it stays as it is. -/
theorem maskText_idempotent_iff {isWord : Char → Bool} (hword : IsWordClass isWord) (t : List Char) :
    (maskText isWord (maskText isWord t) = maskText isWord t ↔ ¬ Exposed (maskText isWord t)) ∧
    (Exposed (maskText isWord t) →
      (maskText isWord (maskText isWord t)).count '@' < (maskText isWord t).count '@') ∧
    ∃ n ≤ t.count '@', maskText isWord ((maskText isWord)^[n+1] t) = (maskText isWord)^[n+1] t := by
  have hmasked := masked_maskText hword t
  refine ⟨⟨fun heq hexposed => ?_,hmasked.maskText_eq_self hword⟩,hmasked.count_lt,?_⟩
  · have hlt := hmasked.count_lt hexposed
    rw [heq] at hlt
    exact lt_irrefl _ hlt
  · obtain ⟨n,hn,hfixed⟩ := hmasked.exists_fixed hword
    exact ⟨n,hn.trans (count_maskText_le isWord t),hfixed⟩

theorem isWordClass_isAsciiWord : IsWordClass isAsciiWord where
  not_whitespace c hc := by
    rw [← Bool.not_eq_true]
    intro hspace
    rw [isAsciiWord,not_alphanum_of_whitespace hspace,Bool.false_or,beq_iff_eq] at hc
    subst hc
    cases hspace
  not_mask := forall_not_of_any (by decide)
  not_sign c hc := by rcases sign_cases hc with rfl | rfl <;> decide

theorem maskText_idempotent_sample :
    ¬ Exposed (maskText isAsciiWord "password=abc http://u:pw@host".toList) :=
  (maskText_idempotent_iff isWordClass_isAsciiWord _).1.1 (by decide +kernel)

/-- The user name of the URL is a key, and its password begins with a comma. -/
theorem url_behind_key_changes :
    maskText isAsciiWord "http://token:,x@h".toList = "http://token:***@h".toList ∧
    maskText isAsciiWord (maskText isAsciiWord "http://token:,x@h".toList) =
      "http://token:***".toList ∧
    maskText isAsciiWord (maskText isAsciiWord "http://token:,x@h".toList) ≠
      maskText isAsciiWord "http://token:,x@h".toList := by
  decide +kernel

end WzonePortal.Masking
