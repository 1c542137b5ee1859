import WzonePortal.RegexScan

/-! Where a scan falls apart. Two texts are scanned one after the other when no match reaches over
the place between them, and behind a key a run of the class is hidden whatever the run is. -/
namespace Regex

variable {α : Type*}

/-- A character that the expression does not know ends what it can take. -/
theorem run_append_cons {r : Regex α} {c : α} (hc : r.accepts c = false) (u z : List α) :
    r.run (u++c::z) = (r.run u).map fun x => (x.1,x.2++c::z) := by
  induction r generalizing u with
  | eps => rfl
  | chars accepts least most =>
    have htake : (u++c::z).takeWhile accepts = u.takeWhile accepts := by
      rw [List.takeWhile_append]
      split
      · rename_i hall
        rw [List.takeWhile_cons_of_neg (by simpa [Regex.accepts] using hc),List.append_nil]
        exact (List.takeWhile_prefix accepts).eq_of_length hall |>.symm
      · rfl
    have hreach : reach accepts most (u++c::z) = reach accepts most u := by
      simp only [reach,htake]
    simp only [run,hreach,List.map_map]
    refine List.map_congr_left fun n hn => ?_
    simp only [List.mem_filter,List.mem_reverse,List.mem_range,Nat.lt_succ_iff,le_reach_iff] at hn
    have hn : n ≤ u.length := hn.1.1.trans (List.takeWhile_prefix accepts).length_le
    simp only [Function.comp_apply,List.take_append_of_le_length hn,List.drop_append_of_le_length hn]
  | seq r r' ih ih' =>
    simp only [Regex.accepts,Bool.or_eq_false_iff] at hc
    simp only [run,ih hc.1,List.flatMap_map,List.map_flatMap,ih' hc.2,List.map_map]
    rfl
  | alt r r' ih ih' =>
    simp only [Regex.accepts,Bool.or_eq_false_iff] at hc
    simp only [run,ih hc.1,ih' hc.2,List.map_append]

def nullable : Regex α → Bool
  | eps => true
  | chars _ least _ => least == 0
  | seq r r' => r.nullable && r'.nullable
  | alt r r' => r.nullable || r'.nullable

def starts : Regex α → α → Bool
  | eps, _ => false
  | chars accepts _ _, x => accepts x
  | seq r r', x => r.starts x || (r.nullable && r'.starts x)
  | alt r r', x => r.starts x || r'.starts x

theorem Matches.nullable {r : Regex α} (h : r.Matches []) : r.nullable = true := by
  generalize hc : ([] : List α) = c at h
  induction h with
  | eps => rfl
  | chars _ hleast =>
    subst hc
    simpa [Regex.nullable] using hleast
  | seq _ _ ih ih' =>
    obtain ⟨rfl,rfl⟩ := List.append_eq_nil_iff.1 hc.symm
    simp [Regex.nullable,ih rfl,ih' rfl]
  | left _ ih => simp [Regex.nullable,ih hc]
  | right _ ih => simp [Regex.nullable,ih hc]

theorem Matches.starts {r : Regex α} {x : α} {d : List α} (h : r.Matches (x::d)) :
    r.starts x = true := by
  generalize hc : x::d = c at h
  induction h generalizing d with
  | eps => simp at hc
  | chars haccepts =>
    subst hc
    exact haccepts x (by simp)
  | @seq r r' c c' h h' ih ih' =>
    cases c with
    | nil => simp [Regex.starts,h.nullable,ih' (by simpa using hc)]
    | cons y c =>
      simp only [List.cons_append,List.cons.injEq] at hc
      simp [Regex.starts,ih (by rw [hc.1])]
  | left _ ih => simp [Regex.starts,ih hc]
  | right _ ih => simp [Regex.starts,ih hc]

theorem accepts_of_starts {r : Regex α} {x : α} (h : r.starts x = true) : r.accepts x = true := by
  induction r with
  | eps => exact h
  | chars => exact h
  | seq r r' ih ih' =>
    simp only [Regex.starts,Bool.or_eq_true,Bool.and_eq_true] at h
    simp only [Regex.accepts,Bool.or_eq_true]
    exact h.imp ih fun h => ih' h.2
  | alt r r' ih ih' =>
    simp only [Regex.starts,Bool.or_eq_true] at h
    simp only [Regex.accepts,Bool.or_eq_true]
    exact h.imp ih ih'

namespace Piece

/-- A character that no hidden group has is kept. -/
theorem cut_source {a b : List α} {x : α} {ps : List (Piece α)} (hx : ∀ w, hidden w ∈ ps → x ∉ w)
    (h : source ps = a++x::b) :
    ∃ qs rs, ps = qs++kept x::rs ∧ source qs = a ∧ source rs = b := by
  induction ps generalizing a with
  | nil => simp [source] at h
  | cons p ps ih =>
    have hps : ∀ w, hidden w ∈ ps → x ∉ w := fun w hw => hx w (by simp [hw])
    cases p with
    | kept c =>
      cases a with
      | nil =>
        simp only [source,List.nil_append,List.cons.injEq] at h
        exact ⟨[],ps,by simp [h.1],rfl,h.2⟩
      | cons d a =>
        simp only [source,List.cons_append,List.cons.injEq] at h
        obtain ⟨qs,rs,rfl,hqs,hrs⟩ := ih hps h.2
        exact ⟨kept c::qs,rs,rfl,by simp [source,hqs,h.1],hrs⟩
    | hidden w =>
      simp only [source] at h
      obtain ⟨a',ha,hcut⟩ | ⟨z,hz,hcut⟩ := List.append_eq_append_iff.1 h
      · obtain ⟨qs,rs,rfl,hqs,hrs⟩ := ih hps hcut
        exact ⟨hidden w::qs,rs,rfl,by simp [source,hqs,ha],hrs⟩
      · cases z with
        | nil =>
          obtain ⟨qs,rs,rfl,hqs,hrs⟩ := ih (a:=[]) hps (by simpa using hcut.symm)
          exact ⟨hidden w::qs,rs,rfl,by simpa [source,hqs] using hz,hrs⟩
        | cons y z =>
          simp only [List.cons_append,List.cons.injEq] at hcut
          exact absurd (by simp [hz,hcut.1]) (hx w (by simp))

theorem mem_shown {mask : List α} {x : α} {ps : List (Piece α)} (h : x ∈ shown mask ps) :
    x ∈ mask ∨ x ∈ source ps := by
  induction ps with
  | nil => simp [shown] at h
  | cons p ps ih =>
    cases p with
    | kept a => simp only [shown,source,List.mem_cons] at h ⊢; grind
    | hidden w => simp only [shown,source,List.mem_append] at h ⊢; grind

theorem shown_ne_nil {mask : List α} {ps : List (Piece α)} (hmask : mask ≠ [])
    (h : source ps ≠ []) : shown mask ps ≠ [] := by
  cases ps with
  | nil => exact absurd rfl h
  | cons p ps => cases p <;> simp [shown,hmask]

end Piece

open Piece

namespace Pattern

variable {pat : Pattern α}

/-- The scan is cut at a character that no group of the pattern knows. -/
structure Ignores (pat : Pattern α) (c : α) : Prop where
  before : pat.before.accepts c = false
  masked : pat.masked.accepts c = false
  after : pat.after.accepts c = false

theorem Ignores.firstMatch {c : α} (h : pat.Ignores c) (u z : List α) :
    pat.firstMatch (u++c::z) =
      (pat.firstMatch u).map fun m => ⟨m.before,m.hidden,m.after,m.rest++c::z⟩ := by
  simp only [Pattern.firstMatch,found,run_append_cons h.before,run_append_cons h.masked,
    run_append_cons h.after,List.flatMap_map,List.map_map,← List.head?_map,List.map_flatMap]
  rfl

theorem Ignores.pieces {c : α} (h : pat.Ignores c) (u z : List α) :
    pat.pieces (u++c::z) = pat.pieces u++kept c::pat.pieces z := by
  induction u using pieces_induction pat with
  | nil =>
    have hnone : pat.firstMatch ([]++c::z) = none := by
      rw [h.firstMatch]
      cases hm : pat.firstMatch [] with
      | none => rfl
      | some m =>
        obtain ⟨hnil,-,hmasked,-⟩ := firstMatch_eq_some hm
        simp [List.nil_eq,pat.masked_ne_nil hmasked] at hnil
    exact pieces_of_none hnone
  | kept a t hm ih =>
    have hnone : pat.firstMatch (a::(t++c::z)) = none := by
      rw [← List.cons_append,h.firstMatch,hm]
      rfl
    rw [List.cons_append,pieces_of_none hnone,ih,List.cons_append]
  | found t m hm ih =>
    have hsome := h.firstMatch t z
    rw [hm] at hsome
    rw [pieces_of_some hsome,ih,List.append_assoc]
    rfl

theorem Ignores.sub {c : α} (h : pat.Ignores c) (mask u z : List α) :
    pat.sub mask (u++c::z) = pat.sub mask u++c::pat.sub mask z := by
  rw [Pattern.sub,h.pieces,shown_append]
  rfl

theorem pieces_eq_kept_of_not_starts {u : List α} (hne : pat.before.nullable = false)
    (hu : ∀ x ∈ u, pat.before.starts x = false) (z : List α) :
    pat.pieces (u++z) = u.map kept++pat.pieces z := by
  refine pieces_eq_kept fun a b hab hb => Option.eq_none_iff_forall_ne_some.2 fun m hm => ?_
  obtain ⟨ht,hbefore,-,-⟩ := firstMatch_eq_some hm
  obtain ⟨x,b,rfl⟩ := List.exists_cons_of_ne_nil hb
  cases hd : m.before with
  | nil => exact Bool.false_ne_true (hne.symm.trans (hd ▸ hbefore).nullable)
  | cons y d =>
    rw [hd] at ht hbefore
    simp only [List.cons_append,List.cons.injEq] at ht
    exact Bool.false_ne_true ((hu x (by simp [hab])).symm.trans (ht.1 ▸ hbefore.starts))

theorem sub_eq_self_of_not_mem {c : α} {t : List α} (hc : ∀ b, pat.before.Matches b → c ∈ b)
    (ht : c ∉ t) (mask : List α) : pat.sub mask t = t := by
  refine (shown_eq_source fun w hw => absurd ?_ ht).trans (source_pieces pat t)
  obtain ⟨ps,qs,hps⟩ := List.append_of_mem hw
  obtain ⟨m,ps',hm,-,rfl,-⟩ := match_of_hidden hps
  rw [← source_pieces pat t,hps]
  simp [hc _ (firstMatch_eq_some hm).2.1]

variable {accepts : α → Bool} {least : ℕ}

theorem Reaches.chars_of_masked (hpat : pat.Reaches accepts least) {w : List α}
    (hw : pat.masked.Matches w) : ∀ x ∈ w, accepts x = true := by
  rw [hpat.masked,matches_chars] at hw
  exact hw.1

theorem Reaches.masked_of_chars (hpat : pat.Reaches accepts 1) {w : List α} (hne : w ≠ [])
    (hw : ∀ x ∈ w, accepts x = true) : pat.masked.Matches w := by
  rw [hpat.masked,matches_chars]
  exact ⟨hw,List.length_pos_of_ne_nil hne,by simp⟩

theorem Reaches.matches_after (hpat : pat.Reaches accepts least) : pat.after.Matches [] := by
  rw [hpat.after]
  exact .eps

/-- The place of a match is determined by where it starts. -/
theorem Reaches.before_unique (hpat : pat.Reaches accepts least) {b w r b' w' r' : List α}
    (hb : pat.before.Matches b) (hw : pat.masked.Matches w) (hb' : pat.before.Matches b')
    (hw' : pat.masked.Matches w') (h : b++w++r = b'++w'++r') : b = b' := by
  -- The longer of the two would go on with a character of the class behind the shorter one.
  have hlonger : ∀ {b w r b' w' r' : List α}, pat.masked.Matches w → pat.before.Matches b →
      pat.before.Matches b' → b++w++r = b'++w'++r' → b <+: b' → b = b' := by
    intro b w r b' w' r' hw hb hb' h hprefix
    obtain ⟨e,rfl⟩ := hprefix
    cases e with
    | nil => simp
    | cons c e =>
      obtain ⟨x,w,rfl⟩ := List.exists_cons_of_ne_nil (pat.masked_ne_nil hw)
      simp only [List.append_assoc,List.cons_append,List.append_cancel_left_eq,List.cons.injEq] at h
      have hc : accepts c = false := hpat.nested [] b c e (by simpa using hb') hb
      exact absurd (hc.symm.trans (h.1 ▸ hpat.chars_of_masked hw x (by simp))) Bool.false_ne_true
  rw [List.append_assoc,List.append_assoc] at h
  rcases List.prefix_or_prefix_of_prefix (List.prefix_append b (w++r))
      (h ▸ List.prefix_append b' (w'++r')) with hprefix | hprefix
  · exact hlonger hw hb hb' (by simpa using h) hprefix
  · exact (hlonger hw' hb' hb (by simpa using h.symm) hprefix).symm

/-- A match that stands at the head of a text is the one that is found. -/
theorem Reaches.firstMatch_of (hpat : pat.Reaches accepts least) {b w r : List α}
    (hb : pat.before.Matches b) (hw : pat.masked.Matches w)
    (hr : ∀ x ∈ r.head?, accepts x = false) : pat.firstMatch (b++w++r) = some ⟨b,w,[],r⟩ := by
  cases hm : pat.firstMatch (b++w++r) with
  | none =>
    have hsome : pat.firstMatch (b++w++[]++r) ≠ none := firstMatch_ne_none hb hw hpat.matches_after
    exact absurd (by simpa using hm) hsome
  | some m =>
    obtain ⟨b',w',c',r'⟩ := m
    obtain ⟨hafter,hrest⟩ := hpat.firstMatch hm
    obtain ⟨ht,hbefore,hmasked,-⟩ := firstMatch_eq_some hm
    simp only at hafter hrest ht hbefore hmasked
    subst hafter
    rw [List.append_nil] at ht
    obtain rfl := hpat.before_unique hb hw hbefore hmasked ht
    rw [List.append_assoc,List.append_assoc,List.append_cancel_left_eq] at ht
    obtain rfl := run_unique (hpat.chars_of_masked hw) hr (hpat.chars_of_masked hmasked) hrest ht
    rw [List.append_cancel_left_eq] at ht
    rw [ht]

theorem Reaches.firstMatch_ne_none (hpat : pat.Reaches accepts 1) {b e : List α} {c : α}
    (hb : pat.before.Matches b) (hc : accepts c = true) : pat.firstMatch (b++c::e) ≠ none := by
  have hw : pat.masked.Matches [c] := hpat.masked_of_chars (by simp) (by simpa using hc)
  have h : pat.firstMatch (b++[c]++[]++e) ≠ none := Pattern.firstMatch_ne_none hb hw hpat.matches_after
  simpa using h

theorem Reaches.cut (hpat : pat.Reaches accepts least) {t : List α} {m : Found α}
    (hm : pat.firstMatch t = some m) : t = m.before++m.hidden++m.rest ∧ pat.before.Matches m.before ∧
      pat.masked.Matches m.hidden ∧ (∀ x ∈ m.rest.head?, accepts x = false) ∧
      m.pieces = m.before.map kept++[hidden m.hidden] := by
  obtain ⟨hafter,hrest⟩ := hpat.firstMatch hm
  obtain ⟨ht,hbefore,hmasked,-⟩ := firstMatch_eq_some hm
  refine ⟨by simpa [hafter] using ht,hbefore,hmasked,hrest,?_⟩
  rw [Found.pieces,hafter]
  rfl

theorem Reaches.pieces_of (hpat : pat.Reaches accepts least) {b w r : List α}
    (hb : pat.before.Matches b) (hw : pat.masked.Matches w)
    (hr : ∀ x ∈ r.head?, accepts x = false) :
    pat.pieces (b++w++r) = b.map kept++hidden w::pat.pieces r := by
  rw [pieces_of_some (hpat.firstMatch_of hb hw hr)]
  simp [Found.pieces]

/-- No match reaches over the place between two texts. -/
structure Apart (pat : Pattern α) (accepts : α → Bool) (u z : List α) : Prop where
  head : ∀ x ∈ z.head?, accepts x = false
  before : ∀ a d f g, u = a++d → z = f++g → d ≠ [] → f ≠ [] → pat.before.Matches (d++f) →
    ∀ x ∈ g.head?, accepts x = false

theorem Apart.suffix {a u z : List α} (h : pat.Apart accepts (a++u) z) : pat.Apart accepts u z where
  head := h.head
  before a' d f g hu := h.before (a++a') d f g (by rw [hu,List.append_assoc])

theorem Apart.firstMatch {u z : List α} (h : pat.Apart accepts u z)
    (hpat : pat.Reaches accepts least) (hu : u ≠ []) :
    pat.firstMatch (u++z) =
      (pat.firstMatch u).map fun m => ⟨m.before,m.hidden,m.after,m.rest++z⟩ := by
  cases hm : pat.firstMatch u with
  | some m =>
    obtain ⟨hcut,hbefore,hmasked,hrest,-⟩ := hpat.cut hm
    have hhead : ∀ x ∈ (m.rest++z).head?, accepts x = false := by
      intro x hx
      cases hr : m.rest with
      | nil => exact h.head x (by simpa [hr] using hx)
      | cons y r => exact hrest x (by simpa [hr] using hx)
    conv_lhs => rw [hcut,List.append_assoc,hpat.firstMatch_of hbefore hmasked hhead]
    simp [(hpat.firstMatch hm).1]
  | none =>
    refine Option.eq_none_iff_forall_ne_some.2 fun m hm' => ?_
    obtain ⟨hcut,hbefore,hmasked,-,-⟩ := hpat.cut hm'
    obtain ⟨x,w,hw⟩ := List.exists_cons_of_ne_nil (pat.masked_ne_nil hmasked)
    have hx : accepts x = true := hpat.chars_of_masked hmasked x (by simp [hw])
    rw [List.append_assoc] at hcut
    obtain ⟨f,hf,hz⟩ | ⟨e,he,hz⟩ := List.append_eq_append_iff.1 hcut
    · have hstop : accepts x = false := by
        cases f with
        | nil => exact h.head x (by simp [hz,hw])
        | cons y f =>
          refine h.before [] u (y::f) (m.hidden++m.rest) rfl hz hu (by simp) (hf ▸ hbefore) x ?_
          simp [hw]
      exact absurd (hstop.symm.trans hx) Bool.false_ne_true
    · obtain ⟨v,hv,-⟩ | ⟨v,hv,hz⟩ := List.append_eq_append_iff.1 hz
      · have hsome : pat.firstMatch (m.before++m.hidden++[]++v) ≠ none :=
          Pattern.firstMatch_ne_none hbefore hmasked hpat.matches_after
        exact hsome (by rw [← hm,he,hv]; simp)
      · cases v with
        | nil =>
          have hsome : pat.firstMatch (m.before++m.hidden++[]++[]) ≠ none :=
            Pattern.firstMatch_ne_none hbefore hmasked hpat.matches_after
          exact hsome (by rw [← hm,he,hv]; simp)
        | cons y v =>
          have hy : accepts y = true := hpat.chars_of_masked hmasked y (by simp [hv])
          have hstop := h.head y (by simp [hz])
          exact absurd (hstop.symm.trans hy) Bool.false_ne_true

theorem Apart.pieces {u z : List α} (h : pat.Apart accepts u z) (hpat : pat.Reaches accepts least) :
    pat.pieces (u++z) = pat.pieces u++pat.pieces z := by
  induction u using pieces_induction pat with
  | nil => rfl
  | kept a t hm ih =>
    have hnone := h.firstMatch hpat (by simp)
    rw [hm,Option.map_none,List.cons_append] at hnone
    rw [List.cons_append,pieces_of_none hnone,ih (h.suffix (a:=[a])),List.cons_append]
  | found t m hm ih =>
    obtain ⟨hcut,-,hmasked,-,-⟩ := hpat.cut hm
    have hsome := h.firstMatch hpat (by
      rintro rfl
      simp [List.nil_eq,pat.masked_ne_nil hmasked] at hcut)
    rw [hm,Option.map_some] at hsome
    rw [hcut] at h
    rw [pieces_of_some hsome,ih h.suffix,List.append_assoc]
    rfl

/-- Where no match starts in front of an open hidden group, a longer word starts none either. -/
theorem Reaches.firstMatch_open_eq_none (hpat : pat.Reaches accepts 1) {a : α} {t y w : List α}
    {ps : List (Piece α)} (hm : pat.firstMatch (a::t) = none)
    (h : pat.pieces t = ps++[hidden w]) : pat.firstMatch (a::(t++y)) = none := by
  refine Option.eq_none_iff_forall_ne_some.2 fun m hm' => ?_
  obtain ⟨hcut,hbefore,hmasked,-,-⟩ := hpat.cut hm'
  obtain ⟨x,w',hw'⟩ := List.exists_cons_of_ne_nil (pat.masked_ne_nil hmasked)
  have hx : accepts x = true := hpat.chars_of_masked hmasked x (by simp [hw'])
  obtain ⟨m',ps',hm',rfl,hps',-⟩ := match_of_hidden h
  have hmasked' := (firstMatch_eq_some hm').2.2.1
  obtain ⟨c,v,hv⟩ := List.exists_cons_of_ne_nil (pat.masked_ne_nil hmasked')
  have ht : t = Piece.source ps'++m'.before++m'.hidden := by
    rw [← source_pieces pat t,h,hps']
    simp [Piece.source]
  have hcut' : (a::t)++y = m.before++(m.hidden++m.rest) := by simpa using hcut
  obtain ⟨f,hf,-⟩ | ⟨e,he,he'⟩ := List.append_eq_append_iff.1 hcut'
  · -- The match would hold the group before the last hidden one, and go on behind it.
    have hc := hpat.nested (a::Piece.source ps') m'.before c (v++f)
      (by rw [hf,ht,hv] at hbefore; simpa using hbefore) (firstMatch_eq_some hm').2.1
    exact absurd (hc.symm.trans (hpat.chars_of_masked hmasked' c (by simp [hv])))
      Bool.false_ne_true
  · cases e with
    | nil =>
      have hc := hpat.nested (a::Piece.source ps') m'.before c v
        (by rw [← List.append_nil m.before,← he,ht,hv] at hbefore; simpa using hbefore)
        (firstMatch_eq_some hm').2.1
      exact absurd (hc.symm.trans (hpat.chars_of_masked hmasked' c (by simp [hv])))
        Bool.false_ne_true
    | cons c' e =>
      rw [hw',List.cons_append,List.cons_append,List.cons.injEq] at he'
      exact hpat.firstMatch_ne_none hbefore hx (by rw [he'.1,← he,hm])

/-- A group that is hidden up to the end of a text goes on with the class behind it. -/
theorem Reaches.pieces_of_open (hpat : pat.Reaches accepts 1) {u v w z : List α}
    {ps : List (Piece α)} (h : pat.pieces u = ps++[hidden w]) (hv : ∀ x ∈ v, accepts x = true)
    (hz : ∀ x ∈ z.head?, accepts x = false) :
    pat.pieces (u++v++z) = ps++hidden (w++v)::pat.pieces z := by
  induction u using pieces_induction pat generalizing ps with
  | nil => simp at h
  | kept a t hm ih =>
    cases ps with
    | nil => simp at h
    | cons p ps =>
      simp only [List.cons_append,List.cons.injEq] at h
      have hnone : pat.firstMatch (a::(t++v++z)) = none := by
        rw [List.append_assoc t]
        exact hpat.firstMatch_open_eq_none hm h.2
      rw [List.cons_append,List.cons_append,pieces_of_none hnone,ih h.2,h.1]
      rfl
  | found t m hm ih =>
    obtain ⟨hcut,hbefore,hmasked,hrest,hpieces⟩ := hpat.cut hm
    rw [hpieces] at h
    cases hr : m.rest with
    | nil =>
      rw [hr,pieces_nil,List.append_nil] at h
      obtain ⟨rfl,hw⟩ := List.append_inj' h rfl
      simp only [List.cons.injEq,hidden.injEq,and_true] at hw
      subst hw
      have hwide : pat.masked.Matches (m.hidden++v) := by
        refine hpat.masked_of_chars (by simp [pat.masked_ne_nil hmasked]) fun x hx => ?_
        exact (List.mem_append.1 hx).elim (hpat.chars_of_masked hmasked x) (hv x)
      rw [hcut,hr,List.append_nil,List.append_assoc m.before,hpat.pieces_of hbefore hwide hz]
    | cons x r =>
      obtain hnil | ⟨qs,q,hqs⟩ := List.eq_nil_or_concat' (pat.pieces m.rest)
      · have hsource := source_pieces pat m.rest
        rw [hnil,hr] at hsource
        cases hsource
      · rw [hqs,← List.append_assoc] at h
        obtain ⟨rfl,hq⟩ := List.append_inj' h rfl
        have hhead : ∀ x ∈ (m.rest++v++z).head?, accepts x = false := by
          intro y hy
          exact hrest y (by simpa [hr] using hy)
        rw [hcut,List.append_assoc,List.append_assoc,← List.append_assoc m.rest,
          hpat.pieces_of hbefore hmasked hhead,ih (hqs.trans (by rw [hq]))]
        simp

/-- No hidden group is open at the end of the word behind a text. -/
def AtRest (pat : Pattern α) (p k : List α) : Prop := ∀ ps w, pat.pieces (p++k) ≠ ps++[hidden w]

theorem AtRest.suffix {p p' k : List α} {r : List (Piece α)} (h : pat.AtRest p k)
    (hcut : pat.pieces (p++k) = r++pat.pieces (p'++k)) : pat.AtRest p' k := by
  intro ps w hps
  exact h (r++ps) w (by rw [hcut,hps,List.append_assoc])

theorem AtRest.closed {p k b e : List α} (h : pat.AtRest p k) (hpat : pat.Reaches accepts 1)
    (hcut : p++k = b++e) (hb : pat.before.Matches b) (he : ∀ x ∈ e, accepts x = true) : e = [] := by
  by_contra hne
  refine h (b.map kept) e ?_
  have hpieces := hpat.pieces_of (r:=[]) hb (hpat.masked_of_chars hne he) (by simp)
  rw [hcut]
  simpa using hpieces

theorem AtRest.firstMatch_eq_none {p k x : List α} (h : pat.AtRest p k)
    (hpat : pat.Reaches accepts 1) (hk : ∀ x ∈ k, accepts x = true) (hm : pat.firstMatch p = none)
    (hx : ∀ f c g, x = f++c::g → accepts c = true → ¬ pat.before.Matches (p++k++f)) :
    pat.firstMatch (p++k++x) = none := by
  refine Option.eq_none_iff_forall_ne_some.2 fun m hm' => ?_
  obtain ⟨hcut,hbefore,hmasked,-,-⟩ := hpat.cut hm'
  obtain ⟨c,w,hw⟩ := List.exists_cons_of_ne_nil (pat.masked_ne_nil hmasked)
  have hc : accepts c = true := hpat.chars_of_masked hmasked c (by simp [hw])
  rw [List.append_assoc m.before] at hcut
  obtain ⟨f,hf,hcut⟩ | ⟨e,he,htail⟩ := List.append_eq_append_iff.1 hcut
  · exact hx f c (w++m.rest) (by rw [hcut,hw]; rfl) hc (hf ▸ hbefore)
  · cases e with
    | nil =>
      rw [List.append_nil] at he
      exact hx [] c (w++m.rest) (by rw [← List.nil_append x,← htail,hw]; rfl) hc
        (by rwa [he,List.append_nil])
    | cons y e =>
      have hy : accepts y = true := by
        rw [hw,List.cons_append,List.cons_append,List.cons.injEq] at htail
        exact htail.1 ▸ hc
      obtain ⟨k₁,-,hk₂⟩ | ⟨d,hd,hd'⟩ := List.append_eq_append_iff.1 he
      · have hnil := h.closed hpat he hbefore fun z hz => hk z (by simp [hk₂,hz])
        cases hnil
      · cases d with
        | nil =>
          have hnil := h.closed hpat he hbefore fun z hz => hk z (hd'.trans (List.nil_append k) ▸ hz)
          cases hnil
        | cons z d =>
          simp only [List.cons_append,List.cons.injEq] at hd'
          exact hpat.firstMatch_ne_none hbefore hy (by rw [hd'.1,← hd,hm])

theorem AtRest.step {p k : List α} {m : Found α} (h : pat.AtRest p k)
    (hpat : pat.Reaches accepts 1) (hk : ∀ x ∈ k, accepts x = true) (hm : pat.firstMatch p = some m) :
    pat.AtRest m.rest k ∧
      ∀ x, pat.pieces (p++k++x) = m.pieces++pat.pieces (m.rest++k++x) := by
  obtain ⟨hcut,hbefore,hmasked,hrest,hpieces⟩ := hpat.cut hm
  have hne : m.rest ≠ [] := by
    intro hnil
    have hall : ∀ x ∈ m.hidden++k, accepts x = true := fun x hx =>
      (List.mem_append.1 hx).elim (hpat.chars_of_masked hmasked x) (hk x)
    have hempty := h.closed hpat (by rw [hcut,hnil]; simp) hbefore hall
    exact pat.masked_ne_nil hmasked (List.append_eq_nil_iff.1 hempty).1
  have hscan : ∀ x, pat.pieces (p++k++x) = m.pieces++pat.pieces (m.rest++k++x) := by
    intro x
    have hhead : ∀ y ∈ (m.rest++k++x).head?, accepts y = false := by
      obtain ⟨y,r,hr⟩ := List.exists_cons_of_ne_nil hne
      intro z hz
      exact hrest z (by simpa [hr] using hz)
    have hassoc : p++k++x = m.before++m.hidden++(m.rest++k++x) := by
      conv_lhs => rw [hcut]
      simp
    rw [hassoc,hpat.pieces_of hbefore hmasked hhead,hpieces]
    simp
  exact ⟨h.suffix (by simpa using hscan []),hscan⟩

theorem AtRest.pieces {p k : List α} (h : pat.AtRest p k) (hpat : pat.Reaches accepts 1)
    (hk : ∀ x ∈ k, accepts x = true) (hover : ∀ d f, ¬ pat.before.Matches (d++k++f)) (z : List α) :
    pat.pieces (p++k++z) = pat.pieces p++pat.pieces (k++z) := by
  induction p using pieces_induction pat with
  | nil => rfl
  | kept a t hm ih =>
    have hnone : ∀ z, pat.firstMatch (a::t++k++z) = none := fun z =>
      h.firstMatch_eq_none hpat hk hm fun f _ _ _ _ => hover (a::t) f
    have hrest : pat.AtRest t k := by
      refine h.suffix (r:=[kept a]) (pieces_of_none ?_)
      simpa using hnone []
    have hpieces : pat.pieces (a::t++k++z) = kept a::pat.pieces (t++k++z) := pieces_of_none (hnone z)
    rw [hpieces,ih hrest]
    rfl
  | found t m hm ih =>
    obtain ⟨hrest,hscan⟩ := h.step hpat hk hm
    rw [hscan,ih hrest,List.append_assoc]

/-- A key of the class and what stands between it and the value. -/
structure Leads (pat : Pattern α) (accepts : α → Bool) (k e : List α) : Prop where
  chars : ∀ x ∈ k, accepts x = true
  before : pat.before.Matches (k++e)
  only : ∀ d f g v r c, accepts c = true → v ≠ [] → (∀ x ∈ v, accepts x = true) →
    f++c::g = e++v++r → pat.before.Matches (d++k++f) → f = e

/-- The value behind a key is hidden where no group is open, whatever it is. -/
theorem AtRest.exists_pieces {p k e : List α} (h : pat.AtRest p k) (hpat : pat.Reaches accepts 1)
    (hk : pat.Leads accepts k e) :
    ∃ ps, ∀ v r, v ≠ [] → (∀ x ∈ v, accepts x = true) → (∀ x ∈ r.head?, accepts x = false) →
      pat.pieces (p++k++e++v++r) = ps++hidden v::pat.pieces r := by
  induction p using pieces_induction pat with
  | nil =>
    exact ⟨(k++e).map kept,fun v r hne hv hr => hpat.pieces_of hk.before (hpat.masked_of_chars hne hv) hr⟩
  | kept a t hm ih =>
    by_cases hwhole : pat.before.Matches (a::t++k++e)
    · exact ⟨_,fun v r hne hv hr => hpat.pieces_of hwhole (hpat.masked_of_chars hne hv) hr⟩
    · have hnone : pat.firstMatch (a::t++k++[]) = none :=
        h.firstMatch_eq_none hpat hk.chars hm (by simp)
      obtain ⟨ps,hps⟩ := ih (h.suffix (r:=[kept a]) (pieces_of_none (by simpa using hnone)))
      refine ⟨kept a::ps,fun v r hne hv hr => ?_⟩
      have hnone : pat.firstMatch (a::t++k++(e++v++r)) = none :=
        h.firstMatch_eq_none hpat hk.chars hm fun f c g hcut hc hb =>
          hwhole (hk.only (a::t) f g v r c hc hne hv hcut.symm hb ▸ hb)
      have hpieces : pat.pieces (a::t++k++e++v++r) = kept a::pat.pieces (t++k++e++v++r) :=
        pieces_of_none (by simpa using hnone)
      rw [hpieces,hps v r hne hv hr]
      rfl
  | found t m hm ih =>
    obtain ⟨hrest,hscan⟩ := h.step hpat hk.chars hm
    obtain ⟨ps,hps⟩ := ih hrest
    refine ⟨m.pieces++ps,fun v r hne hv hr => ?_⟩
    have hpieces := hscan (e++v++r)
    have hrest' := hps v r hne hv hr
    simp only [List.append_assoc] at hpieces hrest' ⊢
    rw [hpieces,hrest']

end Pattern
end Regex
