import WzonePortal.Regex

/-! The places of a scan: what stands before a hidden group, what a kept character can be part of,
and how far a group is hidden whose class of characters ends the pattern. -/
namespace Regex

variable {α : Type*}

theorem takeWhile_run {p : α → Bool} {w r : List α} (hw : ∀ x ∈ w, p x = true)
    (hr : ∀ x ∈ r.head?, p x = false) : (w++r).takeWhile p = w := by
  rw [List.takeWhile_append_of_pos hw]
  cases r with
  | nil => simp
  | cons x r => rw [List.takeWhile_cons_of_neg (by simp [hr x rfl]),List.append_nil]

theorem run_unique {p : α → Bool} {w r w' r' : List α} (hw : ∀ x ∈ w, p x = true)
    (hr : ∀ x ∈ r.head?, p x = false) (hw' : ∀ x ∈ w', p x = true)
    (hr' : ∀ x ∈ r'.head?, p x = false) (h : w++r = w'++r') : w = w' := by
  rw [← takeWhile_run hw hr,h,takeWhile_run hw' hr']

theorem matches_spell_append {stands : α → α → Bool} {w w' c : List α} :
    (spell stands (w++w')).Matches c ↔ ∃ c₁ c₂, c = c₁++c₂ ∧ (spell stands w).Matches c₁ ∧
      (spell stands w').Matches c₂ := by
  induction w generalizing c with
  | nil => simp [spell,matches_eps]
  | cons a w ih =>
    simp only [List.cons_append,spell,matches_seq,ih]
    grind

namespace Piece

theorem kept_append_eq_hidden {u w : List α} {xs ps qs : List (Piece α)}
    (h : u.map kept++xs = ps++hidden w::qs) :
    ∃ rs, ps = u.map kept++rs ∧ xs = rs++hidden w::qs := by
  induction u generalizing ps with
  | nil => exact ⟨ps,rfl,h⟩
  | cons a u ih =>
    cases ps with
    | nil => simp at h
    | cons p ps =>
      simp only [List.map_cons,List.cons_append,List.cons.injEq] at h
      obtain ⟨rs,hps,hxs⟩ := ih h.2
      exact ⟨rs,by simp [← h.1,hps],hxs⟩

theorem kept_append_eq_kept {u : List α} {x : α} {xs ps qs : List (Piece α)}
    (h : u.map kept++xs = ps++kept x::qs) :
    (∃ d e, u = d++x::e ∧ qs = e.map kept++xs) ∨
      ∃ rs, ps = u.map kept++rs ∧ xs = rs++kept x::qs := by
  induction u generalizing ps with
  | nil => exact .inr ⟨ps,rfl,h⟩
  | cons a u ih =>
    cases ps with
    | nil =>
      simp only [List.map_cons,List.cons_append,List.nil_append,List.cons.injEq,kept.injEq] at h
      exact .inl ⟨[],u,by simp [h.1],h.2.symm⟩
    | cons p ps =>
      simp only [List.map_cons,List.cons_append,List.cons.injEq] at h
      obtain ⟨d,e,hu,hqs⟩ | ⟨rs,hps,hxs⟩ := ih h.2
      · exact .inl ⟨a::d,e,by simp [hu],hqs⟩
      · exact .inr ⟨rs,by simp [← h.1,hps],hxs⟩

theorem kept_infix_of_hidden {u e w : List α} {c : α} {xs qs : List (Piece α)}
    (h : u.map kept++kept c::xs = e.map kept++hidden w::qs) : ∃ e', e = u++c::e' := by
  induction u generalizing e with
  | nil =>
    cases e with
    | nil => simp at h
    | cons a e =>
      simp only [List.map_nil,List.map_cons,List.nil_append,List.cons_append,List.cons.injEq,
        kept.injEq] at h
      exact ⟨e,by simp [h.1]⟩
  | cons a u ih =>
    cases e with
    | nil => simp at h
    | cons b e =>
      simp only [List.map_cons,List.cons_append,List.cons.injEq,kept.injEq] at h
      obtain ⟨e',rfl⟩ := ih h.2
      exact ⟨e',by simp [h.1]⟩

theorem cut_shown {mask a b : List α} {x : α} {ps : List (Piece α)} (hx : x ∉ mask)
    (h : shown mask ps = a++x::b) :
    ∃ qs rs, ps = qs++kept x::rs ∧ shown mask qs = a ∧ shown mask rs = b := by
  induction ps generalizing a with
  | nil => simp [shown] at h
  | cons p ps ih =>
    cases p with
    | kept c =>
      cases a with
      | nil =>
        simp only [shown,List.nil_append,List.cons.injEq] at h
        exact ⟨[],ps,by simp [h.1],rfl,h.2⟩
      | cons d a =>
        simp only [shown,List.cons_append,List.cons.injEq] at h
        obtain ⟨qs,rs,rfl,hqs,hrs⟩ := ih h.2
        exact ⟨kept c::qs,rs,rfl,by simp [shown,hqs,h.1],hrs⟩
    | hidden w =>
      simp only [shown] at h
      obtain ⟨a',ha,hcut⟩ | ⟨z,hz,hcut⟩ := List.append_eq_append_iff.1 h
      · obtain ⟨qs,rs,rfl,hqs,hrs⟩ := ih hcut
        exact ⟨hidden w::qs,rs,rfl,by simp [shown,hqs,ha],hrs⟩
      · cases z with
        | nil =>
          obtain ⟨qs,rs,rfl,hqs,hrs⟩ := ih (a:=[]) (by simpa using hcut.symm)
          exact ⟨hidden w::qs,rs,rfl,by simpa [shown,hqs] using hz,hrs⟩
        | cons y z =>
          simp only [List.cons_append,List.cons.injEq] at hcut
          exact absurd (by simp [hz,hcut.1]) hx

theorem cut_shown_word {mask a u b : List α} {ps : List (Piece α)} (hmask : mask ≠ [])
    (hne : u ≠ []) (hu : ∀ x ∈ u, x ∉ mask) (h : shown mask ps = a++u++b) :
    ∃ qs rs, ps = qs++u.map kept++rs ∧ shown mask qs = a ∧ shown mask rs = b := by
  obtain ⟨x,u,rfl⟩ := List.exists_cons_of_ne_nil hne
  rw [List.append_assoc,List.cons_append] at h
  obtain ⟨qs,rs,rfl,hqs,hrs⟩ := cut_shown (hu x (by simp)) h
  obtain ⟨rs,rfl⟩ := kept_of_shown_prefix hmask (fun y hy => hu y (by simp [hy])) hrs
  refine ⟨qs,rs,by simp,hqs,?_⟩
  simpa using hrs

theorem mem_source (mask : List α) {x : α} {ps : List (Piece α)} (h : x ∈ source ps) :
    x ∈ shown mask ps ∨ ∃ w, hidden w ∈ ps ∧ x ∈ w := by
  induction ps with
  | nil => simp [source] at h
  | cons p ps ih =>
    cases p with
    | kept a =>
      simp only [source,shown,List.mem_cons,reduceCtorEq,false_or] at h ⊢
      grind
    | hidden w =>
      simp only [source,shown,List.mem_cons,List.mem_append] at h ⊢
      grind

theorem shown_eq_source {mask : List α} {ps : List (Piece α)} (h : ∀ w, hidden w ∈ ps → w = mask) :
    shown mask ps = source ps := by
  induction ps with
  | nil => rfl
  | cons p ps ih =>
    have hps := ih fun w hw => h w (by simp [hw])
    cases p with
    | kept a => rw [shown,source,hps]
    | hidden w => rw [shown,source,hps,h w (by simp)]

theorem count_shown_le [DecidableEq α] {mask : List α} {c : α} (hmask : c ∉ mask)
    (ps : List (Piece α)) : (shown mask ps).count c ≤ (source ps).count c := by
  induction ps with
  | nil => exact le_rfl
  | cons p ps ih =>
    cases p with
    | kept a => simp only [shown,source,List.count_cons]; omega
    | hidden w =>
      simp only [shown,source,List.count_append,List.count_eq_zero_of_not_mem hmask]
      omega

theorem not_mem_hidden [DecidableEq α] {mask : List α} {c : α} {ps : List (Piece α)} (hmask : c ∉ mask)
    (h : (source ps).count c ≤ (shown mask ps).count c) : ∀ w, hidden w ∈ ps → c ∉ w := by
  induction ps with
  | nil => simp
  | cons p ps ih =>
    have hle := count_shown_le hmask ps
    cases p with
    | kept a =>
      simp only [shown,source,List.count_cons] at h
      exact fun w hw => ih (by omega) w (by simpa using hw)
    | hidden v =>
      simp only [shown,source,List.count_append,List.count_eq_zero_of_not_mem hmask] at h
      intro w hw
      rcases List.mem_cons.1 hw with heq | hw
      · cases heq
        exact List.count_eq_zero.1 (by omega)
      · exact ih (by omega) w hw

end Piece

open Piece

namespace Pattern

variable {pat : Pattern α}

/-- A hidden group is that of a match, and the other groups stand around it. -/
theorem match_of_hidden {t w : List α} {ps qs : List (Piece α)}
    (h : pat.pieces t = ps++hidden w::qs) :
    ∃ m ps', pat.firstMatch (m.before++m.hidden++m.after++m.rest) = some m ∧ m.hidden = w ∧
      ps = ps'++m.before.map kept ∧ qs = m.after.map kept++pat.pieces m.rest := by
  induction t using pieces_induction pat generalizing ps with
  | nil => simp at h
  | kept a t _ ih =>
    cases ps with
    | nil => simp at h
    | cons p ps =>
      simp only [List.cons_append,List.cons.injEq] at h
      obtain ⟨m,ps',hm,hw,hps,hqs⟩ := ih h.2
      exact ⟨m,p::ps',hm,hw,by simp [hps],hqs⟩
  | found t m hm ih =>
    have ht := (firstMatch_eq_some hm).1
    rw [Found.pieces,List.append_assoc] at h
    obtain ⟨rs,hps,hcut⟩ := kept_append_eq_hidden h
    cases rs with
    | nil =>
      simp only [List.cons_append,List.nil_append,List.cons.injEq,hidden.injEq] at hcut
      exact ⟨m,[],by rw [← ht,hm],hcut.1,by simpa using hps,hcut.2.symm⟩
    | cons r rs =>
      simp only [List.cons_append,List.cons.injEq] at hcut
      obtain ⟨rs',hrs,hrest⟩ := kept_append_eq_hidden hcut.2
      obtain ⟨m',ps',hm',hw,hps',hqs⟩ := ih hrest
      refine ⟨m',m.before.map kept++hidden m.hidden::m.after.map kept++ps',hm',hw,?_,hqs⟩
      rw [hps,hrs,← hcut.1,hps']
      simp

/-- A character that is kept was scanned in vain, or it belongs to a match, before the hidden group
or after it. -/
theorem kept_cases {t : List α} {x : α} {ps qs : List (Piece α)}
    (h : pat.pieces t = ps++kept x::qs) :
    pat.firstMatch (x::source qs) = none ∨
      (∃ d e w rs, pat.before.Matches (d++x::e) ∧ qs = e.map kept++hidden w::rs) ∨
      ∃ d e, pat.after.Matches (d++x::e) := by
  induction t using pieces_induction pat generalizing ps with
  | nil => simp at h
  | kept a t hm ih =>
    cases ps with
    | nil =>
      simp only [List.nil_append,List.cons.injEq,kept.injEq] at h
      rw [← h.1,← h.2,source_pieces]
      exact .inl hm
    | cons p ps =>
      simp only [List.cons_append,List.cons.injEq] at h
      exact ih h.2
  | found t m hm ih =>
    obtain ⟨-,hbefore,-,hafter⟩ := firstMatch_eq_some hm
    rw [Found.pieces,List.append_assoc] at h
    obtain ⟨d,e,hd,hqs⟩ | ⟨rs,-,hcut⟩ := kept_append_eq_kept h
    · exact .inr (.inl ⟨d,e,_,_,hd ▸ hbefore,hqs⟩)
    · cases rs with
      | nil => simp at hcut
      | cons r rs =>
        simp only [List.cons_append,List.cons.injEq] at hcut
        obtain ⟨d,e,hd,-⟩ | ⟨rs',-,hrest⟩ := kept_append_eq_kept hcut.2
        · exact .inr (.inr ⟨d,e,hd ▸ hafter⟩)
        · exact ih hrest

/-- A match that the scan has kept lies in the group before another. -/
theorem nested_of_kept {t b w c z : List α} {x : α} {ps qs : List (Piece α)}
    (h : pat.pieces t = ps++b.map kept++kept x::qs) (hb : pat.before.Matches b) (hne : b ≠ [])
    (hw : pat.masked.Matches w) (hc : pat.after.Matches c) (hsource : x::source qs = w++c++z) :
    (∃ d e, pat.before.Matches (d++b++x::e)) ∨
      ∃ d e y, b.head? = some y ∧ pat.after.Matches (d++y::e) := by
  obtain ⟨y,b',rfl⟩ := List.exists_cons_of_ne_nil hne
  rw [List.map_cons,List.append_assoc,List.cons_append] at h
  obtain hnone | ⟨d,e,v,rs,hd,he⟩ | ⟨d,e,hd⟩ := kept_cases h
  · have hsome : pat.firstMatch (y::b'++w++c++z) ≠ none := firstMatch_ne_none hb hw hc
    refine absurd ?_ hsome
    rw [← hnone,List.append_assoc,List.append_assoc,← List.append_assoc w c z,← hsource]
    simp [source]
  · obtain ⟨e',rfl⟩ := kept_infix_of_hidden he
    exact .inl ⟨d,e',by simpa using hd⟩
  · exact .inr ⟨d,e,y,rfl,hd⟩

theorem before_hidden {t w : List α} {x : α} {ps qs : List (Piece α)} {starts : α → Prop}
    (hstarts : ∀ b, pat.before.Matches b → ∃ d y, b = d++[y] ∧ starts y)
    (h : pat.pieces t = ps++kept x::hidden w::qs) : starts x := by
  have hcut : pat.pieces t = (ps++[kept x])++hidden w::qs := by simpa using h
  obtain ⟨m,ps',hm,-,hps,-⟩ := match_of_hidden hcut
  obtain ⟨d,y,hd,hy⟩ := hstarts _ (firstMatch_eq_some hm).2.1
  rw [hd,List.map_append,← List.append_assoc] at hps
  obtain ⟨-,hx⟩ := List.append_inj' hps rfl
  simp only [List.map_cons,List.map_nil,List.cons.injEq,kept.injEq,and_true] at hx
  exact hx ▸ hy

/-- Characters behind which no group is hidden are kept in a row, whichever side one reads. -/
theorem kept_run {g : List (Piece α) → List α} {t u r : List α} {x : α} {ps qs : List (Piece α)}
    {starts : α → Prop} (hstarts : ∀ b, pat.before.Matches b → ∃ d y, b = d++[y] ∧ starts y)
    (hnil : g [] = []) (hcons : ∀ a ps, g (kept a::ps) = a::g ps)
    (h : pat.pieces t = ps++kept x::qs) (hx : ¬ starts x) (hg : g qs = u++r)
    (hu : ∀ y ∈ u, ¬ starts y) : ∃ ps' y rs, pat.pieces t = ps'++kept y::rs ∧ ¬ starts y ∧
      qs = u.map kept++rs ∧ g rs = r := by
  induction u generalizing ps x qs with
  | nil => exact ⟨ps,x,qs,h,hx,rfl,hg⟩
  | cons y u ih =>
    cases qs with
    | nil => simp [hnil] at hg
    | cons q qs =>
      cases q with
      | hidden w => exact absurd (before_hidden hstarts h) hx
      | kept c =>
        rw [hcons,List.cons_append,List.cons.injEq] at hg
        obtain ⟨rfl,hg⟩ := hg
        have hcut : pat.pieces t = (ps++[kept x])++kept c::qs := by simpa using h
        obtain ⟨ps',y,rs,hps',hy,hqs,hrs⟩ := ih hcut (hu c (by simp)) hg fun y hy =>
          hu y (by simp [hy])
        exact ⟨ps',y,rs,hps',hy,by simp [hqs],hrs⟩

theorem head?_shown_of_kept {mask t : List α} {x : α} {ps qs : List (Piece α)} {starts : α → Prop}
    (hstarts : ∀ b, pat.before.Matches b → ∃ d y, b = d++[y] ∧ starts y)
    (h : pat.pieces t = ps++kept x::qs) (hx : ¬ starts x) :
    (shown mask qs).head? = (source qs).head? := by
  cases qs with
  | nil => rfl
  | cons q qs =>
    cases q with
    | hidden w => exact absurd (before_hidden hstarts h) hx
    | kept c => rfl

theorem head?_shown_pieces {mask : List α} (hne : ¬ pat.before.Matches []) (t : List α) :
    (shown mask (pat.pieces t)).head? = t.head? := by
  cases t with
  | nil => rfl
  | cons a t =>
    cases hm : pat.firstMatch (a::t) with
    | none => rw [pieces_of_none hm,shown,List.head?_cons,List.head?_cons]
    | some m =>
      obtain ⟨ht,hbefore,-,-⟩ := firstMatch_eq_some hm
      obtain ⟨x,d,hd⟩ := List.exists_cons_of_ne_nil fun hnil => hne (hnil ▸ hbefore)
      rw [pieces_of_some hm,ht,Found.pieces,hd]
      simp [shown]

theorem head?_dropWhile (p : α → Bool) (l : List α) : ∀ x ∈ (l.dropWhile p).head?, p x = false := by
  intro x hx
  have hnot := List.head?_dropWhile_not p l
  rw [Option.mem_def.1 hx] at hnot
  simpa using hnot

theorem head?_run_chars {accepts : α → Bool} {least : ℕ} {t : List α}
    {y : List α × List α} (h : (run (chars accepts least none) t).head? = some y) :
    y = (t.takeWhile accepts,t.dropWhile accepts) := by
  have hcut : t = t.takeWhile accepts++t.dropWhile accepts :=
    List.takeWhile_append_dropWhile.symm
  have htake : t.take (t.takeWhile accepts).length = t.takeWhile accepts :=
    (congrArg (List.take _) hcut).trans List.take_left
  have hdrop : t.drop (t.takeWhile accepts).length = t.dropWhile accepts :=
    (congrArg (List.drop _) hcut).trans List.drop_left
  rw [run,List.range_succ,List.reverse_append,List.reverse_singleton,List.singleton_append] at h
  simp only [reach,Option.elim_none] at h
  by_cases hleast : least ≤ (t.takeWhile accepts).length
  · rw [List.filter_cons_of_pos (by simpa using hleast),List.map_cons,List.head?_cons,
      Option.some.injEq,htake,hdrop] at h
    exact h.symm
  · rw [List.filter_cons_of_neg (by simpa using hleast),List.filter_eq_nil_iff.2 (by
      intro n hn
      rw [List.mem_reverse,List.mem_range] at hn
      simp only [decide_eq_true_eq]
      omega)] at h
    simp at h

/-- The hidden group is the last of the pattern and reaches as far as a class of characters; what
follows the group before it in a match is never of the class. -/
structure Reaches (pat : Pattern α) (accepts : α → Bool) (least : ℕ) : Prop where
  masked : pat.masked = chars accepts least none
  least_pos : 0 < least
  after : pat.after = eps
  before_ne_nil : ¬ pat.before.Matches []
  nested : ∀ d b c e, pat.before.Matches (d++b++c::e) → pat.before.Matches b → accepts c = false

variable {accepts : α → Bool} {least : ℕ}

theorem Reaches.firstMatch (h : pat.Reaches accepts least) {t : List α} {m : Found α}
    (hm : pat.firstMatch t = some m) : m.after = [] ∧ ∀ x ∈ m.rest.head?, accepts x = false := by
  rw [Pattern.firstMatch,found,List.head?_flatMap] at hm
  obtain ⟨x,-,hx⟩ := List.exists_of_findSome?_eq_some hm
  rw [h.masked,h.after] at hx
  simp only [run,List.map_cons,List.map_nil,← List.map_eq_flatMap,List.head?_map,
    Option.map_eq_some_iff] at hx
  obtain ⟨y,hy,rfl⟩ := hx
  have hhead : (run (chars accepts least none) x.2).head? = some y := by
    rw [run,List.head?_map]
    exact Option.map_eq_some_iff.2 hy
  have hrun := head?_run_chars hhead
  exact ⟨rfl,fun c hc => head?_dropWhile accepts x.2 c (by rwa [hrun] at hc)⟩

/-- Wherever the group before stands in the text and the class of the hidden group follows it, the
characters of the class are good as far as they reach. -/
def Everywhere (pat : Pattern α) (accepts : α → Bool) (good : List α → Prop) (t : List α) : Prop :=
  ∀ a b w r, t = a++b++w++r → pat.before.Matches b → pat.masked.Matches w →
    (∀ x ∈ r.head?, accepts x = false) → good w

theorem Everywhere.good_of_run {good : List α → Prop} {t a b z : List α} {x : α}
    (h : pat.Everywhere accepts good t) (hpat : pat.Reaches accepts 1) (ht : t = a++b++x::z)
    (hb : pat.before.Matches b) (hx : accepts x = true) : good (x::z.takeWhile accepts) := by
  refine h a b _ (z.dropWhile accepts) ?_ hb ?_ (head?_dropWhile accepts z)
  · rw [ht,List.append_assoc (a++b),List.cons_append,List.takeWhile_append_dropWhile]
  · rw [hpat.masked,matches_chars]
    refine ⟨fun y hy => ?_,by simp,by simp⟩
    rcases List.mem_cons.1 hy with rfl | hy
    · exact hx
    · exact List.mem_takeWhile_imp hy

theorem Everywhere.good_of_hidden {good : List α → Prop} {t : List α} (h : pat.Everywhere accepts good t)
    (hpat : pat.Reaches accepts least) : ∀ w, hidden w ∈ pat.pieces t → good w := by
  intro w hw
  obtain ⟨ps,qs,hps⟩ := List.append_of_mem hw
  obtain ⟨m,ps',hm,rfl,rfl,rfl⟩ := match_of_hidden hps
  obtain ⟨hafter,hrest⟩ := hpat.firstMatch hm
  obtain ⟨-,hbefore,hmasked,-⟩ := firstMatch_eq_some hm
  refine h (source ps') m.before m.hidden m.rest ?_ hbefore hmasked hrest
  rw [← source_pieces pat t,hps,hafter]
  simp [source,source_pieces]

variable {mask : List α}

theorem Everywhere.sub_eq_self {t : List α} (h : pat.Everywhere accepts (· = mask) t)
    (hpat : pat.Reaches accepts least) : pat.sub mask t = t :=
  (shown_eq_source (h.good_of_hidden hpat)).trans (source_pieces pat t)

theorem Reaches.cut_sub (hpat : pat.Reaches accepts least) (hmask : mask ≠ [])
    (hbefore : ∀ x ∈ mask, pat.before.accepts x = false) {later : Pattern α} {t a b w r : List α}
    (hshown : later.sub mask t = a++b++w++r) (hb : pat.before.Matches b)
    (hw : pat.masked.Matches w) :
    ∃ ps qs c v, w = c::v ∧ (∀ x ∈ c::v, accepts x = true) ∧
      later.pieces t = ps++b.map kept++qs ∧ shown mask qs = c::v++r := by
  have hne : b ≠ [] := fun hnil => hpat.before_ne_nil (hnil ▸ hb)
  have hbmask : ∀ x ∈ b, x ∉ mask := fun x hx hxmask =>
    Bool.false_ne_true ((hbefore x hxmask).symm.trans (hb.accepts x hx))
  obtain ⟨c,v,rfl⟩ := List.exists_cons_of_ne_nil (pat.masked_ne_nil hw)
  rw [hpat.masked,matches_chars] at hw
  rw [List.append_assoc] at hshown
  obtain ⟨ps,qs,hps,-,hqs⟩ := cut_shown_word hmask hne hbmask hshown
  exact ⟨ps,qs,c,v,rfl,hw.1,hps,hqs⟩

/-- The substitution leaves nothing behind the group before but the mask: every character that the
class reaches has been hidden. -/
theorem Reaches.everywhere_sub (hpat : pat.Reaches accepts least) (hmask : mask ≠ [])
    (hbefore : ∀ x ∈ mask, pat.before.accepts x = false)
    (hclass : (least = 1 ∧ ∀ x ∈ mask, accepts x = true) ∨ ∀ x ∈ mask, accepts x = false)
    (t : List α) : pat.Everywhere accepts (· = mask) (pat.sub mask t) := by
  intro a b w r hshown hb hw hr
  obtain ⟨ps,qs,c,w,rfl,haccepts,hps,hqs⟩ := hpat.cut_sub hmask hbefore hshown hb hw
  cases qs with
  | nil => simp [shown] at hqs
  | cons q qs =>
    cases q with
    | hidden v =>
      obtain ⟨m,_,hm,-,-,rfl⟩ := match_of_hidden hps
      obtain ⟨hafter,hrest⟩ := hpat.firstMatch hm
      rw [hafter,shown,List.map_nil,List.nil_append] at hqs
      rcases hclass with ⟨-,hall⟩ | hnone
      · refine (run_unique hall (fun x hx => ?_) haccepts hr hqs).symm
        rw [head?_shown_pieces hpat.before_ne_nil] at hx
        exact hrest x hx
      · obtain ⟨x,mask',rfl⟩ := List.exists_cons_of_ne_nil hmask
        simp only [List.cons_append,List.cons.injEq] at hqs
        exact absurd ((hnone x (by simp)).symm.trans (hqs.1 ▸ haccepts c (by simp)))
          Bool.false_ne_true
    | kept x =>
      exfalso
      obtain ⟨w₀,z,hw₀,hsource⟩ : ∃ w₀ z, pat.masked.Matches w₀ ∧ x::source qs = w₀++z := by
        rcases hclass with ⟨rfl,-⟩ | hnone
        · refine ⟨[x],source qs,?_,rfl⟩
          simp only [shown,List.cons_append,List.cons.injEq] at hqs
          rw [hpat.masked,matches_chars]
          simp [hqs.1,haccepts]
        · obtain ⟨rs,hrs⟩ := kept_of_shown_prefix hmask (fun y hy hymask =>
            Bool.false_ne_true ((hnone y hymask).symm.trans (haccepts y hy))) hqs
          refine ⟨c::w,source rs,hw,?_⟩
          rw [← source_kept (c::w),← source_append,← hrs,source]
      have hafter : pat.after.Matches [] := by
        rw [hpat.after]
        exact .eps
      obtain ⟨d,e,hnest⟩ | ⟨d,e,y,-,hy⟩ := nested_of_kept hps hb
        (fun hnil => hpat.before_ne_nil (hnil ▸ hb)) hw₀ hafter
        (z:=z) (by simpa using hsource)
      · have hx := hpat.nested d b x e hnest hb
        simp only [shown,List.cons_append,List.cons.injEq] at hqs
        exact absurd (hx.symm.trans (hqs.1 ▸ haccepts c (by simp))) Bool.false_ne_true
      · rw [hpat.after,matches_eps] at hy
        simp at hy

/-- A later substitution keeps what an earlier one has left, where no group is hidden behind a
character of it or at its place. -/
theorem Everywhere.sub {good good' : List α → Prop} {later : Pattern α} {starts : α → Prop}
    {t : List α} (h : pat.Everywhere accepts good t) (hpat : pat.Reaches accepts 1)
    (hmask : mask ≠ []) (hbefore : ∀ x ∈ mask, pat.before.accepts x = false)
    (hstarts : ∀ b, later.before.Matches b → ∃ d y, b = d++[y] ∧ starts y)
    (hkept : ∀ w, good w → (∀ x ∈ w, accepts x = true) → good' w ∧ ∀ x ∈ w, ¬ starts x)
    (hplace : ∀ ps b v qs w r, later.pieces t = ps++b.map kept++hidden v::qs →
      pat.before.Matches b → mask++shown mask qs = w++r → (∀ x ∈ w, accepts x = true) →
      (∀ x ∈ r.head?, accepts x = false) → good' w) :
    pat.Everywhere accepts good' (later.sub mask t) := by
  intro a b w r hshown hb hw hr
  obtain ⟨ps,qs,c,w,rfl,haccepts,hps,hqs⟩ := hpat.cut_sub hmask hbefore hshown hb hw
  cases qs with
  | nil => simp [shown] at hqs
  | cons q qs =>
    cases q with
    | hidden v => exact hplace ps b v qs _ r hps hb hqs haccepts hr
    | kept x =>
      simp only [shown,List.cons_append,List.cons.injEq] at hqs
      obtain ⟨rfl,hqs⟩ := hqs
      -- The run of the class in the text before, which no later group touches.
      have hx : accepts x = true := haccepts x (by simp)
      have hgood := h.good_of_run (a:=source ps) (z:=source qs) hpat (by
        rw [← source_pieces later t,hps]
        simp [source]) hb hx
      have hall : ∀ y ∈ x::(source qs).takeWhile accepts, accepts y = true := by
        intro y hy
        rcases List.mem_cons.1 hy with rfl | hy
        · exact hx
        · exact List.mem_takeWhile_imp hy
      obtain ⟨hgood',hnot⟩ := hkept _ hgood hall
      obtain ⟨ps',y,rs,hps',hy,hrs,hsource⟩ := kept_run (g:=source) hstarts rfl (fun _ _ => rfl)
        hps (hnot x (by simp))
        (List.takeWhile_append_dropWhile (p:=accepts)).symm fun y hy => hnot y (by simp [hy])
      have hhead : (shown mask rs).head? = ((source qs).dropWhile accepts).head? :=
        (head?_shown_of_kept hstarts hps' hy).trans (congrArg List.head? hsource)
      rw [hrs,shown_append,shown_kept] at hqs
      have heq := run_unique (w:=x::(source qs).takeWhile accepts) hall
        (fun y hy => head?_dropWhile accepts (source qs) y (hhead ▸ hy)) haccepts hr (by simp [hqs])
      rwa [← heq]

end Pattern
end Regex
