import Mathlib.Data.List.Forall2
import Mathlib.Data.List.TakeWhile
import Mathlib.Order.Lattice
import Mathlib.Tactic.Common

/-! Backtracking search with regular expressions over any alphabet, and the substitution that
masks one group of every match. A text is cut into pieces, those that are shown and those that
are hidden, and the facts about the substitution are facts about these pieces. -/

/-- Regular expressions whose repetitions are those of one class of characters. -/
inductive Regex (α : Type*)
  | eps
  | chars (accepts : α → Bool) (least : ℕ) (most : Option ℕ)
  | seq (r r' : Regex α)
  | alt (r r' : Regex α)

namespace Regex

variable {α : Type*}

def optional (accepts : α → Bool) : Regex α := chars accepts 0 (some 1)

def one (accepts : α → Bool) : Regex α := chars accepts 1 (some 1)

def star (accepts : α → Bool) : Regex α := chars accepts 0 none

def plus (accepts : α → Bool) : Regex α := chars accepts 1 none

/-- The letters of a word in a row, each matched by the characters that stand for it. -/
def spell (stands : α → α → Bool) : List α → Regex α
  | [] => eps
  | a::word => seq (one (stands a)) (spell stands word)

/-- The language of an expression. -/
inductive Matches : Regex α → List α → Prop
  | eps : Matches eps []
  | chars {accepts least most c} (haccepts : ∀ x ∈ c, accepts x = true) (hleast : least ≤ c.length)
      (hmost : ∀ n ∈ most, c.length ≤ n) : Matches (chars accepts least most) c
  | seq {r r' c c'} : Matches r c → Matches r' c' → Matches (seq r r') (c++c')
  | left {r r' c} : Matches r c → Matches (alt r r') c
  | right {r r' c} : Matches r' c → Matches (alt r r') c

theorem matches_eps {c : List α} : eps.Matches c ↔ c = [] := by
  constructor
  · rintro ⟨⟩
    rfl
  · rintro rfl
    exact .eps

theorem matches_chars {accepts : α → Bool} {least : ℕ} {most : Option ℕ} {c : List α} :
    (chars accepts least most).Matches c ↔
      (∀ x ∈ c, accepts x = true) ∧ least ≤ c.length ∧ ∀ n ∈ most, c.length ≤ n := by
  constructor
  · rintro ⟨⟩
    exact ⟨‹_›,‹_›,‹_›⟩
  · rintro ⟨haccepts,hleast,hmost⟩
    exact .chars haccepts hleast hmost

theorem matches_seq {r r' : Regex α} {c : List α} :
    (seq r r').Matches c ↔ ∃ c₁ c₂, c = c₁++c₂ ∧ r.Matches c₁ ∧ r'.Matches c₂ := by
  constructor
  · rintro ⟨⟩
    exact ⟨_,_,rfl,‹_›,‹_›⟩
  · rintro ⟨c₁,c₂,rfl,h,h'⟩
    exact .seq h h'

theorem matches_alt {r r' : Regex α} {c : List α} :
    (alt r r').Matches c ↔ r.Matches c ∨ r'.Matches c := by
  constructor
  · rintro (_ | _)
    · exact .inl ‹_›
    · exact .inr ‹_›
  · rintro (h | h)
    · exact .left h
    · exact .right h

theorem matches_one {accepts : α → Bool} {c : List α} :
    (one accepts).Matches c ↔ ∃ x, c = [x] ∧ accepts x = true := by
  simp only [one,matches_chars,Option.mem_some_iff,forall_eq']
  constructor
  · rintro ⟨haccepts,hleast,hmost⟩
    obtain ⟨x,rfl⟩ := List.length_eq_one_iff.1 (le_antisymm hmost hleast)
    exact ⟨x,rfl,haccepts x (by simp)⟩
  · rintro ⟨x,rfl,hx⟩
    simpa using hx

theorem matches_optional_nil (accepts : α → Bool) : (optional accepts).Matches [] := by
  simp [optional,matches_chars]

theorem matches_star_nil (accepts : α → Bool) : (star accepts).Matches [] := by
  simp [star,matches_chars]

theorem ne_nil_of_matches_chars {accepts : α → Bool} {least : ℕ} {most : Option ℕ} {c : List α}
    (h : (chars accepts least most).Matches c) (hleast : 0 < least) : c ≠ [] :=
  List.ne_nil_of_length_pos (hleast.trans_le (matches_chars.1 h).2.1)

theorem matches_spell {stands : α → α → Bool} {word c : List α} :
    (spell stands word).Matches c ↔ List.Forall₂ (fun a x => stands a x = true) word c := by
  induction word generalizing c with
  | nil => simp [spell,matches_eps]
  | cons a word ih =>
    simp only [spell,matches_seq,matches_one,ih,List.forall₂_cons_left_iff]
    constructor
    · rintro ⟨_,c₂,rfl,⟨x,rfl,hx⟩,h⟩
      exact ⟨x,c₂,hx,h,rfl⟩
    · rintro ⟨x,c₂,hx,h,rfl⟩
      exact ⟨[x],c₂,rfl,⟨x,rfl,hx⟩,h⟩

def accepts : Regex α → α → Bool
  | eps, _ => false
  | chars accepts _ _, x => accepts x
  | seq r r', x => r.accepts x || r'.accepts x
  | alt r r', x => r.accepts x || r'.accepts x

theorem Matches.accepts {r : Regex α} {c : List α} (h : r.Matches c) :
    ∀ x ∈ c, r.accepts x = true := by
  induction h with
  | eps => simp
  | chars haccepts => exact haccepts
  | seq _ _ ih ih' =>
    intro x hx
    simp only [Regex.accepts,Bool.or_eq_true]
    exact (List.mem_append.1 hx).imp (ih x) (ih' x)
  | left _ ih => exact fun x hx => by simp [Regex.accepts,ih x hx]
  | right _ ih => exact fun x hx => by simp [Regex.accepts,ih x hx]

theorem Matches.not_mem {r : Regex α} {c : List α} {x : α} (h : r.Matches c)
    (hx : r.accepts x = false) : x ∉ c :=
  fun hmem => Bool.false_ne_true (hx.symm.trans (h.accepts x hmem))

/-- The longest run of accepted characters at the head of a text, within the bound. -/
def reach (accepts : α → Bool) (most : Option ℕ) (t : List α) : ℕ :=
  most.elim (t.takeWhile accepts).length (min (t.takeWhile accepts).length)

/-- What an expression takes from the head of a text and what it leaves, in the order in which
backtracking tries it: the left branch first, and the longest repetition first. -/
def run : Regex α → List α → List (List α × List α)
  | eps, t => [([],t)]
  | chars accepts least most, t =>
    ((List.range (reach accepts most t+1)).reverse.filter (least ≤ ·)).map fun n =>
      (t.take n,t.drop n)
  | seq r r', t => (run r t).flatMap fun x => (run r' x.2).map fun y => (x.1++y.1,y.2)
  | alt r r', t => run r t ++ run r' t

theorem le_reach_iff {accepts : α → Bool} {most : Option ℕ} {t : List α} {n : ℕ} :
    n ≤ reach accepts most t ↔ n ≤ (t.takeWhile accepts).length ∧ ∀ m ∈ most, n ≤ m := by
  cases most <;> simp [reach]

theorem mem_run_chars {accepts : α → Bool} {least : ℕ} {most : Option ℕ} {t c rest : List α} :
    (c,rest) ∈ run (chars accepts least most) t ↔
      t = c++rest ∧ (chars accepts least most).Matches c := by
  simp only [run,List.mem_map,List.mem_filter,List.mem_reverse,List.mem_range,Nat.lt_succ_iff,
    decide_eq_true_eq,Prod.mk.injEq,le_reach_iff,matches_chars]
  constructor
  · rintro ⟨n,⟨⟨hn,hmost⟩,hleast⟩,rfl,rfl⟩
    have hlength : n ≤ t.length := hn.trans (List.takeWhile_prefix accepts).length_le
    have htake : t.take n = (t.takeWhile accepts).take n := by
      conv_lhs => rw [← List.takeWhile_append_dropWhile (p:=accepts) (l:=t)]
      exact List.take_append_of_le_length hn
    refine ⟨(List.take_append_drop n t).symm,fun x hx => ?_,?_,?_⟩
    · exact List.mem_takeWhile_imp (List.mem_of_mem_take (htake ▸ hx))
    · rwa [List.length_take,min_eq_left hlength]
    · rwa [List.length_take,min_eq_left hlength]
  · rintro ⟨rfl,haccepts,hleast,hmost⟩
    refine ⟨c.length,⟨⟨?_,hmost⟩,hleast⟩,by simp,by simp⟩
    rw [List.takeWhile_append_of_pos haccepts,List.length_append]
    exact Nat.le_add_right _ _

theorem mem_run_iff {r : Regex α} {t c rest : List α} :
    (c,rest) ∈ r.run t ↔ t = c++rest ∧ r.Matches c := by
  induction r generalizing t c rest with
  | eps => simp only [run,List.mem_singleton,Prod.mk.injEq,matches_eps]; grind
  | chars => exact mem_run_chars
  | seq r r' ih ih' =>
    simp only [run,List.mem_flatMap,List.mem_map,Prod.exists,Prod.mk.injEq,ih,ih',matches_seq]
    constructor
    · rintro ⟨c₁,_,⟨rfl,h⟩,c₂,_,⟨rfl,h'⟩,rfl,rfl⟩
      exact ⟨by simp,c₁,c₂,rfl,h,h'⟩
    · rintro ⟨rfl,c₁,c₂,rfl,h,h'⟩
      exact ⟨c₁,c₂++rest,⟨by simp,h⟩,c₂,rest,⟨rfl,h'⟩,rfl,rfl⟩
  | alt r r' ih ih' => simp only [run,List.mem_append,ih,ih',matches_alt,and_or_left]

/-- What a match has taken from the head of a text: the group that is hidden, what stands before
and after it in the match, and what follows the match. -/
structure Found (α : Type*) where
  before : List α
  hidden : List α
  after : List α
  rest : List α

/-- A pattern of three groups; the group that is hidden is never empty. -/
structure Pattern (α : Type*) where
  before : Regex α
  masked : Regex α
  after : Regex α
  masked_ne_nil : ∀ {c}, masked.Matches c → c ≠ []

/-- A text, cut into the characters that stay and the groups that are hidden. -/
inductive Piece (α : Type*)
  | kept (a : α)
  | hidden (w : List α)
  deriving DecidableEq

namespace Piece

def source : List (Piece α) → List α
  | [] => []
  | kept a::ps => a::source ps
  | hidden w::ps => w++source ps

def shown (mask : List α) : List (Piece α) → List α
  | [] => []
  | kept a::ps => a::shown mask ps
  | hidden _::ps => mask++shown mask ps

@[simp] theorem source_append (ps qs : List (Piece α)) :
    source (ps++qs) = source ps++source qs := by
  induction ps with
  | nil => rfl
  | cons p ps ih => cases p <;> simp [source,ih]

@[simp] theorem shown_append (mask : List α) (ps qs : List (Piece α)) :
    shown mask (ps++qs) = shown mask ps++shown mask qs := by
  induction ps with
  | nil => rfl
  | cons p ps ih => cases p <;> simp [shown,ih]

@[simp] theorem source_kept (u : List α) : source (u.map kept) = u := by
  induction u with
  | nil => rfl
  | cons a u ih => simp [source,ih]

@[simp] theorem shown_kept (mask u : List α) : shown mask (u.map kept) = u := by
  induction u with
  | nil => rfl
  | cons a u ih => simp [shown,ih]

theorem kept_of_shown_prefix {mask u b : List α} {ps : List (Piece α)} (hmask : mask ≠ [])
    (hu : ∀ x ∈ u, x ∉ mask) (h : shown mask ps = u++b) : ∃ qs, ps = u.map kept++qs := by
  induction u generalizing ps with
  | nil => exact ⟨ps,rfl⟩
  | cons x u ih =>
    cases ps with
    | nil => simp [shown] at h
    | cons p ps =>
      cases p with
      | kept a =>
        simp only [shown,List.cons_append,List.cons.injEq] at h
        obtain ⟨rfl,h⟩ := h
        obtain ⟨qs,rfl⟩ := ih (fun y hy => hu y (by simp [hy])) h
        exact ⟨qs,rfl⟩
      | hidden w =>
        obtain ⟨m,mask,rfl⟩ := List.exists_cons_of_ne_nil hmask
        simp only [shown,List.cons_append,List.cons.injEq] at h
        exact absurd (by simp [h.1]) (hu x (by simp))

/-- What no mask takes part in stood in the text. -/
theorem kept_of_shown {mask a u b : List α} {ps : List (Piece α)} (hmask : mask ≠ [])
    (hu : ∀ x ∈ u, x ∉ mask) (h : shown mask ps = a++u++b) :
    ∃ qs rs, ps = qs++u.map kept++rs := by
  induction ps generalizing a with
  | nil =>
    simp only [shown,List.nil_eq,List.append_eq_nil_iff] at h
    exact ⟨[],[],by simp [h.1.2]⟩
  | cons p ps ih =>
    cases p with
    | kept c =>
      cases a with
      | nil =>
        obtain ⟨rs,hrs⟩ := kept_of_shown_prefix hmask hu h
        exact ⟨[],rs,by simpa using hrs⟩
      | cons d a =>
        simp only [shown,List.cons_append,List.cons.injEq] at h
        obtain ⟨qs,rs,rfl⟩ := ih h.2
        exact ⟨kept c::qs,rs,by simp⟩
    | hidden w =>
      simp only [shown,List.append_assoc] at h
      obtain ⟨a',rfl,h⟩ | ⟨m,rfl,h⟩ := List.append_eq_append_iff.1 h
      · obtain ⟨qs,rs,rfl⟩ := ih (by simpa using h)
        exact ⟨hidden w::qs,rs,by simp⟩
      · cases u with
        | nil => exact ⟨[],hidden w::ps,by simp⟩
        | cons x u =>
          cases m with
          | nil =>
            obtain ⟨qs,rs,rfl⟩ := ih (a:=[]) (by simpa using h.symm)
            exact ⟨hidden w::qs,rs,by simp⟩
          | cons y m =>
            simp only [List.cons_append,List.cons.injEq] at h
            exact absurd (by simp [h.1]) (hu x (by simp))

/-- Pieces in a row that are kept stand before a hidden group or after it. -/
theorem kept_before_or_after_hidden {a u w : List α} {q : α} {ps qs rest : List (Piece α)}
    (h : a.map kept++hidden w::rest = ps++u.map kept++kept q::qs) :
    q ∈ a ∨ ∃ rs, ps = a.map kept++hidden w::rs ∧ rest = rs++u.map kept++kept q::qs := by
  rw [List.append_assoc] at h
  obtain ⟨rs,hps,hcut⟩ | ⟨bs,ha,hcut⟩ := List.append_eq_append_iff.1 h
  · cases rs with
    | nil => cases u <;> simp at hcut
    | cons r rs =>
      simp only [List.cons_append,List.cons.injEq] at hcut
      obtain ⟨rfl,rfl⟩ := hcut
      exact .inr ⟨rs,hps,by simp⟩
  · have hq : kept q ∈ bs := by
      obtain ⟨cs,hbs,hcut⟩ | ⟨ds,hu,hcut⟩ := List.append_eq_append_iff.1 hcut
      · cases cs with
        | nil => simp at hcut
        | cons c cs =>
          simp only [List.cons_append,List.cons.injEq] at hcut
          simp [hbs,hcut.1]
      · cases ds with
        | nil => simp at hcut
        | cons d ds =>
          simp only [List.cons_append,List.cons.injEq] at hcut
          have hhidden : hidden w ∈ u.map kept := by simp [hu,hcut.1]
          simp at hhidden
    have hmem : kept q ∈ a.map kept := ha ▸ List.mem_append_right ps hq
    exact .inl (by simpa using hmem)

theorem count_shown [DecidableEq α] {mask : List α} {ps : List (Piece α)} {c : α} (hmask : c ∉ mask)
    (h : ∀ w, hidden w ∈ ps → c ∉ w) : (shown mask ps).count c = (source ps).count c := by
  induction ps with
  | nil => rfl
  | cons p ps ih =>
    have hps := ih fun w hw => h w (by simp [hw])
    cases p with
    | kept a => simp [shown,source,List.count_cons,hps]
    | hidden w => simp [shown,source,hps,List.count_eq_zero_of_not_mem hmask,
        List.count_eq_zero_of_not_mem (h w (by simp))]

end Piece

def Found.pieces (m : Found α) : List (Piece α) :=
  m.before.map .kept++.hidden m.hidden::m.after.map .kept

def Found.length (m : Found α) : ℕ := m.before.length+m.hidden.length+m.after.length

namespace Pattern

variable (pat : Pattern α)

/-- The matches at the head of a text, in the order in which backtracking finds them. -/
def found (t : List α) : List (Found α) :=
  (pat.before.run t).flatMap fun x => (pat.masked.run x.2).flatMap fun y =>
    (pat.after.run y.2).map fun z => ⟨x.1,y.1,z.1,z.2⟩

def firstMatch (t : List α) : Option (Found α) := (pat.found t).head?

/-- The scan of a text from the left; `n` characters at its head belong to the match before. -/
def scan : ℕ → List α → List (Piece α)
  | _, [] => []
  | n+1, _::t => scan n t
  | 0, a::t => match pat.firstMatch (a::t) with
    | none => .kept a::scan 0 t
    | some m => m.pieces++scan (m.length-1) t

def pieces (t : List α) : List (Piece α) := pat.scan 0 t

/-- The substitution of a mask for the masked group of every match. -/
def sub (mask t : List α) : List α := Piece.shown mask (pat.pieces t)

variable {pat}

theorem mem_found {t : List α} {m : Found α} :
    m ∈ pat.found t ↔ t = m.before++m.hidden++m.after++m.rest ∧
      pat.before.Matches m.before ∧ pat.masked.Matches m.hidden ∧ pat.after.Matches m.after := by
  obtain ⟨c₁,c₂,c₃,rest⟩ := m
  simp only [found,List.mem_flatMap,List.mem_map,Prod.exists,mem_run_iff,Found.mk.injEq]
  constructor
  · rintro ⟨_,_,⟨rfl,h₁⟩,_,_,⟨rfl,h₂⟩,_,_,⟨rfl,h₃⟩,rfl,rfl,rfl,rfl⟩
    exact ⟨by simp,h₁,h₂,h₃⟩
  · rintro ⟨rfl,h₁,h₂,h₃⟩
    exact ⟨c₁,c₂++c₃++rest,⟨by simp,h₁⟩,c₂,c₃++rest,⟨by simp,h₂⟩,c₃,rest,⟨rfl,h₃⟩,rfl,rfl,rfl,rfl⟩

theorem firstMatch_eq_some {t : List α} {m : Found α} (h : pat.firstMatch t = some m) :
    t = m.before++m.hidden++m.after++m.rest ∧
      pat.before.Matches m.before ∧ pat.masked.Matches m.hidden ∧ pat.after.Matches m.after :=
  mem_found.1 (List.mem_of_head? h)

theorem firstMatch_ne_none {c₁ c₂ c₃ rest : List α} (h₁ : pat.before.Matches c₁)
    (h₂ : pat.masked.Matches c₂) (h₃ : pat.after.Matches c₃) :
    pat.firstMatch (c₁++c₂++c₃++rest) ≠ none := by
  have hm : (⟨c₁,c₂,c₃,rest⟩ : Found α) ∈ pat.found (c₁++c₂++c₃++rest) :=
    mem_found.2 ⟨rfl,h₁,h₂,h₃⟩
  rw [firstMatch,ne_eq,List.head?_eq_none_iff]
  exact List.ne_nil_of_mem hm

theorem scan_eq_pieces (n : ℕ) (t : List α) : pat.scan n t = pat.pieces (t.drop n) := by
  induction n generalizing t with
  | zero => rfl
  | succ n ih =>
    cases t with
    | nil => rfl
    | cons a t => exact ih t

@[simp] theorem pieces_nil : pat.pieces [] = [] := rfl

theorem pieces_of_none {a : α} {t : List α} (h : pat.firstMatch (a::t) = none) :
    pat.pieces (a::t) = .kept a::pat.pieces t := by
  simp [pieces,scan,h]

theorem pieces_of_some {t : List α} {m : Found α} (h : pat.firstMatch t = some m) :
    pat.pieces t = m.pieces++pat.pieces m.rest := by
  obtain ⟨ht,-,hmasked,-⟩ := firstMatch_eq_some h
  have hlength : 0 < m.hidden.length := List.length_pos_of_ne_nil (pat.masked_ne_nil hmasked)
  cases t with
  | nil => simp [List.nil_eq,pat.masked_ne_nil hmasked] at ht
  | cons a t =>
    have hdrop : t.drop (m.length-1) = m.rest := by
      have hdrop := congrArg (List.drop m.length) ht
      rw [show m.length = (m.length-1)+1 by unfold Found.length; omega,List.drop_succ_cons,
        show m.length-1+1 = (m.before++m.hidden++m.after).length by
          simp only [Found.length,List.length_append]; omega,List.drop_left] at hdrop
      exact hdrop
    simp only [pieces,scan,h]
    rw [scan_eq_pieces,hdrop]
    rfl

/-- Induction along the scan of a text. -/
theorem pieces_induction (pat : Pattern α) {P : List α → List (Piece α) → Prop} (nil : P [] [])
    (kept : ∀ a t, pat.firstMatch (a::t) = none → P t (pat.pieces t) →
      P (a::t) (.kept a::pat.pieces t))
    (found : ∀ t m, pat.firstMatch t = some m → P m.rest (pat.pieces m.rest) →
      P t (m.pieces++pat.pieces m.rest)) (t : List α) : P t (pat.pieces t) := by
  induction hn : t.length using Nat.strong_induction_on generalizing t with
  | _ n ih =>
    cases hm : pat.firstMatch t with
    | none =>
      cases t with
      | nil => exact nil
      | cons a t =>
        rw [pieces_of_none hm]
        exact kept a t hm (ih t.length (by simp [← hn]) t rfl)
    | some m =>
      obtain ⟨ht,-,hmasked,-⟩ := firstMatch_eq_some hm
      have hlength : 0 < m.hidden.length := List.length_pos_of_ne_nil (pat.masked_ne_nil hmasked)
      rw [pieces_of_some hm]
      refine found t m hm (ih m.rest.length ?_ m.rest rfl)
      have hlengths := congrArg List.length ht
      simp only [List.length_append] at hlengths
      omega

theorem source_pieces (pat : Pattern α) (t : List α) : Piece.source (pat.pieces t) = t := by
  induction t using pieces_induction pat with
  | nil => rfl
  | kept a t _ ih => rw [Piece.source,ih]
  | found t m hm ih =>
    rw [Piece.source_append,ih,(firstMatch_eq_some hm).1]
    simp [Found.pieces,Piece.source]

theorem matches_of_hidden {t w : List α} (h : .hidden w ∈ pat.pieces t) : pat.masked.Matches w := by
  induction t using pieces_induction pat with
  | nil => simp at h
  | kept a t _ ih => exact ih (by simpa using h)
  | found t m hm ih =>
    simp only [Found.pieces,List.mem_append,List.mem_map,List.mem_cons,reduceCtorEq,and_false,
      exists_false,false_or,or_false,Piece.hidden.injEq] at h
    obtain rfl | h := h
    · exact (firstMatch_eq_some hm).2.2.1
    · exact ih h

/-- Characters of the scan before one that no group of a match takes were scanned in vain. -/
theorem firstMatch_eq_none_of_kept {t u : List α} {q : α} {ps qs : List (Piece α)}
    (hbefore : pat.before.accepts q = false) (hafter : pat.after = eps)
    (h : pat.pieces t = ps++u.map .kept++.kept q::qs) :
    pat.firstMatch (u++q::Piece.source qs) = none := by
  induction t using pieces_induction pat generalizing ps with
  | nil => simp at h
  | kept a t hm ih =>
    cases ps with
    | nil =>
      have ht : a::t = u++q::Piece.source qs := by
        simpa [Piece.source,source_pieces] using congrArg Piece.source h
      rwa [← ht]
    | cons p ps =>
      simp only [List.cons_append,List.cons.injEq] at h
      exact ih h.2
  | found t m hm ih =>
    obtain ⟨-,hm₁,-,hm₃⟩ := firstMatch_eq_some hm
    rw [hafter,matches_eps] at hm₃
    rw [Found.pieces,hm₃,List.map_nil,List.append_assoc,List.singleton_append] at h
    rcases Piece.kept_before_or_after_hidden h with hq | ⟨rs,-,hrest⟩
    · exact absurd hq (hm₁.not_mem hbefore)
    · exact ih hrest

theorem pieces_eq_kept {p r : List α}
    (h : ∀ a b, p = a++b → b ≠ [] → pat.firstMatch (b++r) = none) :
    pat.pieces (p++r) = p.map .kept++pat.pieces r := by
  induction p with
  | nil => rfl
  | cons x p ih =>
    have hnone : pat.firstMatch (x::(p++r)) = none := h [] (x::p) rfl (by simp)
    rw [List.cons_append,pieces_of_none hnone,
      ih fun a b hab hb => h (x::a) b (by simp [hab]) hb]
    rfl

theorem count_sub [DecidableEq α] {mask : List α} {c : α} (hmask : c ∉ mask)
    (hmasked : pat.masked.accepts c = false) (t : List α) :
    (pat.sub mask t).count c = t.count c := by
  rw [sub,Piece.count_shown hmask fun w hw => (matches_of_hidden hw).not_mem hmasked,source_pieces]

theorem infix_of_infix_sub {mask u t : List α} (hmask : mask ≠ []) (hu : ∀ x ∈ u, x ∉ mask)
    (h : u <:+: pat.sub mask t) : u <:+: t := by
  obtain ⟨a,b,h⟩ := h
  obtain ⟨qs,rs,hps⟩ := Piece.kept_of_shown hmask hu h.symm
  refine ⟨Piece.source qs,Piece.source rs,?_⟩
  rw [← source_pieces pat t,hps]
  simp

/-- The word stands in the text at one place only. -/
def OccursOnlyAt (p s q : List α) : Prop := ∀ a b, p++s++q = a++s++b → a = p

theorem eq_nil_of_shifted {a : α} {w q d b : List α} (ha : a ∉ w) (hd : d.length < (a::w).length)
    (h : a::w++q = d++(a::w)++b) : d = [] := by
  cases d with
  | nil => rfl
  | cons x d =>
    simp only [List.cons_append,List.cons.injEq,List.append_assoc] at h
    obtain ⟨e,hd',-⟩ | ⟨e,hw,h⟩ := List.append_eq_append_iff.1 h.2
    · simp only [hd',List.length_cons,List.length_append] at hd
      omega
    · cases e with
      | nil =>
        simp [hw] at hd
      | cons y e =>
        simp only [List.cons_append,List.cons.injEq] at h
        exact absurd (by simp [hw,h.1]) ha

theorem occursOnlyAt_of_head {a : α} {w p q : List α} (ha : a ∉ w) (hp : p.length < (a::w).length)
    (hq : q.length < (a::w).length) : OccursOnlyAt p (a::w) q := by
  intro c b h
  rw [List.append_assoc,List.append_assoc] at h
  obtain ⟨d,rfl,h⟩ | ⟨d,rfl,h⟩ := List.append_eq_append_iff.1 h
  · have hlengths := congrArg List.length h
    simp only [List.length_append] at hlengths
    have hd : d = [] := eq_nil_of_shifted (q:=q) (b:=b) ha (by omega) (by simpa using h)
    rw [hd,List.append_nil]
  · rw [List.length_append] at hp
    have hd : d = [] := eq_nil_of_shifted (q:=b) (b:=q) ha (by omega) (by simpa using h.symm)
    rw [hd,List.append_nil]

variable [DecidableEq α]

/-- The pattern that hides the occurrences of one word. -/
def literal (s : List α) (h : s ≠ []) : Pattern α where
  before := eps
  masked := spell (· == ·) s
  after := eps
  masked_ne_nil := by
    rintro _ hc rfl
    exact h (List.forall₂_nil_right_iff.1 (matches_spell.1 hc))

theorem matches_literal {s c : List α} : (spell (· == ·) s).Matches c ↔ c = s := by
  rw [matches_spell]
  simp only [beq_iff_eq,List.forall₂_eq_eq_eq]
  exact eq_comm

theorem firstMatch_literal {s : List α} (hs : s ≠ []) (r : List α) :
    (literal s hs).firstMatch (s++r) = some ⟨[],s,[],r⟩ := by
  cases hm : (literal s hs).firstMatch (s++r) with
  | none =>
    have hsome : (literal s hs).firstMatch ([]++s++[]++r) ≠ none :=
      firstMatch_ne_none .eps (matches_literal.2 rfl) .eps
    exact absurd (by simpa using hm) hsome
  | some m =>
    obtain ⟨c₁,c₂,c₃,rest⟩ := m
    obtain ⟨ht,hm₁,hm₂,hm₃⟩ := firstMatch_eq_some hm
    obtain rfl := matches_eps.1 hm₁
    obtain rfl := matches_eps.1 hm₃
    obtain rfl := matches_literal.1 hm₂
    simpa using ht.symm

theorem firstMatch_literal_eq_none {s t : List α} (hs : s ≠ []) (h : ¬s <+: t) :
    (literal s hs).firstMatch t = none := by
  refine Option.eq_none_iff_forall_ne_some.2 fun m hm => h ?_
  obtain ⟨ht,hm₁,hm₂,-⟩ := firstMatch_eq_some hm
  rw [matches_eps.1 hm₁,matches_literal.1 hm₂] at ht
  exact ⟨m.after++m.rest,by simpa using ht.symm⟩

theorem sub_literal_eq_self {s t : List α} (hs : s ≠ []) (mask : List α) (h : ¬s <:+: t) :
    (literal s hs).sub mask t = t := by
  have hpieces : (literal s hs).pieces (t++[]) = t.map .kept++(literal s hs).pieces [] := by
    refine pieces_eq_kept fun a b hab _ => firstMatch_literal_eq_none hs fun hprefix => h ?_
    rw [hab]
    exact (by simpa using hprefix.isInfix : s <:+: b).trans (List.suffix_append a b).isInfix
  rw [List.append_nil] at hpieces
  rw [sub,hpieces]
  simp

theorem sub_literal_of_occursOnlyAt {p s q : List α} (hs : s ≠ []) (mask : List α)
    (h : OccursOnlyAt p s q) : (literal s hs).sub mask (p++s++q) = p++mask++q := by
  have hp : (literal s hs).pieces (p++(s++q)) = p.map .kept++(literal s hs).pieces (s++q) := by
    refine pieces_eq_kept fun a b hab hb => firstMatch_literal_eq_none hs ?_
    rintro ⟨d,hd⟩
    have ha := h a d (by rw [hab,List.append_assoc,List.append_assoc,List.append_assoc,hd])
    exact hb (by simpa [ha] using hab)
  have hq : (literal s hs).sub mask q = q := by
    refine sub_literal_eq_self hs mask ?_
    rintro ⟨a,b,hab⟩
    have hp := h (p++s++a) b (by rw [← hab]; simp)
    simp [hs] at hp
  rw [sub,List.append_assoc,hp,pieces_of_some (firstMatch_literal hs q),Piece.shown_append,
    Piece.shown_append,← sub,hq]
  simp [Found.pieces,Piece.shown]

end Pattern

section Cascade

variable (mask : List α)

def maskAll (pats : List (Pattern α)) (t : List α) : List α :=
  pats.foldl (fun t pat => pat.sub mask t) t

variable {mask}

/-- What each substitution preserves, all of them do. -/
theorem maskAll_invariant {P : List α → Prop} {pats : List (Pattern α)}
    (hsub : ∀ pat ∈ pats, ∀ t, P t → P (pat.sub mask t)) {t : List α} (ht : P t) :
    P (maskAll mask pats t) := by
  induction pats generalizing t with
  | nil => exact ht
  | cons pat pats ih =>
    exact ih (fun pat' h => hsub pat' (List.mem_cons_of_mem pat h))
      (hsub pat List.mem_cons_self t ht)

theorem count_maskAll [DecidableEq α] {c : α} (hmask : c ∉ mask) {pats : List (Pattern α)}
    (hmasked : ∀ pat ∈ pats, pat.masked.accepts c = false) (t : List α) :
    (maskAll mask pats t).count c = t.count c :=
  maskAll_invariant (P:=fun t' => t'.count c = t.count c)
    (fun pat hpat t' h => (Pattern.count_sub hmask (hmasked pat hpat) t').trans h) rfl

theorem infix_of_infix_maskAll {u : List α} (hmask : mask ≠ []) (hu : ∀ x ∈ u, x ∉ mask)
    {pats : List (Pattern α)} {t : List α} (h : u <:+: maskAll mask pats t) : u <:+: t :=
  maskAll_invariant (P:=fun t' => u <:+: t' → u <:+: t)
    (fun _ _ _ ih h => ih (Pattern.infix_of_infix_sub hmask hu h)) id h

variable (mask)

/-- How a scan treats one place of the text: it shows it, or one group hides it whole, together
with `u` before it and `v` behind it. -/
inductive Treatment (y : List α) : List α → List α → List (Piece α) → List α → Prop
  | shown : Treatment y [] [] (y.map .kept) y
  | hidden (u v : List α) : Treatment y u v [.hidden (u++y++v)] mask

/-- A word is still at its place and nowhere else, or a mask is at its place and it is nowhere. -/
inductive Removable (s p q : List α) : List α → Prop
  | shown : Pattern.OccursOnlyAt p s q → Removable s p q s
  | hidden : ¬s <:+: p++mask++q → Removable s p q mask

/-- Every scan cuts what surrounds the two words in the same way, and neither of the words. -/
inductive Alike (s s' : List α) :
    List (Pattern α) → List α → List α → List α → List α → Prop
  | done {p q y y'} : Removable mask s p q y → Removable mask s' p q y' → Alike s s' [] p y y' q
  | pass {pat pats p q y y' z z' ps qs ms ms' u v} :
      pat.pieces (p++y++q) = ps++ms++qs → pat.pieces (p++y'++q) = ps++ms'++qs →
      Treatment mask y u v ms z → Treatment mask y' u v ms' z' → p = Piece.source ps++u →
      Alike s s' pats (Piece.shown mask ps) z z' (Piece.shown mask qs) →
      Alike s s' (pat::pats) p y y' q

variable {mask}

theorem Treatment.shown_eq {y u v z : List α} {ms : List (Piece α)}
    (h : Treatment mask y u v ms z) : Piece.shown mask ms = z := by
  cases h with
  | shown => exact Piece.shown_kept mask y
  | hidden => simp [Piece.shown]

theorem Removable.sub_literal [DecidableEq α] {s p q y : List α} (h : Removable mask s p q y)
    (hs : s ≠ []) : (Pattern.literal s hs).sub mask (p++y++q) = p++mask++q := by
  cases h with
  | shown h => exact Pattern.sub_literal_of_occursOnlyAt hs mask h
  | hidden h => exact Pattern.sub_literal_eq_self hs mask h

theorem Alike.sub_literal [DecidableEq α] {s s' p y y' q : List α} {pats : List (Pattern α)}
    (h : Alike mask s s' pats p y y' q) (hs : s ≠ []) (hs' : s' ≠ []) :
    (Pattern.literal s hs).sub mask (maskAll mask pats (p++y++q)) =
      (Pattern.literal s' hs').sub mask (maskAll mask pats (p++y'++q)) := by
  induction h with
  | done h h' => exact (h.sub_literal hs).trans (h'.sub_literal hs').symm
  | @pass pat pats p q y y' z z' ps qs ms ms' u v hpieces hpieces' hms hms' _ _ ih =>
    have hsub : pat.sub mask (p++y++q) = Piece.shown mask ps++z++Piece.shown mask qs := by
      rw [Pattern.sub,hpieces,Piece.shown_append,Piece.shown_append,hms.shown_eq]
    have hsub' : pat.sub mask (p++y'++q) = Piece.shown mask ps++z'++Piece.shown mask qs := by
      rw [Pattern.sub,hpieces',Piece.shown_append,Piece.shown_append,hms'.shown_eq]
    simpa only [maskAll,List.foldl_cons,hsub,hsub'] using ih

end Cascade

end Regex
