import Mathlib.Tactic

/-! Sorting by a column with a tiebreak, and reading a list page by page. A column is
compared by a total preorder only; the tiebreak makes the sorted list unique, so all page
sizes read one list. -/
namespace WzonePortal

structure TotalPreorder (β : Type) where
  le : β → β → Bool
  total : ∀ a b, le a b = true ∨ le b a = true
  trans : ∀ a b c, le a b = true → le b c = true → le a c = true

namespace TotalPreorder

variable {α β γ : Type}

/-- The descending order. -/
def reverse (o : TotalPreorder β) : TotalPreorder β where
  le := fun a b => o.le b a
  total := fun a b => o.total b a
  trans := fun a b c hab hbc => o.trans c b a hbc hab

def ofLinearOrder (β : Type) [LinearOrder β] : TotalPreorder β where
  le := fun a b => decide (a ≤ b)
  total := fun a b => by simpa using le_total a b
  trans := fun a b c hab hbc => by
    simp only [decide_eq_true_eq] at hab hbc ⊢
    exact hab.trans hbc

variable [LinearOrder γ] (o : TotalPreorder β) (key : α → β) (tie : α → γ)

/-- By the key, then by the tiebreak, always ascending. -/
def TieBroken (a b : α) : Prop :=
  o.le (key a) (key b) = true ∧ (o.le (key b) (key a) = false ∨ tie a ≤ tie b)

instance : DecidableRel (o.TieBroken key tie) :=
  fun _ _ => inferInstanceAs (Decidable (_ ∧ (_ ∨ _)))

theorem tieBroken_total (a b : α) : o.TieBroken key tie a b ∨ o.TieBroken key tie b a := by
  unfold TieBroken
  cases hab : o.le (key a) (key b)
  · have hba := (o.total (key a) (key b)).resolve_left (by simp [hab])
    exact .inr ⟨hba,.inl rfl⟩
  · cases hba : o.le (key b) (key a)
    · exact .inl ⟨rfl,.inl rfl⟩
    · rcases le_total (tie a) (tie b) with h | h
      · exact .inl ⟨rfl,.inr h⟩
      · exact .inr ⟨rfl,.inr h⟩

theorem tieBroken_trans {a b c : α} (hab : o.TieBroken key tie a b)
    (hbc : o.TieBroken key tie b c) : o.TieBroken key tie a c := by
  have hac := o.trans _ _ _ hab.1 hbc.1
  refine ⟨hac,?_⟩
  by_cases hca : o.le (key c) (key a) = true
  · have hba := o.trans _ _ _ hbc.1 hca
    have hcb := o.trans _ _ _ hca hab.1
    have h1 := hab.2.resolve_left (by simp [hba])
    have h2 := hbc.2.resolve_left (by simp [hcb])
    exact .inr (h1.trans h2)
  · exact .inl (by simpa using hca)

theorem tieBroken_antisymm {a b : α} (hab : o.TieBroken key tie a b)
    (hba : o.TieBroken key tie b a) : tie a = tie b := by
  have h1 := hab.2.resolve_left (by simp [hba.1])
  have h2 := hba.2.resolve_left (by simp [hab.1])
  exact le_antisymm h1 h2

instance : Std.Total (o.TieBroken key tie) := ⟨o.tieBroken_total key tie⟩
instance : IsTrans α (o.TieBroken key tie) := ⟨fun _ _ _ => o.tieBroken_trans key tie⟩

/-- ORDER BY the key and then the tiebreak. -/
def orderBy (l : List α) : List α := l.insertionSort (o.TieBroken key tie)

theorem orderBy_perm (l : List α) : (o.orderBy key tie l).Perm l := List.perm_insertionSort _ l

theorem orderBy_pairwise (l : List α) : (o.orderBy key tie l).Pairwise (o.TieBroken key tie) :=
  List.pairwise_insertionSort _ l

theorem orderBy_eq_of_perm {l m : List α} (h : l.Perm m)
    (hinj : ∀ a ∈ l, ∀ b ∈ l, tie a = tie b → a = b) : o.orderBy key tie l = o.orderBy key tie m := by
  have hperm := (o.orderBy_perm key tie l).trans (h.trans (o.orderBy_perm key tie m).symm)
  refine hperm.eq_of_pairwise (fun a b ha hb hab hba => ?_) (o.orderBy_pairwise key tie l)
    (o.orderBy_pairwise key tie m)
  have hal := (o.orderBy_perm key tie l).mem_iff.mp ha
  have hbl := h.mem_iff.mpr ((o.orderBy_perm key tie m).mem_iff.mp hb)
  exact hinj a hal b hbl (o.tieBroken_antisymm key tie hab hba)

end TotalPreorder

/-- OFFSET and LIMIT. -/
def slice {α : Type} (offset limit : ℕ) (l : List α) : List α := (l.drop offset).take limit

section Pages

variable {α β : Type} {L : ℕ} {l : List α}

theorem slice_map (f : α → β) (offset limit : ℕ) (l : List α) :
    slice offset limit (l.map f) = (slice offset limit l).map f := by
  simp [slice,List.map_drop,List.map_take]

theorem slice_eq_nil (hL : 0 < L) (n : ℕ) : slice (n*L) L l = [] ↔ l.length ≤ n*L := by
  rw [slice,List.take_eq_nil_iff,List.drop_eq_nil_iff]
  constructor
  · intro h
    exact h.resolve_left (by omega)
  · exact Or.inr

theorem flatMap_slices (L : ℕ) (l : List α) (n : ℕ) :
    (List.range n).flatMap (fun k => slice (k*L) L l) = l.take (n*L) := by
  induction n with
  | zero => simp
  | succ n ih =>
    rw [List.range_succ,List.flatMap_append,ih,Nat.succ_mul,List.take_add]
    simp [slice]

/-- Pages are read until an empty one comes back; together they are the list. -/
theorem exists_first_empty_slice (hL : 0 < L) (l : List α) : ∃ n,
    (∀ k < n, slice (k*L) L l ≠ []) ∧ slice (n*L) L l = [] ∧
      (List.range n).flatMap (fun k => slice (k*L) L l) = l := by
  have hempty : ∃ n, slice (n*L) L l = [] :=
    ⟨l.length,(slice_eq_nil hL _).mpr (Nat.le_mul_of_pos_right _ hL)⟩
  have hlast := Nat.find_spec hempty
  refine ⟨Nat.find hempty,fun k hk => Nat.find_min hempty hk,hlast,?_⟩
  rw [flatMap_slices]
  exact List.take_of_length_le ((slice_eq_nil hL _).mp hlast)

end Pages
end WzonePortal
