import Mathlib.Tactic

/-! Trees whose nodes have any number of children, and the walk that visits them breadth first
with a queue. -/
namespace WzonePortal

inductive RoseTree (α : Type)
  | node (value : α) (children : List (RoseTree α))

namespace RoseTree
variable {α : Type} {a : α}

def value : RoseTree α → α
  | .node value _ => value

def children : RoseTree α → List (RoseTree α)
  | .node _ children => children

mutual

def size : RoseTree α → ℕ
  | .node _ children => sizes children+1

def sizes : List (RoseTree α) → ℕ
  | [] => 0
  | t::ts => t.size+sizes ts

end

/-- A value stands somewhere in a tree. -/
inductive Within (a : α) : RoseTree α → Prop
  | here (children : List (RoseTree α)) : Within a (.node a children)
  | inside {value : α} {children : List (RoseTree α)} {t : RoseTree α} :
    t ∈ children → Within a t → Within a (.node value children)

theorem within_iff {t : RoseTree α} :
    Within a t ↔ a = t.value ∨ ∃ u ∈ t.children, Within a u := by
  obtain ⟨value,children⟩ := t
  constructor
  · intro h
    cases h with
    | here => exact .inl rfl
    | inside hu h => exact .inr ⟨_,hu,h⟩
  · rintro (rfl | ⟨u,hu,h⟩)
    · exact .here _
    · exact .inside hu h

theorem sizes_append (ts us : List (RoseTree α)) : sizes (ts ++ us) = sizes ts+sizes us := by
  induction ts with
  | nil => simp [sizes]
  | cons t ts ih => rw [List.cons_append,sizes,sizes,ih,Nat.add_assoc]

theorem size_eq (t : RoseTree α) : t.size = sizes t.children+1 := by
  obtain ⟨value,children⟩ := t
  rfl

def walkQueue : ℕ → List (RoseTree α) → List α
  | 0, _ => []
  | _+1, [] => []
  | n+1, t::todo => t.value::walkQueue n (todo ++ t.children)

def walk (t : RoseTree α) : List α := walkQueue t.size [t]

theorem mem_walkQueue {n : ℕ} {todo : List (RoseTree α)} (h : sizes todo ≤ n) :
    a ∈ walkQueue n todo ↔ ∃ t ∈ todo, Within a t := by
  induction n generalizing todo with
  | zero =>
    cases todo with
    | nil => simp [walkQueue]
    | cons t todo =>
      rw [sizes,size_eq] at h
      omega
  | succ n ih =>
    cases todo with
    | nil => simp [walkQueue]
    | cons t todo =>
      have hrest : sizes (todo ++ t.children) ≤ n := by
        rw [sizes,size_eq] at h
        rw [sizes_append]
        omega
      rw [walkQueue,List.mem_cons,ih hrest]
      simp only [List.mem_cons,List.mem_append,or_and_right,exists_or,exists_eq_left]
      rw [within_iff,or_assoc]
      exact or_congr_right or_comm

theorem mem_walk {t : RoseTree α} : a ∈ t.walk ↔ Within a t := by
  rw [walk,mem_walkQueue (by simp [sizes])]
  simp

end RoseTree
end WzonePortal
