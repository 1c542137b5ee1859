import WzonePortal.ScriptRules

/-! Generators, and the loops that consume them. A generator is a script that may also hand a
value to its consumer. If the consumer raises, the generator is told to exit where it stands, and
the exception goes on past it. -/
namespace WzonePortal

/-- A statement, or a value for the consumer. -/
inductive GenOp (Op Y : Type)
  | call (o : Op)
  | yield (y : Y)

@[reducible] def GenOp.Res {Op Y : Type} (Res : Op → Type) : GenOp Op Y → Type
  | .call o => Res o
  | .yield _ => Unit

abbrev Generator {Op : Type} (Res : Op → Type) (Y ε α : Type) : Type :=
  @Script (GenOp Op Y) (GenOp.Res Res) ε α

namespace Generator

variable {Op : Type} {Res : Op → Type} {Y ε α β σ : Type}

def yield (y : Y) : Generator Res Y ε Unit :=
  @Script.perform (GenOp Op Y) (GenOp.Res Res) ε (.yield y)

def lift : Script Res ε α → Generator Res Y ε α
  | .ret a => .ret a
  | .raise e => .raise e
  | .call o next => .call (.call o) fun r => lift (next r)

/-- What is left to do in a generator that has been told to exit; what it raises is lost. -/
def close : Generator Res Y ε α → Script Res ε Unit
  | .ret _ => .ret ()
  | .raise _ => .ret ()
  | .call (.call o) next => .call o fun r => close (next r)
  | .call (.yield _) _ => .ret ()

/-- The loop `async for`, with the consumer's state `s`. -/
def drive (body : Y → σ → Script Res ε σ) (exit : ε) : Generator Res Y ε α → σ → Script Res ε σ
  | .ret _, s => .ret s
  | .raise e, _ => .raise e
  | .call (.call o) next, s => .call o fun r => drive body exit (next r) s
  | .call (.yield y) next, s =>
    (Script.tryCatch (body y s) fun e => (close (next (.error exit))).bind fun _ => .raise e).bind
      fun t => drive body exit (next (.ok ())) t

theorem run_lift {S : Type} (exec : (o : GenOp Op Y) → S → Except ε (GenOp.Res Res o) × S)
    (p : Script Res ε α) (s : S) :
    (lift p : Generator Res Y ε α).run exec s = p.run (fun o => exec (.call o)) s := by
  induction p generalizing s with
  | ret a => rfl
  | raise e => rfl
  | call o next ih => exact ih (exec (.call o) s).1 (exec (.call o) s).2

section
variable (body : Y → σ → Script Res ε σ) (exit : ε)

theorem drive_lift (p : Script Res ε α) (f : α → Generator Res Y ε β) (s : σ) :
    drive body exit (lift p >>= f) s = p >>= fun a => drive body exit (f a) s := by
  change drive body exit (Script.bind (lift p) f) s = Script.bind p _
  induction p with
  | ret a => rfl
  | raise e => rfl
  | call o next ih =>
    simp only [lift,Script.bind,drive,Script.call.injEq,heq_eq_eq,true_and]
    funext r
    exact ih r

theorem tryCatch_raise (p : Script Res ε α) : Script.tryCatch p .raise = p := by
  induction p with
  | ret a => rfl
  | raise e => rfl
  | call o next ih =>
    simp only [Script.tryCatch,Script.call.injEq,heq_eq_eq,true_and]
    funext r
    exact ih r

/-- A generator that yields outside of its handlers does nothing more when it is told to exit. -/
theorem drive_yield (y : Y) (f : Unit → Generator Res Y ε β) (s : σ) :
    drive body exit (yield y >>= f) s = body y s >>= fun t => drive body exit (f ()) t := by
  change (Script.tryCatch (body y s) fun e => .raise e).bind _ = Script.bind (body y s) _
  rw [tryCatch_raise]
  rfl

end

def OnCalls (φ : Op → Prop) : GenOp Op Y → Prop
  | .call o => φ o
  | .yield _ => True

section
variable {φ : Op → Prop}

theorem issues_lift {p : Script Res ε α} (h : p.Issues φ) :
    (lift p : Generator Res Y ε α).Issues (OnCalls φ) := by
  induction p with
  | ret a => trivial
  | raise e => trivial
  | call o next ih => exact ⟨h.1,fun r => ih r (h.2 r)⟩

theorem issues_yield (y : Y) : (yield y : Generator Res Y ε Unit).Issues (OnCalls φ) :=
  Script.issues_perform trivial

theorem issues_close {g : Generator Res Y ε α} (h : g.Issues (OnCalls φ)) :
    (close g).Issues φ := by
  induction g with
  | ret a => trivial
  | raise e => trivial
  | call o next ih =>
    cases o with
    | call o => exact ⟨h.1,fun r => ih r (h.2 r)⟩
    | yield y => trivial

theorem issues_drive {body : Y → σ → Script Res ε σ} {exit : ε} {g : Generator Res Y ε α}
    (h : g.Issues (OnCalls φ)) (hbody : ∀ y s, (body y s).Issues φ) (s : σ) :
    (drive body exit g s).Issues φ := by
  induction g generalizing s with
  | ret a => trivial
  | raise e => trivial
  | call o next ih =>
    cases o with
    | call o => exact ⟨h.1,fun r => ih r (h.2 r) s⟩
    | yield y =>
      refine Script.Issues.bind ((hbody y s).tryCatch fun e => ?_) fun t => ih _ (h.2 _) t
      exact (issues_close (h.2 _)).bind fun _ => trivial

end

/-- How a generator has been left. -/
inductive Exit (ε α : Type)
  | returned (a : α)
  | raised (e : ε)
  | closed
  deriving DecidableEq

/-- A consumer that takes values until the generator ends, or closes it where it stands after a
value. -/
def consume {S : Type} (exec : (o : Op) → S → Except ε (Res o) × S) (exit : ε)
    (closes : List Y → Bool) : Generator Res Y ε α → List Y → S → List Y × Exit ε α × S
  | .ret a, got, s => (got,.returned a,s)
  | .raise e, got, s => (got,.raised e,s)
  | .call (.call o) next, got, s => consume exec exit closes (next (exec o s).1) got (exec o s).2
  | .call (.yield y) next, got, s =>
    if closes (got ++ [y]) then (got ++ [y],.closed,((close (next (.error exit))).run exec s).2)
    else consume exec exit closes (next (.ok ())) (got ++ [y]) s

def yieldAll : List Y → Generator Res Y ε Unit
  | [] => .ret ()
  | y::ys => yield y >>= fun _ => yieldAll ys

/-- What a consumer takes of the values, and whether it closes then. -/
def taken (closes : List Y → Bool) : List Y → List Y → List Y × Bool
  | got, [] => (got,false)
  | got, y::ys => if closes (got ++ [y]) then (got ++ [y],true) else taken closes (got ++ [y]) ys

/-- No handler of the generator stands around a value that it yields. -/
def Unguarded (exit : ε) : Generator Res Y ε α → Prop
  | .ret _ => True
  | .raise _ => True
  | .call (.call _) next => ∀ r, Unguarded exit (next r)
  | .call (.yield _) next => next (.error exit) = .raise exit ∧ Unguarded exit (next (.ok ()))

section
variable {S : Type} {exec : (o : Op) → S → Except ε (Res o) × S} {exit : ε}
  {closes : List Y → Bool}

theorem taken_of_not_closed {got ys : List Y} (h : (taken closes got ys).2 = false) :
    (taken closes got ys).1 = got ++ ys := by
  induction ys generalizing got with
  | nil => simp [taken]
  | cons y ys ih =>
    rw [taken] at h ⊢
    split_ifs at h ⊢
    rw [ih h,List.append_assoc,List.singleton_append]

theorem taken_of_closed {got ys : List Y} (h : (taken closes got ys).2 = true) :
    closes (taken closes got ys).1 = true ∧
      ∃ front, front ≠ [] ∧ front <+: ys ∧ (taken closes got ys).1 = got ++ front := by
  induction ys generalizing got with
  | nil => cases h
  | cons y ys ih =>
    rw [taken] at h ⊢
    split_ifs at h ⊢ with hcloses
    · exact ⟨hcloses,[y],by simp,⟨ys,rfl⟩,rfl⟩
    · obtain ⟨hlast,front,_,hfront,htaken⟩ := ih h
      refine ⟨hlast,y::front,by simp,?_,by rw [htaken,List.append_assoc,List.singleton_append]⟩
      exact List.cons_prefix_cons.mpr ⟨rfl,hfront⟩

theorem consume_lift (p : Script Res ε α) (f : α → Generator Res Y ε β) (got : List Y) (s : S) :
    consume exec exit closes (lift p >>= f) got s =
      match p.run exec s with
      | (.ok a,t) => consume exec exit closes (f a) got t
      | (.error e,t) => (got,.raised e,t) := by
  change consume exec exit closes (Script.bind (lift p) f) got s = _
  induction p generalizing s with
  | ret a => rfl
  | raise e => rfl
  | call o next ih => exact ih (exec o s).1 (exec o s).2

theorem consume_yieldAll (ys : List Y) (f : Unit → Generator Res Y ε β) (got : List Y) (s : S) :
    consume exec exit closes (yieldAll ys >>= f) got s =
      if (taken closes got ys).2 then ((taken closes got ys).1,.closed,s)
      else consume exec exit closes (f ()) (taken closes got ys).1 s := by
  change consume exec exit closes (Script.bind (yieldAll ys) f) got s = _
  induction ys generalizing got with
  | nil => rfl
  | cons y ys ih =>
    rw [taken]
    by_cases hcloses : closes (got ++ [y]) = true
    · rw [if_pos hcloses]
      exact if_pos hcloses
    · rw [if_neg hcloses,← ih]
      exact if_neg hcloses

theorem unguarded_lift (p : Script Res ε α) : (lift p : Generator Res Y ε α).Unguarded exit := by
  induction p with
  | ret a => trivial
  | raise e => trivial
  | call o next ih => exact ih

theorem Unguarded.bind {g : Generator Res Y ε α} {f : α → Generator Res Y ε β}
    (h : g.Unguarded exit) (hf : ∀ a, (f a).Unguarded exit) : (g >>= f).Unguarded exit := by
  change Unguarded exit (Script.bind g f : Generator Res Y ε β)
  induction g with
  | ret a => exact hf a
  | raise e => trivial
  | call o next ih =>
    cases o with
    | call o => exact fun r => ih r (h r)
    | yield y =>
      refine ⟨?_,ih _ h.2⟩
      change Script.bind (next (.error exit)) f = _
      rw [h.1]
      rfl

theorem unguarded_yieldAll (ys : List Y) :
    (yieldAll ys : Generator Res Y ε Unit).Unguarded exit := by
  induction ys with
  | nil => trivial
  | cons y ys ih => exact ⟨rfl,ih⟩

theorem close_lift_throw (cleanup : Script Res ε Unit) (e : ε) (s : S) :
    ((close (lift cleanup >>= fun _ => (throw e : Generator Res Y ε α))).run exec s).2 =
      (cleanup.run exec s).2 := by
  change ((close (Script.bind (lift cleanup) fun _ => .raise e)).run exec s).2 = _
  induction cleanup generalizing s with
  | ret a => rfl
  | raise e => rfl
  | call o next ih => exact ih (exec o s).1 (exec o s).2

/-- However the generator is left, the clean-up runs once, after everything else. -/
theorem consume_tryFinally {g : Generator Res Y ε α} {cleanup : Script Res ε Unit}
    (h : g.Unguarded exit) (hcleanup : ∀ s, (cleanup.run exec s).1 = .ok ()) (got : List Y)
    (s : S) : consume exec exit closes (Script.tryFinally g (lift cleanup)) got s =
      ((consume exec exit closes g got s).1,(consume exec exit closes g got s).2.1,
        (cleanup.run exec (consume exec exit closes g got s).2.2).2) := by
  have hrun : ∀ t, cleanup.run exec t = (.ok (),(cleanup.run exec t).2) := fun t =>
    Prod.ext (hcleanup t) rfl
  induction g generalizing got s with
  | ret a =>
    change consume exec exit closes (lift cleanup >>= fun _ => pure a) got s = _
    rw [consume_lift,hrun s]
    rfl
  | raise e =>
    change consume exec exit closes (Script.bind (Script.bind (lift cleanup) fun _ => throw e) _)
      got s = _
    rw [Script.bind_bind]
    change consume exec exit closes (lift cleanup >>= _) got s = _
    rw [consume_lift,hrun s]
    rfl
  | call o next ih =>
    cases o with
    | call o => exact ih (exec o s).1 (h _) got (exec o s).2
    | yield y =>
      by_cases hcloses : closes (got ++ [y]) = true
      · have hinner : consume exec exit closes (Script.call (.yield y) next : Generator Res Y ε α)
            got s = (got ++ [y],.closed,s) := by
          rw [consume,if_pos hcloses,h.1]
          rfl
        rw [hinner]
        refine (if_pos hcloses).trans ?_
        simp only [h.1,Script.tryCatch]
        rw [Prod.mk.injEq,Prod.mk.injEq]
        refine ⟨rfl,rfl,?_⟩
        change ((close (Script.bind (Script.bind (lift cleanup) fun _ => throw exit) _)).run exec
          s).2 = _
        rw [Script.bind_bind]
        exact close_lift_throw cleanup exit s
      · have hinner : consume exec exit closes (Script.call (.yield y) next : Generator Res Y ε α)
            got s = consume exec exit closes (next (.ok ())) (got ++ [y]) s := by
          rw [consume,if_neg hcloses]
        rw [hinner,← ih _ h.2]
        exact if_neg hcloses

end
end Generator
end WzonePortal
