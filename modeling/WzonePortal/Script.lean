import Mathlib.Tactic

/-! Programs over an arbitrary set of statements, kept as data. A script has finished,
raises, or waits for the answer to one statement; the answer may itself be an error.
`run` executes a script alone against a state. Nothing here names a table or a request. -/
namespace WzonePortal

inductive Script {Op : Type} (Res : Op → Type) (ε α : Type) : Type
  | ret (a : α)
  | raise (e : ε)
  | call (o : Op) (next : Except ε (Res o) → Script Res ε α)

namespace Script

variable {Op : Type} {Res : Op → Type} {ε α β S : Type}

def bind : Script Res ε α → (α → Script Res ε β) → Script Res ε β
  | .ret a, f => f a
  | .raise e, _ => .raise e
  | .call o next, f => .call o fun r => bind (next r) f

/-- The handler sees the state the failing script left behind. -/
def tryCatch : Script Res ε α → (ε → Script Res ε α) → Script Res ε α
  | .ret a, _ => .ret a
  | .raise e, handler => handler e
  | .call o next, handler => .call o fun r => tryCatch (next r) handler

instance : Monad (Script Res ε) where
  pure := .ret
  bind := bind

instance : MonadExceptOf ε (Script Res ε) where
  throw := .raise
  tryCatch := tryCatch

theorem bind_ret (p : Script Res ε α) : bind p .ret = p := by
  induction p with
  | ret a => rfl
  | raise e => rfl
  | call o next ih =>
    simp only [bind,call.injEq,heq_eq_eq,true_and]
    funext r
    exact ih r

theorem bind_bind {γ : Type} (p : Script Res ε α) (f : α → Script Res ε β)
    (g : β → Script Res ε γ) : bind (bind p f) g = bind p fun a => bind (f a) g := by
  induction p with
  | ret a => rfl
  | raise e => rfl
  | call o next ih =>
    simp only [bind,call.injEq,heq_eq_eq,true_and]
    funext r
    exact ih r

instance : LawfulMonad (Script Res ε) :=
  LawfulMonad.mk' _ bind_ret (fun _ _ => rfl) bind_bind

@[simp] theorem ret_bind (a : α) (f : α → Script Res ε β) :
    (.ret a : Script Res ε α) >>= f = f a := rfl

@[simp] theorem throw_bind (e : ε) (f : α → Script Res ε β) :
    (throw e : Script Res ε α) >>= f = throw e := rfl

/-- Issue one statement and raise its error, if it has one. -/
def perform (o : Op) : Script Res ε (Res o) :=
  .call o fun
    | .ok a => .ret a
    | .error e => .raise e

/-- Raise `e` unless `c` holds. -/
def require (c : Bool) (e : ε) : Script Res ε Unit :=
  if c then .ret () else .raise e

/-- Run a script alone: every statement acts on the state the previous one left. -/
def run (exec : (o : Op) → S → Except ε (Res o) × S) : Script Res ε α → S → Except ε α × S
  | .ret a, s => (.ok a, s)
  | .raise e, s => (.error e, s)
  | .call o next, s => run exec (next (exec o s).1) (exec o s).2

variable (exec : (o : Op) → S → Except ε (Res o) × S)

@[simp] theorem run_pure (a : α) (s : S) :
    run exec (pure a : Script Res ε α) s = (.ok a, s) := rfl

@[simp] theorem run_ret (a : α) (s : S) :
    run exec (.ret a : Script Res ε α) s = (.ok a, s) := rfl

@[simp] theorem run_raise (e : ε) (s : S) :
    run exec (.raise e : Script Res ε α) s = (.error e, s) := rfl

@[simp] theorem run_throw (e : ε) (s : S) :
    run exec (throw e : Script Res ε α) s = (.error e, s) := rfl

theorem run_bind (p : Script Res ε α) (f : α → Script Res ε β) (s : S) :
    run exec (p >>= f) s =
      match run exec p s with
      | (.ok a, t) => run exec (f a) t
      | (.error e, t) => (.error e, t) := by
  change run exec (bind p f) s = _
  induction p generalizing s with
  | ret a => rfl
  | raise e => rfl
  | call o next ih => exact ih (exec o s).1 (exec o s).2

theorem run_bind_of_ok {p : Script Res ε α} {s t : S} {a : α} (h : run exec p s = (.ok a, t))
    (f : α → Script Res ε β) : run exec (p >>= f) s = run exec (f a) t := by
  rw [run_bind,h]

theorem run_bind_of_error {p : Script Res ε α} {s t : S} {e : ε}
    (h : run exec p s = (.error e, t)) (f : α → Script Res ε β) :
    run exec (p >>= f) s = (.error e, t) := by
  rw [run_bind,h]

theorem run_tryCatch (p : Script Res ε α) (handler : ε → Script Res ε α) (s : S) :
    run exec (tryCatch p handler) s =
      match run exec p s with
      | (.ok a, t) => (.ok a, t)
      | (.error e, t) => run exec (handler e) t := by
  induction p generalizing s with
  | ret a => rfl
  | raise e => rfl
  | call o next ih => exact ih (exec o s).1 (exec o s).2

theorem run_perform (o : Op) (s : S) :
    run exec (perform o : Script Res ε (Res o)) s = exec o s := by
  rcases h : exec o s with ⟨r,t⟩
  cases r <;> simp [perform,run,h]

@[simp] theorem run_require (c : Bool) (e : ε) (s : S) :
    run exec (require c e : Script Res ε Unit) s = (if c then .ok () else .error e, s) := by
  cases c <;> rfl

end Script
end WzonePortal
