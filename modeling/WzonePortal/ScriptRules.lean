import WzonePortal.Script

/-! Rules about scripts. `Issues` bounds the statements that a script may issue, whatever it
is answered, and `AtMost` their number; a property that they preserve survives its run. `meets`
is the weakest precondition of a script that runs alone. -/
namespace WzonePortal
namespace Script

variable {Op : Type} {Res : Op → Type} {ε α β S : Type}

/-- Every statement that the script can come to issue satisfies `φ`. -/
def Issues (φ : Op → Prop) : Script Res ε α → Prop
  | .ret _ => True
  | .raise _ => True
  | .call o next => φ o ∧ ∀ r, Issues φ (next r)

section
variable {φ ψ : Op → Prop} {p : Script Res ε α} {f : α → Script Res ε β}
  {handler : ε → Script Res ε α}

theorem Issues.mono (h : p.Issues φ) (hφ : ∀ o, φ o → ψ o) : p.Issues ψ := by
  induction p with
  | ret a => trivial
  | raise e => trivial
  | call o next ih => exact ⟨hφ o h.1,fun r => ih r (h.2 r)⟩

theorem Issues.bind (h : p.Issues φ) (hf : ∀ a, (f a).Issues φ) : (p >>= f).Issues φ := by
  change (Script.bind p f).Issues φ
  induction p with
  | ret a => exact hf a
  | raise e => trivial
  | call o next ih => exact ⟨h.1,fun r => ih r (h.2 r)⟩

theorem Issues.tryCatch (h : p.Issues φ) (hhandler : ∀ e, (handler e).Issues φ) :
    (Script.tryCatch p handler).Issues φ := by
  induction p with
  | ret a => trivial
  | raise e => exact hhandler e
  | call o next ih => exact ⟨h.1,fun r => ih r (h.2 r)⟩

theorem issues_pure (a : α) : (pure a : Script Res ε α).Issues φ := trivial

theorem issues_throw (e : ε) : (throw e : Script Res ε α).Issues φ := trivial

theorem issues_perform {o : Op} (h : φ o) : (perform o : Script Res ε (Res o)).Issues φ :=
  ⟨h,fun r => by cases r <;> trivial⟩

theorem issues_require (c : Bool) (e : ε) : (require c e : Script Res ε Unit).Issues φ := by
  cases c <;> trivial

/-- What each statement preserves, the run preserves. -/
theorem Issues.run {exec : (o : Op) → S → Except ε (Res o) × S} {P : S → Prop}
    (h : p.Issues φ) (hstep : ∀ o s, φ o → P s → P (exec o s).2) {s : S} (hs : P s) :
    P (p.run exec s).2 := by
  induction p generalizing s with
  | ret a => exact hs
  | raise e => exact hs
  | call o next ih => exact ih _ (h.2 _) (hstep o s h.1 hs)

end

/-- The run that starts in `s` ends in `Q`. -/
def meets (exec : (o : Op) → S → Except ε (Res o) × S) (p : Script Res ε α) (s : S)
    (Q : Except ε α → S → Prop) : Prop :=
  Q (p.run exec s).1 (p.run exec s).2

section
variable {exec : (o : Op) → S → Except ε (Res o) × S} {p : Script Res ε α} {s : S}
  {Q : Except ε α → S → Prop}

theorem meets_perform {o : Op} {Q : Except ε (Res o) → S → Prop}
    (h : Q (exec o s).1 (exec o s).2) : (perform o : Script Res ε (Res o)).meets exec s Q := by
  rw [meets,run_perform]
  exact h

theorem meets_pure {a : α} (h : Q (.ok a) s) : (pure a : Script Res ε α).meets exec s Q := h

theorem meets_throw {e : ε} (h : Q (.error e) s) : (throw e : Script Res ε α).meets exec s Q := h

theorem meets_mono {R : Except ε α → S → Prop} (h : p.meets exec s R)
    (hQ : ∀ r t, R r t → Q r t) : p.meets exec s Q :=
  hQ _ _ h

theorem meets_bind {f : α → Script Res ε β} {Q : Except ε β → S → Prop}
    {R : Except ε α → S → Prop} (h : p.meets exec s R)
    (hok : ∀ a t, R (.ok a) t → (f a).meets exec t Q)
    (herror : ∀ e t, R (.error e) t → Q (.error e) t) : (p >>= f).meets exec s Q := by
  unfold meets at h ⊢
  rw [run_bind]
  generalize p.run exec s = r at h ⊢
  rcases r with ⟨x,t⟩
  cases x with
  | ok a => exact hok a t h
  | error e => exact herror e t h

theorem meets_tryCatch {handler : ε → Script Res ε α} {R : Except ε α → S → Prop}
    (h : p.meets exec s R) (hok : ∀ a t, R (.ok a) t → Q (.ok a) t)
    (herror : ∀ e t, R (.error e) t → (handler e).meets exec t Q) :
    (tryCatch p handler).meets exec s Q := by
  unfold meets at h ⊢
  rw [run_tryCatch]
  generalize p.run exec s = r at h ⊢
  rcases r with ⟨x,t⟩
  cases x with
  | ok a => exact hok a t h
  | error e => exact herror e t h

end

/-- The outcome of a script as a value. -/
def attempt : Script Res ε α → Script Res ε (Except ε α)
  | .ret a => .ret (.ok a)
  | .raise e => .ret (.error e)
  | .call o next => .call o fun r => attempt (next r)

/-- The clean-up runs on both ways out, and its own error wins. -/
def tryFinally (p : Script Res ε α) (cleanup : Script Res ε Unit) : Script Res ε α := do
  let a ← tryCatch p fun e => do
    cleanup
    throw e
  cleanup
  pure a

section
variable {φ : Op → Prop} {exec : (o : Op) → S → Except ε (Res o) × S} {p : Script Res ε α}
  {cleanup : Script Res ε Unit} {s : S}

theorem Issues.attempt (h : p.Issues φ) : p.attempt.Issues φ := by
  induction p with
  | ret a => trivial
  | raise e => trivial
  | call o next ih => exact ⟨h.1,fun r => ih r (h.2 r)⟩

theorem Issues.tryFinally (h : p.Issues φ) (hcleanup : cleanup.Issues φ) :
    (p.tryFinally cleanup).Issues φ := by
  refine Issues.bind (h.tryCatch fun e => ?_) fun a => ?_
  · exact hcleanup.bind fun _ => issues_throw e
  · exact hcleanup.bind fun _ => issues_pure a

theorem meets_attempt {Q : Except ε (Except ε α) → S → Prop}
    (h : p.meets exec s fun x t => Q (.ok x) t) : p.attempt.meets exec s Q := by
  induction p generalizing s with
  | ret a => exact h
  | raise e => exact h
  | call o next ih => exact ih _ h

theorem meets_tryFinally {Q R : Except ε α → S → Prop} (h : p.meets exec s R)
    (hcleanup : ∀ x t, R x t → cleanup.meets exec t fun y u =>
      Q (y >>= fun _ => x) u) : (p.tryFinally cleanup).meets exec s Q := by
  refine meets_bind (R:=fun x t => cond x.isOk (R x t) (Q x t))
    (meets_tryCatch h (fun a t ha => ha) fun e t he => ?_) ?_ ?_
  · exact meets_bind (hcleanup _ t he) (fun _ u hu => hu) fun e' u hu => hu
  · exact fun a t ha => meets_bind (hcleanup _ t ha) (fun _ u hu => hu) fun e u hu => hu
  · exact fun e t he => he

end

/-- The script issues at most `n` statements, whatever it is answered. -/
def AtMost : ℕ → Script Res ε α → Prop
  | _, .ret _ => True
  | _, .raise _ => True
  | 0, .call _ _ => False
  | n+1, .call _ next => ∀ r, AtMost n (next r)

section
variable {m n : ℕ} {p : Script Res ε α} {f : α → Script Res ε β}

theorem atMost_call {o : Op} {next : Except ε (Res o) → Script Res ε α} :
    (call o next).AtMost n ↔ ∃ m, n = m+1 ∧ ∀ r, (next r).AtMost m := by
  cases n with
  | zero => simp [AtMost]
  | succ n => simp [AtMost]

theorem atMost_ret (a : α) : (ret a : Script Res ε α).AtMost n := by
  cases n <;> trivial

theorem atMost_raise (e : ε) : (raise e : Script Res ε α).AtMost n := by
  cases n <;> trivial

theorem AtMost.mono (h : p.AtMost m) (hmn : m ≤ n) : p.AtMost n := by
  induction p generalizing m n with
  | ret a => exact atMost_ret a
  | raise e => exact atMost_raise e
  | call o next ih =>
    obtain ⟨k,rfl,hnext⟩ := atMost_call.mp h
    obtain ⟨l,rfl⟩ := Nat.exists_eq_add_of_le' (Nat.le_trans (Nat.succ_le_succ k.zero_le) hmn)
    exact atMost_call.mpr ⟨l,rfl,fun r => ih r (hnext r) (Nat.le_of_succ_le_succ hmn)⟩

theorem atMost_perform (o : Op) : (perform o : Script Res ε (Res o)).AtMost 1 :=
  fun r => by cases r <;> trivial

theorem AtMost.bind (h : p.AtMost m) (hf : ∀ a, (f a).AtMost n) : (p >>= f).AtMost (m+n) := by
  change (Script.bind p f).AtMost (m+n)
  induction p generalizing m with
  | ret a => exact (hf a).mono (Nat.le_add_left n m)
  | raise e => exact atMost_raise e
  | call o next ih =>
    obtain ⟨k,rfl,hnext⟩ := atMost_call.mp h
    exact atMost_call.mpr ⟨k+n,by omega,fun r => ih r (hnext r)⟩

theorem AtMost.tryCatch {handler : ε → Script Res ε α} (h : p.AtMost m)
    (hhandler : ∀ e, (handler e).AtMost n) : (Script.tryCatch p handler).AtMost (m+n) := by
  induction p generalizing m with
  | ret a => exact atMost_ret a
  | raise e => exact (hhandler e).mono (Nat.le_add_left n m)
  | call o next ih =>
    obtain ⟨k,rfl,hnext⟩ := atMost_call.mp h
    exact atMost_call.mpr ⟨k+n,by omega,fun r => ih r (hnext r)⟩

theorem AtMost.tryFinally {cleanup : Script Res ε Unit} (h : p.AtMost m)
    (hcleanup : cleanup.AtMost n) : (p.tryFinally cleanup).AtMost (m+n+n) :=
  AtMost.bind (h.tryCatch fun _ => AtMost.bind (n:=0) hcleanup fun _ => trivial)
    fun _ => AtMost.bind (n:=0) hcleanup fun _ => trivial

end

/-- Every statement is written down, in the order in which they are issued, before it acts. -/
def traced (exec : (o : Op) → S → Except ε (Res o) × S) (o : Op) (s : S × List Op) :
    Except ε (Res o) × (S × List Op) :=
  ((exec o s.1).1,((exec o s.1).2,s.2 ++ [o]))

end Script
end WzonePortal
