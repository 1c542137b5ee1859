import WzonePortal.Interleaving

/-! Two runs side by side. Scripts are alike when they issue alike statements and go on alike
after alike answers; systems of alike scripts stay alike under every schedule. Of one machine, the
run without the events that an observer does not see is compared with the whole run. -/
namespace WzonePortal

/-- What is alike in two runs: statements, and the answers to them. -/
structure Likeness {Op : Type} (Res : Op → Type) (ε : Type) where
  op : Op → Op → Prop
  answer : (o o' : Op) → Except ε (Res o) → Except ε (Res o') → Prop

section
variable {Op ι : Type} {Res : Op → Type} {ε α β γ δ S L : Type}

namespace Script

def outcome : Script Res ε α → Option (Except ε α)
  | .ret a => some (.ok a)
  | .raise e => some (.error e)
  | .call _ _ => none

inductive Alike (k : Likeness Res ε) (V : α → β → Prop) : Script Res ε α → Script Res ε β → Prop
  | ret {a : α} {b : β} (h : V a b) : Alike k V (.ret a) (.ret b)
  | raise (e : ε) : Alike k V (.raise e) (.raise e)
  | call {o o' : Op} {next : Except ε (Res o) → Script Res ε α}
      {next' : Except ε (Res o') → Script Res ε β} (h : k.op o o')
      (hnext : ∀ r r', k.answer o o' r r' → Alike k V (next r) (next' r')) :
      Alike k V (.call o next) (.call o' next')

variable {k : Likeness Res ε} {V : α → β → Prop} {W : γ → δ → Prop}

theorem Alike.bind {p : Script Res ε α} {q : Script Res ε β} {f : α → Script Res ε γ}
    {g : β → Script Res ε δ} (h : p.Alike k V q) (hfg : ∀ a b, V a b → (f a).Alike k W (g b)) :
    (p >>= f).Alike k W (q >>= g) := by
  change (Script.bind p f).Alike k W (Script.bind q g)
  induction h with
  | ret h => exact hfg _ _ h
  | raise e => exact .raise e
  | call hop _ ih => exact .call hop fun r r' hr => ih r r' hr

theorem Alike.tryCatch {p : Script Res ε α} {q : Script Res ε β} {f : ε → Script Res ε α}
    {g : ε → Script Res ε β} (h : p.Alike k V q) (hfg : ∀ e, (f e).Alike k V (g e)) :
    (Script.tryCatch p f).Alike k V (Script.tryCatch q g) := by
  induction h with
  | ret h => exact .ret h
  | raise e => exact hfg e
  | call hop _ ih => exact .call hop fun r r' hr => ih r r' hr

/-- Two answers that raise the same or return alike values. -/
def AnswersAlike (V : α → β → Prop) : Except ε α → Except ε β → Prop
  | .ok a, .ok b => V a b
  | .error e, .error e' => e = e'
  | _, _ => False

theorem alike_perform {o o' : Op} {V : Res o → Res o' → Prop} (hop : k.op o o')
    (hanswer : ∀ r r', k.answer o o' r r' → AnswersAlike V r r') :
    Alike k V (perform o : Script Res ε (Res o)) (perform o' : Script Res ε (Res o')) := by
  refine .call hop fun r r' hr => ?_
  have h := hanswer r r' hr
  cases r <;> cases r'
  · obtain rfl := h
    exact .raise _
  · exact h.elim
  · exact h.elim
  · exact .ret h

theorem Issues.alike {p : Script Res ε α}
    (h : p.Issues fun o => k.op o o ∧ ∀ r r', k.answer o o r r' → r = r') :
    p.Alike k (fun a b => a = b) p := by
  induction p with
  | ret a => exact .ret rfl
  | raise e => exact .raise e
  | call o next ih =>
    refine .call h.1.1 fun r r' hr => ?_
    obtain rfl := h.1.2 r r' hr
    exact ih r (h.2 r)

theorem Alike.outcome_eq {p q : Script Res ε α} (h : p.Alike k (fun a b => a = b) q) :
    p.outcome = q.outcome := by
  cases h with
  | ret h => rw [h]
  | raise e => rfl
  | call => rfl

end Script

/-- The shared states, the scripts and their local states are alike. -/
structure System.Alike (k : Likeness Res ε) (V : α → α → Prop) (RS : S → S → Prop)
    (RL : L → L → Prop) (sys sys' : System ι Res ε α S L) : Prop where
  shared : RS sys.shared sys'.shared
  scripts : ∀ i, (sys.processes i).script.Alike k V (sys'.processes i).script
  states : ∀ i, RL (sys.processes i).state (sys'.processes i).state

/-- Alike statements are answered alike in alike states, and leave alike states. -/
def Likeness.Kept (k : Likeness Res ε) (exec : Exec Res ε S L) (RS : S → S → Prop)
    (RL : L → L → Prop) : Prop :=
  ∀ o o' s s' l l', k.op o o' → RS s s' → RL l l' →
    k.answer o o' (exec o s l).1 (exec o' s' l').1 ∧
      RS (exec o s l).2.1 (exec o' s' l').2.1 ∧ RL (exec o s l).2.2 (exec o' s' l').2.2

namespace System

variable [DecidableEq ι] {exec : Exec Res ε S L} {k : Likeness Res ε} {V : α → α → Prop}
  {RS : S → S → Prop} {RL : L → L → Prop} {sys sys' : System ι Res ε α S L}

omit [DecidableEq ι] in
theorem Alike.process (hkept : k.Kept exec RS RL) (h : sys.Alike k V RS RL sys') (i : ι) :
    RS ((sys.processes i).step exec sys.shared).1 ((sys'.processes i).step exec sys'.shared).1 ∧
    (((sys.processes i).step exec sys.shared).2.script).Alike k V
      ((sys'.processes i).step exec sys'.shared).2.script ∧
    RL ((sys.processes i).step exec sys.shared).2.state
      ((sys'.processes i).step exec sys'.shared).2.state := by
  have hscript := h.scripts i
  have hstate := h.states i
  rcases hp : sys.processes i with ⟨p,l⟩
  rcases hq : sys'.processes i with ⟨q,l'⟩
  rw [hp,hq] at hscript hstate
  cases hscript with
  | ret hv => exact ⟨h.shared,.ret hv,hstate⟩
  | raise e => exact ⟨h.shared,.raise e,hstate⟩
  | call hop hnext =>
    obtain ⟨hanswer,hshared,hlocal⟩ := hkept _ _ _ _ _ _ hop h.shared hstate
    exact ⟨hshared,hnext _ _ hanswer,hlocal⟩

theorem Alike.step (hkept : k.Kept exec RS RL) (h : sys.Alike k V RS RL sys') (i : ι) :
    (sys.step exec i).Alike k V RS RL (sys'.step exec i) := by
  obtain ⟨hshared,hscript,hstate⟩ := h.process hkept i
  refine ⟨hshared,fun j => ?_,fun j => ?_⟩
  all_goals
    by_cases hj : j = i
    · subst hj
      simp only [System.step,Function.update_self]
      assumption
    · simp only [System.step,Function.update_of_ne hj]
      first | exact h.scripts j | exact h.states j

theorem Alike.run (hkept : k.Kept exec RS RL) (h : sys.Alike k V RS RL sys') (schedule : List ι) :
    (sys.run exec schedule).Alike k V RS RL (sys'.run exec schedule) := by
  induction schedule generalizing sys sys' with
  | nil => exact h
  | cons i schedule ih => exact ih (h.step hkept i)

end System

/-- A relation between a run and the run without its hidden events, over the events to come. -/
structure Unwinds {σ ε : Type} (step : σ → ε → σ) (shown : ε → Bool)
    (R : List ε → σ → σ → Prop) : Prop where
  hidden : ∀ e es s s', shown e = false → R (e::es) s s' → R es (step s e) s'
  both : ∀ e es s s', shown e = true → R (e::es) s s' → R es (step s e) (step s' e)

/-- Leaving out the hidden events leaves the end of the run related. -/
theorem Unwinds.run {σ ε : Type} {step : σ → ε → σ} {shown : ε → Bool}
    {R : List ε → σ → σ → Prop} (h : Unwinds step shown R) {events : List ε} {s s' : σ}
    (hR : R events s s') : R [] (events.foldl step s) ((events.filter shown).foldl step s') := by
  induction events generalizing s s' with
  | nil => exact hR
  | cons e events ih =>
    by_cases hs : shown e = true
    · rw [List.filter_cons_of_pos hs]
      exact ih (h.both e events s s' hs hR)
    · rw [List.filter_cons_of_neg hs]
      exact ih (h.hidden e events s s' (by simpa using hs) hR)

end
end WzonePortal
