import WzonePortal.ScriptRules

/-! Scripts that run interleaved. Each script owns a local state and all of them share one;
a step lets one script issue its next statement. What a script does is described by a weakest
precondition that holds whatever the others do to the shared state in between. -/
namespace WzonePortal

/-- How a statement acts on the shared state and on the state of the script issuing it. -/
abbrev Exec {Op : Type} (Res : Op → Type) (ε S L : Type) :=
  (o : Op) → S → L → Except ε (Res o) × S × L

structure Process {Op : Type} (Res : Op → Type) (ε α L : Type) where
  script : Script Res ε α
  state : L

structure System {Op : Type} (ι : Type) (Res : Op → Type) (ε α S L : Type) where
  shared : S
  processes : ι → Process Res ε α L

section
variable {Op ι : Type} {Res : Op → Type} {ε α β S L : Type} (exec : Exec Res ε S L)

namespace Script

def done : Except ε α → Script Res ε α
  | .ok a => .ret a
  | .error e => .raise e

def ended : Script Res ε α → Bool
  | .call _ _ => false
  | _ => true

/-- Every statement is issued in a local state that `C` allows for it, and the script ends
in `Q`; the shared state may be anything at each statement. -/
def wp (C : Op → L → Prop) : Script Res ε α → (Except ε α → L → Prop) → L → Prop
  | .ret a, Q, l => Q (.ok a) l
  | .raise e, Q, l => Q (.error e) l
  | .call o next, Q, l => C o l ∧ ∀ s, wp C (next (exec o s l).1) Q (exec o s l).2.2

variable {exec} {C : Op → L → Prop} {l : L}

theorem wp_bind {p : Script Res ε α} {f : α → Script Res ε β} {Q : Except ε β → L → Prop}
    {R : Except ε α → L → Prop} (h : wp exec C p R l)
    (hok : ∀ a l, R (.ok a) l → wp exec C (f a) Q l)
    (herror : ∀ e l, R (.error e) l → Q (.error e) l) : wp exec C (p >>= f) Q l := by
  change wp exec C (bind p f) Q l
  induction p generalizing l with
  | ret a => exact hok a l h
  | raise e => exact herror e l h
  | call o next ih => exact ⟨h.1,fun s => ih _ (h.2 s)⟩

theorem wp_mono {p : Script Res ε α} {Q R : Except ε α → L → Prop} (h : wp exec C p R l)
    (hQ : ∀ r l, R r l → Q r l) : wp exec C p Q l := by
  induction p generalizing l with
  | ret a => exact hQ _ l h
  | raise e => exact hQ _ l h
  | call o next ih => exact ⟨h.1,fun s => ih _ (h.2 s)⟩

theorem wp_seq {p : Script Res ε α} {f : α → Script Res ε β} {Q : Except ε β → L → Prop}
    (h : wp exec C p (fun r l => match r with
      | .ok a => wp exec C (f a) Q l
      | .error e => Q (.error e) l) l) : wp exec C (p >>= f) Q l :=
  wp_bind h (fun _ _ h => h) fun _ _ h => h

theorem wp_tryCatch {p : Script Res ε α} {handler : ε → Script Res ε α}
    {Q R : Except ε α → L → Prop} (h : wp exec C p R l)
    (hok : ∀ a l, R (.ok a) l → Q (.ok a) l)
    (herror : ∀ e l, R (.error e) l → wp exec C (handler e) Q l) :
    wp exec C (tryCatch p handler) Q l := by
  induction p generalizing l with
  | ret a => exact hok a l h
  | raise e => exact herror e l h
  | call o next ih => exact ⟨h.1,fun s => ih _ (h.2 s)⟩

theorem wp_perform {o : Op} {Q : Except ε (Res o) → L → Prop} (hC : C o l)
    (h : ∀ s, Q (exec o s l).1 (exec o s l).2.2) : wp exec C (perform o) Q l := by
  refine ⟨hC,fun s => ?_⟩
  have hs := h s
  revert hs
  cases (exec o s l).1 with
  | ok a => exact id
  | error e => exact id

theorem wp_and {p : Script Res ε α} {D : Op → L → Prop} {Q R : Except ε α → L → Prop}
    (h : wp exec C p Q l) (h' : wp exec D p R l) :
    wp exec (fun o l => C o l ∧ D o l) p (fun r l => Q r l ∧ R r l) l := by
  induction p generalizing l with
  | ret a => exact ⟨h,h'⟩
  | raise e => exact ⟨h,h'⟩
  | call o next ih => exact ⟨⟨h.1,h'.1⟩,fun s => ih _ (h.2 s) (h'.2 s)⟩

theorem wp_contract {p : Script Res ε α} {D : Op → L → Prop} {Q : Except ε α → L → Prop}
    (h : wp exec C p Q l) (hD : ∀ o l, C o l → D o l) : wp exec D p Q l := by
  induction p generalizing l with
  | ret a => exact h
  | raise e => exact h
  | call o next ih => exact ⟨hD o l h.1,fun s => ih _ (h.2 s)⟩

theorem Issues.wp {p : Script Res ε α} {φ : Op → Prop} (h : p.Issues φ) :
    wp exec (fun o _ => φ o) p (fun _ _ => True) l := by
  induction p generalizing l with
  | ret a => trivial
  | raise e => trivial
  | call o next ih => exact ⟨h.1,fun s => ih _ (h.2 _)⟩

theorem wp_invariant {p : Script Res ε α} {J : L → Prop} {Q : Except ε α → L → Prop}
    (h : wp exec C p Q l) (hstep : ∀ o s l, C o l → J l → J (exec o s l).2.2) (hl : J l) :
    wp exec (fun o l => C o l ∧ J l) p (fun r l => Q r l ∧ J l) l := by
  induction p generalizing l with
  | ret a => exact ⟨h,hl⟩
  | raise e => exact ⟨h,hl⟩
  | call o next ih => exact ⟨⟨h.1,hl⟩,fun s => ih _ (h.2 s) (hstep o s l h.1 hl)⟩

theorem wp_require {c : Bool} {e : ε} {Q : Except ε Unit → L → Prop}
    (hok : c = true → Q (.ok ()) l) (herror : c = false → Q (.error e) l) :
    wp exec C (require c e) Q l := by
  cases c with
  | true => exact hok rfl
  | false => exact herror rfl

end Script

namespace Process

/-- Issue the next statement; a script that has ended stays as it is. -/
def step (p : Process Res ε α L) (s : S) : S × Process Res ε α L :=
  match p.script with
  | .call o next => ((exec o s p.state).2.1,⟨next (exec o s p.state).1,(exec o s p.state).2.2⟩)
  | _ => (s,p)

theorem step_call {p : Process Res ε α L} {o : Op} {next : Except ε (Res o) → Script Res ε α}
    (h : p.script = .call o next) (s : S) :
    p.step exec s = ((exec o s p.state).2.1,⟨next (exec o s p.state).1,(exec o s p.state).2.2⟩) := by
  rw [step,h]

variable {exec} {C : Op → L → Prop} {Q : Except ε α → L → Prop}

/-- A script that opens with a statement goes on with the answer. -/
theorem step_answered {script : Script Res ε α} {o : Op} {next : Except ε (Res o) → Script Res ε α}
    {r : Except ε (Res o)} {s s' : S} {l l' : L} (hscript : script = .call o next)
    (h : exec o s l = (r,s',l')) :
    (⟨script,l⟩ : Process Res ε α L).step exec s = (s',⟨next r,l'⟩) := by
  rw [step_call exec hscript,h]

theorem wp_step {p : Process Res ε α L} (h : p.script.wp exec C Q p.state) (s : S) :
    (p.step exec s).2.script.wp exec C Q (p.step exec s).2.state := by
  rcases p with ⟨script,state⟩
  cases script with
  | ret a => exact h
  | raise e => exact h
  | call o next => exact h.2 s

end Process

namespace System

variable [DecidableEq ι]

def step (i : ι) (sys : System ι Res ε α S L) : System ι Res ε α S L where
  shared := ((sys.processes i).step exec sys.shared).1
  processes := Function.update sys.processes i ((sys.processes i).step exec sys.shared).2

/-- Take the steps of a schedule, first one first. -/
def run : List ι → System ι Res ε α S L → System ι Res ε α S L
  | [], sys => sys
  | i::schedule, sys => run schedule (sys.step exec i)

/-- Every step of the schedule meets the condition in the state before it. -/
def Along (cond : ι → System ι Res ε α S L → Prop) :
    List ι → System ι Res ε α S L → Prop
  | [], _ => True
  | i::schedule, sys => cond i sys ∧ Along cond schedule (sys.step exec i)

instance decidableAlong (cond : ι → System ι Res ε α S L → Prop)
    [∀ i sys, Decidable (cond i sys)] :
    (schedule : List ι) → (sys : System ι Res ε α S L) → Decidable (sys.Along exec cond schedule)
  | [], _ => .isTrue trivial
  | i::schedule, sys =>
    have := decidableAlong cond schedule (sys.step exec i)
    inferInstanceAs (Decidable (cond i sys ∧ (sys.step exec i).Along exec cond schedule))

variable {exec} {sys : System ι Res ε α S L} {schedule : List ι}
  {cond : ι → System ι Res ε α S L → Prop}

theorem run_append (earlier later : List ι) :
    sys.run exec (earlier ++ later) = (sys.run exec earlier).run exec later := by
  induction earlier generalizing sys with
  | nil => rfl
  | cons i earlier ih => exact ih

theorem along_append {earlier later : List ι} : sys.Along exec cond (earlier ++ later) ↔
    sys.Along exec cond earlier ∧ (sys.run exec earlier).Along exec cond later := by
  induction earlier generalizing sys with
  | nil => simp [Along,run]
  | cons i earlier ih =>
    rw [List.cons_append,Along,ih,Along,and_assoc]
    rfl

/-- What every step that meets the condition preserves holds after every such run. -/
theorem run_invariant {P : System ι Res ε α S L → Prop}
    (hstep : ∀ i sys, cond i sys → P sys → P (sys.step exec i)) (h : P sys)
    (halong : sys.Along exec cond schedule) : P (sys.run exec schedule) := by
  induction schedule generalizing sys with
  | nil => exact h
  | cons i schedule ih => exact ih (hstep i sys halong.1 h) halong.2

theorem run_preserves {P : System ι Res ε α S L → Prop}
    (hstep : ∀ i sys, P sys → P (sys.step exec i)) (h : P sys) (schedule : List ι) :
    P (sys.run exec schedule) := by
  induction schedule generalizing sys with
  | nil => exact h
  | cons i schedule ih => exact ih (hstep i sys h)

theorem along_and {cond' : ι → System ι Res ε α S L → Prop} :
    sys.Along exec (fun i sys => cond i sys ∧ cond' i sys) schedule ↔
      sys.Along exec cond schedule ∧ sys.Along exec cond' schedule := by
  induction schedule generalizing sys with
  | nil => simp [Along]
  | cons i schedule ih =>
    rw [Along,Along,Along,ih]
    exact and_and_and_comm

/-- A process that is scheduled alone ends as its script does when it runs alone, if each
statement is simulated. -/
theorem run_simulates {T : Type} {execAlone : (o : Op) → T → Except ε (Res o) × T}
    {R : T → S → L → Prop} (hsim : ∀ o t s l, R t s l →
      (execAlone o t).1 = (exec o s l).1 ∧
        R (execAlone o t).2 (exec o s l).2.1 (exec o s l).2.2)
    (i : ι) {p : Script Res ε α} {t : T} (hp : (sys.processes i).script = p)
    (h : R t sys.shared (sys.processes i).state) : ∃ n,
      R (p.run execAlone t).2 (sys.run exec (List.replicate n i)).shared
        ((sys.run exec (List.replicate n i)).processes i).state ∧
      ((sys.run exec (List.replicate n i)).processes i).script =
        .done (p.run execAlone t).1 := by
  induction p generalizing sys t with
  | ret a => exact ⟨0,h,hp⟩
  | raise e => exact ⟨0,h,hp⟩
  | call o next ih =>
    obtain ⟨hanswer,hrelated⟩ := hsim o t sys.shared (sys.processes i).state h
    have hstep : (sys.step exec i).shared = (exec o sys.shared (sys.processes i).state).2.1 ∧
        (sys.step exec i).processes i =
          ⟨next (exec o sys.shared (sys.processes i).state).1,
            (exec o sys.shared (sys.processes i).state).2.2⟩ := by
      simp [System.step,Process.step,hp]
    have hscript : ((sys.step exec i).processes i).script = next (execAlone o t).1 := by
      rw [hstep.2,hanswer]
    have hnext : R (execAlone o t).2 (sys.step exec i).shared
        ((sys.step exec i).processes i).state := by
      rw [hstep.1,hstep.2]
      exact hrelated
    obtain ⟨n,hn⟩ := ih _ hscript hnext
    exact ⟨n+1,hn⟩

/-- A process that has had a step for each of its statements has ended. -/
theorem run_ended {i : ι} {n : ℕ} (schedule : List ι)
    (h : (sys.processes i).script.AtMost n) (hn : n ≤ schedule.count i) :
    ((sys.run exec schedule).processes i).script.ended = true := by
  induction schedule generalizing sys n with
  | nil =>
    obtain rfl := Nat.le_zero.mp hn
    rw [System.run]
    cases hscript : (sys.processes i).script with
    | call o next => rw [hscript] at h; exact h.elim
    | _ => rfl
  | cons j schedule ih =>
    by_cases hj : j = i
    · subst hj
      rw [List.count_cons_self] at hn
      have hstep : (((sys.step exec j).processes j).script).AtMost (n-1) := by
        simp only [System.step,Function.update_self,Process.step]
        cases hscript : (sys.processes j).script with
        | call o next =>
          rw [hscript] at h
          obtain ⟨m,rfl,hnext⟩ := Script.atMost_call.mp h
          exact hnext _
        | ret a => simp only [hscript]; exact Script.atMost_ret a
        | raise e => simp only [hscript]; exact Script.atMost_raise e
      exact ih hstep (by omega)
    · rw [List.count_cons_of_ne hj] at hn
      refine ih (n:=n) ?_ hn
      simp only [System.step,Function.update_of_ne (Ne.symm hj)]
      exact h

/-- Every process keeps to a contract of its own. -/
def EachBehaved (exec : Exec Res ε S L) (C : ι → Op → L → Prop) (Q : ι → Except ε α → L → Prop)
    (sys : System ι Res ε α S L) : Prop :=
  ∀ i, (sys.processes i).script.wp exec (C i) (Q i) (sys.processes i).state

theorem EachBehaved.step {C : ι → Op → L → Prop} {Q : ι → Except ε α → L → Prop}
    (h : sys.EachBehaved exec C Q) (i : ι) : (sys.step exec i).EachBehaved exec C Q := by
  intro j
  by_cases hj : j = i
  · subst hj
    simp only [System.step,Function.update_self]
    exact Process.wp_step (h j) sys.shared
  · simp only [System.step,Function.update_of_ne hj]
    exact h j

theorem EachBehaved.run {C : ι → Op → L → Prop} {Q : ι → Except ε α → L → Prop}
    (h : sys.EachBehaved exec C Q) (schedule : List ι) :
    (sys.run exec schedule).EachBehaved exec C Q := by
  induction schedule generalizing sys with
  | nil => exact h
  | cons i schedule ih => exact ih (h.step i)

variable {C : Op → L → Prop} {Q : Except ε α → L → Prop}

/-- Every process keeps to the same contract. -/
def Behaved (exec : Exec Res ε S L) (C : Op → L → Prop) (Q : Except ε α → L → Prop)
    (sys : System ι Res ε α S L) : Prop :=
  ∀ i, (sys.processes i).script.wp exec C Q (sys.processes i).state

theorem Behaved.step (h : sys.Behaved exec C Q) (i : ι) : (sys.step exec i).Behaved exec C Q :=
  EachBehaved.step (C:=fun _ => C) (Q:=fun _ => Q) h i

theorem Behaved.run (h : sys.Behaved exec C Q) (schedule : List ι) :
    (sys.run exec schedule).Behaved exec C Q :=
  EachBehaved.run (C:=fun _ => C) (Q:=fun _ => Q) h schedule

end System
end
end WzonePortal
