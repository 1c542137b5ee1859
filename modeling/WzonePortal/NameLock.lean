import WzonePortal.Interleaving
import WzonePortal.ScriptRules

/-! A set of names used as a lock. A script tests and adds its name in one statement, goes on
only if the name was free, and must discard it as its last statement on every way out. Every
other statement may answer or raise whatever the process's own oracle says. -/
namespace WzonePortal

inductive LockOp (κ σ : Type)
  | enter (name : κ)
  | discard (name : κ)
  | step (s : σ)
  deriving DecidableEq, Repr

/-- `enter` answers whether the name was taken already. -/
@[reducible] def LockOp.Res {κ σ : Type} (Ans : σ → Type) : LockOp κ σ → Type
  | .enter _ => Bool
  | .discard _ => Unit
  | .step s => Ans s

/-- Neither an entry nor an exit. -/
def LockOp.IsStep {κ σ : Type} : LockOp κ σ → Prop
  | .step _ => True
  | _ => False

/-- What a process brings along: the answers it is going to get, the number of those it has
got, and whether it has found its name free. -/
structure LockState (σ : Type) (Ans : σ → Type) (ε : Type) where
  answer : ℕ → (s : σ) → Except ε (Ans s)
  count : ℕ := 0
  entered : Bool := false

abbrev LockScript (κ : Type) {σ : Type} (Ans : σ → Type) (ε α : Type) : Type :=
  @Script (LockOp κ σ) (LockOp.Res Ans) ε α

abbrev LockProcess (κ : Type) {σ : Type} (Ans : σ → Type) (ε α : Type) : Type :=
  @Process (LockOp κ σ) (LockOp.Res Ans) ε α (LockState σ Ans ε)

abbrev LockSystem (ι κ : Type) {σ : Type} (Ans : σ → Type) (ε α : Type) : Type :=
  @System (LockOp κ σ) ι (LockOp.Res Ans) ε α (Finset κ) (LockState σ Ans ε)

section
variable {κ σ ι ε α β : Type} {Ans : σ → Type}

def lockExec [DecidableEq κ] : @Exec (LockOp κ σ) (LockOp.Res Ans) ε (Finset κ) (LockState σ Ans ε)
  | .enter name, taken, l =>
    if name ∈ taken then (.ok true,taken,l) else (.ok false,insert name taken,{ l with entered := true })
  | .discard name, taken, l => (.ok (),taken.erase name,l)
  | .step s, taken, l => (l.answer l.count s,taken,{ l with count := l.count + 1 })

namespace LockScript

def enter (name : κ) : LockScript κ Ans ε Bool :=
  @Script.perform (LockOp κ σ) (LockOp.Res Ans) ε (.enter name)

def discard (name : κ) : LockScript κ Ans ε Unit :=
  @Script.perform (LockOp κ σ) (LockOp.Res Ans) ε (.discard name)

def step (s : σ) : LockScript κ Ans ε (Ans s) :=
  @Script.perform (LockOp κ σ) (LockOp.Res Ans) ε (.step s)

end LockScript

namespace Script

/-- Every way on from here that the answers leave open ends with the one discard of the name. -/
def Releases (possible : (s : σ) → Except ε (Ans s) → Prop) (name : κ) : LockScript κ Ans ε α → Prop
  | .ret _ => False
  | .raise _ => False
  | .call (.enter _) _ => False
  | .call (.discard d) next => d = name ∧ (next (.ok ())).ended = true
  | .call (.step s) next => ∀ r, possible s r → Releases possible name (next r)

/-- The script enters at most once, with its own name; if that is taken it ends at once. -/
def Guarded (possible : (s : σ) → Except ε (Ans s) → Prop) (name : κ) : LockScript κ Ans ε α → Prop
  | .ret _ => True
  | .raise _ => True
  | .call (.enter c) next => c = name ∧ (next (.ok true)).ended = true ∧
      Releases possible name (next (.ok false))
  | .call (.discard _) _ => False
  | .call (.step s) next => ∀ r, possible s r → Guarded possible name (next r)

section
variable {possible : (s : σ) → Except ε (Ans s) → Prop} {name : κ} {p : LockScript κ Ans ε α}
  {f : α → LockScript κ Ans ε β} {handler : ε → LockScript κ Ans ε α}

theorem Issues.releases (h : p.Issues LockOp.IsStep) (hok : ∀ a, (f a).Releases possible name)
    (herror : ∀ e, (handler e >>= f).Releases possible name) :
    (Script.tryCatch p handler >>= f).Releases possible name := by
  induction p with
  | ret a => exact hok a
  | raise e => exact herror e
  | call o next ih =>
    cases o with
    | step s => exact fun r _ => ih r (h.2 r)
    | enter c => exact h.1.elim
    | discard c => exact h.1.elim

/-- A statement that cannot raise needs no handler. -/
theorem releases_step {s : σ} {f : Ans s → LockScript κ Ans ε β}
    (hpossible : ∀ r, possible s r → ∃ a, r = .ok a) (hf : ∀ a, (f a).Releases possible name) :
    (LockScript.step s >>= f).Releases possible name := by
  intro r hr
  obtain ⟨a,rfl⟩ := hpossible r hr
  exact hf a

end
end Script

def LockProcess.inside (p : LockProcess κ Ans ε α) : Bool := p.state.entered && !p.script.ended

def LockProcess.Disciplined (possible : (s : σ) → Except ε (Ans s) → Prop) (name : κ)
    (p : LockProcess κ Ans ε α) : Prop :=
  (p.state.entered = false ∧ p.script.Guarded possible name) ∨
    (p.state.entered = true ∧ (p.script.Releases possible name ∨ p.script.ended = true))

/-- The set holds the names of the processes inside, and no two of them have one name. -/
structure LockInvariant (possible : (s : σ) → Except ε (Ans s) → Prop) (names : ι → κ)
    (sys : LockSystem ι κ Ans ε α) : Prop where
  disciplined : ∀ i, LockProcess.Disciplined possible (names i) (sys.processes i)
  taken : ∀ c, c ∈ sys.shared ↔ ∃ i, names i = c ∧ LockProcess.inside (sys.processes i) = true
  alone : ∀ i j, LockProcess.inside (sys.processes i) = true →
    LockProcess.inside (sys.processes j) = true → names i = names j → i = j

/-- The set holds the names of those inside, each of them once. -/
structure HoldsNames (names : ι → κ) (taken : Finset κ) (inside : ι → Bool) : Prop where
  taken : ∀ c, c ∈ taken ↔ ∃ i, names i = c ∧ inside i = true
  alone : ∀ i j, inside i = true → inside j = true → names i = names j → i = j

theorem LockInvariant.holds {possible : (s : σ) → Except ε (Ans s) → Prop} {names : ι → κ}
    {sys : LockSystem ι κ Ans ε α} (h : LockInvariant possible names sys) :
    HoldsNames names sys.shared fun i => LockProcess.inside (sys.processes i) := ⟨h.taken,h.alone⟩

namespace HoldsNames

variable {names : ι → κ} {taken : Finset κ} {inside inside' : ι → Bool} {i : ι}

theorem keep (h : HoldsNames names taken inside) (hother : ∀ j, j ≠ i → inside' j = inside j)
    (hself : inside' i = inside i) : HoldsNames names taken inside' := by
  obtain rfl : inside' = inside := by
    funext j
    by_cases hj : j = i
    · rw [hj,hself]
    · exact hother j hj
  exact h

variable [DecidableEq κ]

/-- A name that was free is taken. -/
theorem enter (h : HoldsNames names taken inside) (hother : ∀ j, j ≠ i → inside' j = inside j)
    (hfree : names i ∉ taken) (hbefore : inside i = false) (hafter : inside' i = true) :
    HoldsNames names (insert (names i) taken) inside' := by
  have hnew : ∀ j, inside' j = true → names j = names i → j = i := by
    intro j hj hname
    by_contra hne
    rw [hother j hne] at hj
    exact hfree ((h.taken _).mpr ⟨j,hname,hj⟩)
  refine ⟨fun c => ?_,fun j k hj hk hname => ?_⟩
  · rw [Finset.mem_insert,h.taken]
    constructor
    · rintro (rfl | ⟨j,hname,hj⟩)
      · exact ⟨i,rfl,hafter⟩
      · have hne : j ≠ i := fun he => by rw [he,hbefore] at hj; cases hj
        exact ⟨j,hname,by rw [hother j hne]; exact hj⟩
    · rintro ⟨j,hname,hj⟩
      by_cases hne : j = i
      · exact .inl (by rw [← hname,hne])
      · exact .inr ⟨j,hname,by rwa [hother j hne] at hj⟩
  · by_cases hji : j = i
    · exact hji.trans (hnew k hk (hname.symm.trans (congrArg names hji))).symm
    · by_cases hki : k = i
      · exact (hnew j hj (hname.trans (congrArg names hki))).trans hki.symm
      · rw [hother j hji] at hj
        rw [hother k hki] at hk
        exact h.alone j k hj hk hname

theorem leave (h : HoldsNames names taken inside) (hother : ∀ j, j ≠ i → inside' j = inside j)
    (hbefore : inside i = true) (hafter : inside' i = false) :
    HoldsNames names (taken.erase (names i)) inside' := by
  have hstay : ∀ j, inside' j = true → j ≠ i ∧ inside j = true := by
    intro j hj
    have hne : j ≠ i := fun he => by rw [he,hafter] at hj; cases hj
    exact ⟨hne,by rwa [hother j hne] at hj⟩
  refine ⟨fun c => ?_,fun j k hj hk hname => ?_⟩
  · rw [Finset.mem_erase,h.taken]
    constructor
    · rintro ⟨hc,j,hname,hj⟩
      have hne : j ≠ i := fun he => hc (by rw [← hname,he])
      exact ⟨j,hname,by rw [hother j hne]; exact hj⟩
    · rintro ⟨j,hname,hj⟩
      obtain ⟨hne,hold⟩ := hstay j hj
      exact ⟨fun hc => hne (h.alone j i hold hbefore (hname.trans hc)),j,hname,hold⟩
  · exact h.alone j k (hstay j hj).2 (hstay k hk).2 hname

end HoldsNames

/-- The oracle of the process answers its next statement in a way that is possible. -/
def AnswersPossibly (possible : (s : σ) → Except ε (Ans s) → Prop) (i : ι)
    (sys : LockSystem ι κ Ans ε α) : Prop :=
  match (sys.processes i).script with
  | .call (.step s) _ => possible s ((sys.processes i).state.answer (sys.processes i).state.count s)
  | _ => True

section
variable {possible : (s : σ) → Except ε (Ans s) → Prop} {name : κ} {script : LockScript κ Ans ε α}

theorem not_ended_of_releases (h : script.Releases possible name) : script.ended = false := by
  cases script with
  | ret a => exact h.elim
  | raise e => exact h.elim
  | call o next => rfl

theorem guarded_of_ended (h : script.ended = true) : script.Guarded possible name := by
  cases script with
  | ret a => trivial
  | raise e => trivial
  | call o next => cases h

/-- What one statement of a disciplined process does: it enters, it leaves, or neither. -/
theorem LockProcess.step_cases [DecidableEq κ] {p : LockProcess κ Ans ε α} {taken : Finset κ}
    (h : LockProcess.Disciplined possible name p)
    (hpossible : ∀ s next, p.script = .call (.step s) next →
      possible s (p.state.answer p.state.count s)) :
    LockProcess.Disciplined possible name (p.step lockExec taken).2 ∧
      (((p.step lockExec taken).1 = taken ∧
          LockProcess.inside (p.step lockExec taken).2 = LockProcess.inside p) ∨
        (name ∉ taken ∧ (p.step lockExec taken).1 = insert name taken ∧
          LockProcess.inside p = false ∧ LockProcess.inside (p.step lockExec taken).2 = true) ∨
        ((p.step lockExec taken).1 = taken.erase name ∧ LockProcess.inside p = true ∧
          LockProcess.inside (p.step lockExec taken).2 = false)) := by
  rcases p with ⟨script,l⟩
  cases script with
  | ret a => exact ⟨h,.inl ⟨rfl,rfl⟩⟩
  | raise e => exact ⟨h,.inl ⟨rfl,rfl⟩⟩
  | call o next =>
    rcases h with ⟨hout,hguarded⟩ | ⟨hin,hreleases | hended⟩
    · have hbefore : LockProcess.inside (⟨.call o next,l⟩ : LockProcess κ Ans ε α) = false := by
        simp only [LockProcess.inside] at hout ⊢
        rw [hout]
        rfl
      cases o with
      | enter c =>
        obtain ⟨rfl,hbusy,hfree⟩ := hguarded
        by_cases hc : c ∈ taken
        · simp only [Process.step,lockExec,if_pos hc,hbefore]
          refine ⟨.inl ⟨hout,guarded_of_ended hbusy⟩,.inl ⟨trivial,?_⟩⟩
          simp only [LockProcess.inside,hbusy,Bool.not_true,Bool.and_false]
        · simp only [Process.step,lockExec,if_neg hc,hbefore]
          refine ⟨.inr ⟨rfl,.inl hfree⟩,.inr (.inl ⟨hc,trivial,trivial,?_⟩)⟩
          simp only [LockProcess.inside,not_ended_of_releases hfree]
          rfl
      | discard d => exact hguarded.elim
      | step s =>
        have hnext := hguarded _ (hpossible s next rfl)
        simp only [Process.step,lockExec,hbefore]
        refine ⟨.inl ⟨hout,hnext⟩,.inl ⟨trivial,?_⟩⟩
        simp only [LockProcess.inside] at hout ⊢
        rw [hout]
        rfl
    · have hbefore : LockProcess.inside (⟨.call o next,l⟩ : LockProcess κ Ans ε α) = true := by
        simp only [LockProcess.inside] at hin ⊢
        rw [hin]
        rfl
      cases o with
      | enter c => exact hreleases.elim
      | discard d =>
        obtain ⟨rfl,hlast⟩ := hreleases
        simp only [Process.step,lockExec,hbefore]
        refine ⟨.inr ⟨hin,.inr hlast⟩,.inr (.inr ⟨trivial,trivial,?_⟩)⟩
        simp only [LockProcess.inside,hlast,Bool.not_true,Bool.and_false]
      | step s =>
        have hnext := hreleases _ (hpossible s next rfl)
        simp only [Process.step,lockExec,hbefore]
        refine ⟨.inr ⟨hin,.inl hnext⟩,.inl ⟨trivial,?_⟩⟩
        simp only [LockProcess.inside,not_ended_of_releases hnext] at hin ⊢
        rw [hin]
        rfl
    · cases hended

end

variable {possible : (s : σ) → Except ε (Ans s) → Prop} {names : ι → κ}
  {sys : LockSystem ι κ Ans ε α}

theorem lockInvariant_settled (h : LockInvariant possible names sys)
    (hended : ∀ i, (sys.processes i).script.ended = true) : sys.shared = ∅ := by
  apply Finset.eq_empty_of_forall_notMem
  intro c hc
  obtain ⟨i,_,hi⟩ := (h.taken c).mp hc
  simp [LockProcess.inside,hended i] at hi

theorem lockInvariant_start (h : ∀ i, (sys.processes i).script.Guarded possible (names i))
    (hout : ∀ i, (sys.processes i).state.entered = false) (hempty : sys.shared = ∅) :
    LockInvariant possible names sys := by
  have hinside : ∀ i, LockProcess.inside (sys.processes i) = false := fun i => by
    simp [LockProcess.inside,hout i]
  refine ⟨fun i => .inl ⟨hout i,h i⟩,fun c => ?_,fun i j hi => ?_⟩
  · rw [hempty]
    simp [hinside]
  · rw [hinside i] at hi
    cases hi

variable [DecidableEq κ] [DecidableEq ι]

theorem lockInvariant_step (i : ι) (hpossible : AnswersPossibly possible i sys)
    (h : LockInvariant possible names sys) : LockInvariant possible names (sys.step lockExec i) := by
  have hanswer : ∀ s next, (sys.processes i).script = .call (.step s) next →
      possible s ((sys.processes i).state.answer (sys.processes i).state.count s) := by
    intro s next hs
    unfold AnswersPossibly at hpossible
    rw [hs] at hpossible
    exact hpossible
  have hstep := @LockProcess.step_cases κ σ ε α Ans possible (names i) _ (sys.processes i) sys.shared
    (h.disciplined i) hanswer
  obtain ⟨hdisciplined,hcases⟩ := hstep
  have hother : ∀ j, j ≠ i → (sys.step lockExec i).processes j = sys.processes j :=
    fun j hj => Function.update_of_ne hj _ _
  have hself : (sys.step lockExec i).processes i = ((sys.processes i).step lockExec sys.shared).2 :=
    Function.update_self _ _ _
  have hdiscipline : ∀ j, LockProcess.Disciplined possible (names j)
      ((sys.step lockExec i).processes j) := by
    intro j
    by_cases hj : j = i
    · subst hj
      rw [hself]
      exact hdisciplined
    · rw [hother j hj]
      exact h.disciplined j
  have hsame : ∀ j, j ≠ i → LockProcess.inside ((sys.step lockExec i).processes j) =
      LockProcess.inside (sys.processes j) := fun j hj => by rw [hother j hj]
  have hnext : HoldsNames names ((sys.processes i).step lockExec sys.shared).1
      fun j => LockProcess.inside ((sys.step lockExec i).processes j) := by
    rw [← hself] at hcases
    rcases hcases with ⟨hshared,hkept⟩ | ⟨hfree,hshared,hbefore,hafter⟩ | ⟨hshared,hbefore,hafter⟩
    · rw [hshared]
      exact h.holds.keep hsame hkept
    · rw [hshared]
      exact h.holds.enter hsame hfree hbefore hafter
    · rw [hshared]
      exact h.holds.leave hsame hbefore hafter
  exact ⟨hdiscipline,hnext.taken,hnext.alone⟩

theorem step_answer (i j : ι) :
    ((sys.step lockExec i).processes j).state.answer = (sys.processes j).state.answer := by
  by_cases hj : j = i
  · subst hj
    simp only [System.step,Function.update_self]
    rcases sys.processes j with ⟨script,l⟩
    cases script with
    | ret a => rfl
    | raise e => rfl
    | call o next =>
      cases o with
      | enter c =>
        simp only [Process.step,lockExec]
        split <;> rfl
      | discard c => rfl
      | step s => rfl
  · simp only [System.step,Function.update_of_ne hj]

theorem along_possible (h : ∀ i n s, possible s ((sys.processes i).state.answer n s))
    (schedule : List ι) : sys.Along lockExec (AnswersPossibly possible) schedule := by
  induction schedule generalizing sys with
  | nil => trivial
  | cons i schedule ih =>
    refine ⟨?_,ih fun j n s => by rw [step_answer]; exact h j n s⟩
    unfold AnswersPossibly
    split
    · exact h i _ _
    · trivial

/-- Along every run whose answers are possible the set is the lock that it is meant to be. -/
theorem lockInvariant_run {schedule : List ι} (h : LockInvariant possible names sys)
    (hpossible : sys.Along lockExec (AnswersPossibly possible) schedule) :
    LockInvariant possible names (sys.run lockExec schedule) :=
  System.run_invariant (fun i _ hcond h => lockInvariant_step i hcond h) h hpossible

end
end WzonePortal
