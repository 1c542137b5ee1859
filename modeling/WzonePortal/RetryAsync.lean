import WzonePortal.ScriptRules
import Mathlib.Data.ENat.Lattice

/-! Calling again after an error. `retry_async` repeats a call while its error says of itself that
it may be repeated; what an error says is an attribute that its classes hand down. -/
namespace WzonePortal
namespace RetryAsync

/-- A class, and the truth of the attribute `retryable` where its own body sets it. -/
structure ClassBody where
  name : String
  retryable : Option Bool := none
  deriving DecidableEq

def baseExceptionClass : ClassBody where
  name := "BaseException"

def exceptionClass : ClassBody where
  name := "Exception"

/-- The classes of `domain/exceptions.py`, each with its own body only. -/
def portalError : ClassBody where
  name := "src.domain.exceptions.PortalError"

def connectionError : ClassBody where
  name := "src.domain.exceptions.ConnectionError"
  retryable := some true

def authenticationError : ClassBody where
  name := "src.domain.exceptions.AuthenticationError"
  retryable := some false

def permissionError : ClassBody where
  name := "src.domain.exceptions.PermissionError"
  retryable := some false

def unreachableError : ClassBody where
  name := "src.domain.exceptions.UnreachableError"
  retryable := some true

def collectionError : ClassBody where
  name := "src.domain.exceptions.CollectionError"

def notFoundError : ClassBody where
  name := "src.domain.exceptions.NotFoundError"

def validationError : ClassBody where
  name := "src.domain.exceptions.ValidationError"

def duplicateError : ClassBody where
  name := "src.domain.exceptions.DuplicateError"

/-- The order in which an attribute is looked up, up to `object`. -/
def portalErrorMro : List ClassBody := [portalError,exceptionClass,baseExceptionClass]

def connectionErrorMro : List ClassBody := connectionError::portalErrorMro

def domainErrors : List (List ClassBody) :=
  [portalErrorMro,connectionErrorMro,authenticationError::connectionErrorMro,
    permissionError::connectionErrorMro,unreachableError::connectionErrorMro,
    collectionError::portalErrorMro,notFoundError::portalErrorMro,
    validationError::portalErrorMro,duplicateError::portalErrorMro]

/-- An error: what it sets on itself, and its class with the classes above it. -/
structure Raised where
  own : Option Bool := none
  mro : List ClassBody

namespace Raised

/-- `getattr(exc, "retryable", False)`. -/
def retryable (exc : Raised) : Bool :=
  (exc.own <|> exc.mro.findSome? ClassBody.retryable).getD false

/-- `except Exception` catches it. -/
def caught (exc : Raised) : Bool := exc.mro.contains exceptionClass

/-- The error is one of the class, or of a class below it that says nothing of its own. -/
def Inherits (exc : Raised) (mro : List ClassBody) : Prop :=
  exc.own = none ∧ ∃ below, exc.mro = below ++ mro ∧ ∀ c ∈ below, c.retryable = none

/-- Neither the error nor a class of it sets the attribute. -/
def Unknown (exc : Raised) : Prop := exc.own = none ∧ ∀ c ∈ exc.mro, c.retryable = none

theorem retryable_of_inherits {exc : Raised} {mro : List ClassBody} (h : exc.Inherits mro) :
    exc.retryable = (mro.findSome? ClassBody.retryable).getD false := by
  obtain ⟨hown,below,hmro,hbelow⟩ := h
  have hnone : below.findSome? ClassBody.retryable = none := by simpa using hbelow
  simp [retryable,hown,hmro,List.findSome?_append,hnone]

/-- An error of the portal is repeated if it is a failed connection that is neither an
authentication nor a permission error. -/
theorem retryable_domain : ∀ mro ∈ domainErrors, ({ mro } : Raised).retryable = true ↔
    connectionError ∈ mro ∧ authenticationError ∉ mro ∧ permissionError ∉ mro := by
  decide

theorem retryable_of_unknown {exc : Raised} (h : exc.Unknown) : exc.retryable = false := by
  have hnone : exc.mro.findSome? ClassBody.retryable = none := by simpa using h.2
  simp [retryable,h.1,hnone]

end Raised

inductive RetryOp
  | fn
  | sleep (delay : ℚ)

@[reducible] def RetryOp.Ans (T : Type) : RetryOp → Type
  | .fn => T
  | .sleep _ => Unit

abbrev RetryScript (T α : Type) : Type := Script (RetryOp.Ans T) Raised α

def call {T : Type} : RetryScript T T := @Script.perform RetryOp (RetryOp.Ans T) Raised .fn

def sleep {T : Type} (delay : ℚ) : RetryScript T Unit :=
  @Script.perform RetryOp (RetryOp.Ans T) Raised (.sleep delay)

structure Settings where
  maxAttempts : ℕ := 3
  baseDelay : ℚ := 1
  maxDelay : ℚ := 30

def Settings.delay (settings : Settings) (attempt : ℕ) : ℚ :=
  min (settings.baseDelay*2^(attempt-1)) settings.maxDelay

def runtimeError : Raised where
  mro := [⟨"RuntimeError",none⟩,exceptionClass,baseExceptionClass]

section
variable {T : Type} (settings : Settings)

def raiseLast : Option Raised → RetryScript T T
  | none => throw runtimeError
  | some exc => throw exc

/-- The loop from an attempt on, with the attempts that remain. -/
def retryFrom : ℕ → ℕ → Option Raised → RetryScript T T
  | 0, _, lastExc => raiseLast lastExc
  | remaining+1, attempt, _ => Script.tryCatch call fun exc =>
    if !exc.caught then throw exc
    else if !exc.retryable then throw exc
    else if attempt ≥ settings.maxAttempts then raiseLast (some exc)
    else do
      sleep (settings.delay attempt)
      retryFrom remaining (attempt+1) (some exc)

def retryAsync : RetryScript T T := retryFrom settings settings.maxAttempts 1 none

end

/-- What a run has done. -/
structure Log where
  calls : ℕ := 0
  waits : List ℚ := []

def exec {T : Type} (outcomes : ℕ → Except Raised T) :
    (o : RetryOp) → Log → Except Raised (RetryOp.Ans T o) × Log
  | .fn, log => (outcomes log.calls,{ log with calls := log.calls+1 })
  | .sleep delay, log => (.ok (),{ log with waits := log.waits ++ [delay] })

def Succeeds {T : Type} : Except Raised T → Prop
  | .ok _ => True
  | .error _ => False

/-- A failure that says of itself that the call may be repeated. -/
def Retryable {T : Type} : Except Raised T → Prop
  | .ok _ => False
  | .error exc => exc.caught = true ∧ exc.retryable = true

/-- A failure that does not. -/
def Fatal {T : Type} (x : Except Raised T) : Prop := ¬ Succeeds x ∧ ¬ Retryable x

/-- The place of the first outcome of a kind, counted from one; infinite if there is none. -/
noncomputable def firstIndex {T : Type} (outcomes : ℕ → Except Raised T)
    (kind : Except Raised T → Prop) : ℕ∞ :=
  sInf { n | ∃ k : ℕ, n = k+1 ∧ kind (outcomes k) }

section
variable {T : Type} {settings : Settings} {outcomes : ℕ → Except Raised T}

/-- Where the loop stops: at the first outcome that is not retryable, or with the last attempt. -/
def StopsAt (outcomes : ℕ → Except Raised T) (start remaining n : ℕ) : Prop :=
  n ≤ remaining ∧ (∀ k < n, Retryable (outcomes (start+k))) ∧
    (n = remaining ∨ ¬ Retryable (outcomes (start+n)))

theorem run_call (log : Log) (handler : Raised → RetryScript T T) :
    (Script.tryCatch call handler).run (exec outcomes) log =
      match outcomes log.calls with
      | .ok a => (.ok a,{ log with calls := log.calls+1 })
      | .error exc => (handler exc).run (exec outcomes) { log with calls := log.calls+1 } := by
  rw [Script.run_tryCatch,call,Script.run_perform]
  simp only [exec]
  cases outcomes log.calls <;> rfl

theorem run_sleep (delay : ℚ) (p : RetryScript T T) (log : Log) :
    (sleep delay >>= fun _ => p).run (exec outcomes) log =
      p.run (exec outcomes) { log with waits := log.waits ++ [delay] } := rfl

/-- The loop makes the calls up to where it stops, waits between them, and ends as the last. -/
theorem run_retryFrom (remaining attempt : ℕ) (lastExc : Option Raised) (log : Log)
    (hmax : settings.maxAttempts = attempt+remaining) :
    ∃ n, StopsAt outcomes log.calls remaining n ∧
      (retryFrom settings (remaining+1) attempt lastExc).run (exec outcomes) log =
        (outcomes (log.calls+n),
          ⟨log.calls+n+1,log.waits ++ (List.range n).map fun k => settings.delay (attempt+k)⟩) := by
  induction remaining generalizing attempt lastExc log with
  | zero =>
    refine ⟨0,⟨le_refl 0,fun k hk => absurd hk k.not_lt_zero,.inl rfl⟩,?_⟩
    rw [retryFrom,run_call]
    cases houtcome : outcomes log.calls with
    | ok a => simp
    | error exc =>
      have hlast : attempt ≥ settings.maxAttempts := by omega
      simp only [hlast,if_true,raiseLast]
      split_ifs <;> simp
  | succ remaining ih =>
    rw [retryFrom,run_call]
    cases houtcome : outcomes log.calls with
    | ok a =>
      refine ⟨0,⟨Nat.zero_le _,fun k hk => absurd hk k.not_lt_zero,.inr ?_⟩,?_⟩
      · simp [houtcome,Retryable]
      · simp [houtcome]
    | error exc =>
      by_cases hretry : exc.caught = true ∧ exc.retryable = true
      · have hmore : ¬ attempt ≥ settings.maxAttempts := by omega
        obtain ⟨n,⟨hn,hbefore,hstop⟩,hrun⟩ := ih (attempt+1) (some exc)
          ⟨log.calls+1,log.waits ++ [settings.delay attempt]⟩ (by omega)
        refine ⟨n+1,⟨Nat.succ_le_succ hn,fun k hk => ?_,?_⟩,?_⟩
        · cases k with
          | zero => simpa [houtcome,Retryable] using hretry
          | succ k =>
            rw [← Nat.add_assoc,Nat.add_right_comm]
            exact hbefore k (Nat.lt_of_succ_lt_succ hk)
        · rw [← Nat.add_assoc,Nat.add_right_comm]
          exact hstop.imp_left (congrArg (·+1))
        · simp only [hretry.1,hretry.2,hmore,Bool.not_true,Bool.false_eq_true,if_false,run_sleep]
          rw [hrun,List.range_succ_eq_map]
          simp only [List.map_cons,List.map_map,List.append_assoc,List.singleton_append,
            Function.comp_def]
          have hcalls : log.calls+1+n = log.calls+(n+1) := by omega
          simp [hcalls,Nat.add_comm,Nat.add_left_comm]
      · refine ⟨0,⟨Nat.zero_le _,fun k hk => absurd hk k.not_lt_zero,.inr ?_⟩,?_⟩
        · simpa [houtcome,Retryable] using hretry
        · rw [not_and_or,Bool.not_eq_true,Bool.not_eq_true] at hretry
          rcases hretry with h | h <;> simp [h,houtcome]

theorem StopsAt.stopped {remaining n : ℕ} (h : StopsAt outcomes 0 remaining n) {k : ℕ}
    (hk : ¬ Retryable (outcomes k)) : n ≤ k := by
  by_contra hlt
  have hretry := h.2.1 k (Nat.lt_of_not_le hlt)
  rw [Nat.zero_add] at hretry
  exact hk hretry

theorem StopsAt.calls {remaining n : ℕ} (h : StopsAt outcomes 0 remaining n) :
    ((n+1 : ℕ) : ℕ∞) = min (min (firstIndex outcomes Succeeds) (firstIndex outcomes Fatal))
      ((remaining+1 : ℕ) : ℕ∞) := by
  have hfirst : ∀ kind : Except Raised T → Prop, (∀ x, kind x → ¬ Retryable x) →
      ((n+1 : ℕ) : ℕ∞) ≤ firstIndex outcomes kind := by
    intro kind hkind
    refine le_sInf ?_
    rintro _ ⟨k,rfl,hk⟩
    exact_mod_cast Nat.succ_le_succ (h.stopped (hkind _ hk))
  have hsucceeds : ∀ x : Except Raised T, Succeeds x → ¬ Retryable x := by
    rintro (exc | a) hx
    · exact hx.elim
    · exact id
  refine le_antisymm (le_min (le_min (hfirst _ hsucceeds) (hfirst _ fun _ hx => hx.2)) ?_) ?_
  · exact_mod_cast Nat.succ_le_succ h.1
  · rcases h.2.2 with hn | hstop
    · exact (min_le_right _ _).trans (by rw [hn])
    · rw [Nat.zero_add] at hstop
      refine (min_le_left _ _).trans ?_
      by_cases hsucceeds : Succeeds (outcomes n)
      · exact (min_le_left _ _).trans (sInf_le ⟨n,by norm_cast,hsucceeds⟩)
      · exact (min_le_right _ _).trans (sInf_le ⟨n,by norm_cast,hsucceeds,hstop⟩)

end

/-- The calls, the outcome and the waits of `retry_async`, for any outcomes of the calls; after an
authentication or permission error, or one of unknown kind, there is no further call. -/
theorem retry_async_law {T : Type} (settings : Settings) (hattempts : 1 ≤ settings.maxAttempts)
    (outcomes : ℕ → Except Raised T) :
    let run := (retryAsync settings).run (exec outcomes) {}
    (run.2.calls : ℕ∞) = min (min (firstIndex outcomes Succeeds) (firstIndex outcomes Fatal))
      settings.maxAttempts ∧
    run.1 = outcomes (run.2.calls-1) ∧
    run.2.calls = run.2.waits.length+1 ∧
    run.2.waits = (List.range (run.2.calls-1)).map
      (fun k => min (settings.baseDelay*2^k) settings.maxDelay) ∧
    ∀ k exc, outcomes k = .error exc →
      exc.Inherits (authenticationError::connectionErrorMro) ∨
        exc.Inherits (permissionError::connectionErrorMro) ∨ exc.Unknown →
      run.2.calls ≤ k+1 := by
  obtain ⟨remaining,hremaining⟩ := Nat.exists_eq_add_of_le hattempts
  obtain ⟨n,hstops,hrun⟩ := @run_retryFrom T settings outcomes remaining 1 none {} hremaining
  have hloop : (retryAsync settings).run (exec outcomes) {} = (outcomes n,
      ⟨n+1,(List.range n).map fun k => min (settings.baseDelay*2^k) settings.maxDelay⟩) := by
    rw [retryAsync,hremaining,Nat.add_comm 1,hrun]
    simp [Settings.delay]
  intro run
  have hrun : run = _ := hloop
  rw [hrun]
  refine ⟨?_,rfl,by simp,rfl,fun k exc hexc hkind => ?_⟩
  · rw [hstops.calls,hremaining,Nat.add_comm 1]
  · refine Nat.succ_le_succ (hstops.stopped ?_)
    have hfalse : exc.retryable = false := by
      rcases hkind with hkind | hkind | hkind
      · exact Raised.retryable_of_inherits hkind
      · exact Raised.retryable_of_inherits hkind
      · exact Raised.retryable_of_unknown hkind
    rw [hexc]
    rintro ⟨_,hretry⟩
    rw [hfalse] at hretry
    cases hretry

def refusedAtThird (k : ℕ) : Except Raised Unit :=
  if k < 2 then .error { mro := unreachableError::connectionErrorMro }
  else .error { mro := authenticationError::connectionErrorMro }

theorem retry_async_law_refused :
    let run := (retryAsync { maxAttempts := 5 }).run (exec refusedAtThird) {}
    (run.2.calls : ℕ∞) = min (min (firstIndex refusedAtThird Succeeds)
      (firstIndex refusedAtThird Fatal)) ((5 : ℕ) : ℕ∞) ∧
    run.1 = refusedAtThird (run.2.calls-1) ∧
    run.2.calls = run.2.waits.length+1 ∧
    run.2.waits = (List.range (run.2.calls-1)).map (fun k => min ((1 : ℚ)*2^k) 30) ∧
    ∀ k exc, refusedAtThird k = .error exc →
      exc.Inherits (authenticationError::connectionErrorMro) ∨
        exc.Inherits (permissionError::connectionErrorMro) ∨ exc.Unknown →
      run.2.calls ≤ k+1 :=
  retry_async_law { maxAttempts := 5 } (by decide) refusedAtThird

example : ((retryAsync { maxAttempts := 5 }).run (exec refusedAtThird) {}).2.calls = 3 := by decide

end RetryAsync
end WzonePortal
