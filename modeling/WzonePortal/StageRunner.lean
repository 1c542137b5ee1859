import WzonePortal.CollectService

/-! The stages of a connection check. A stage that raises becomes a failed result, and the
stages after it are recorded as skipped; the attributes of a reader keep what the failing
stage has assigned. -/
namespace WzonePortal

inductive CheckStage
  | reachable | tlsValid | authenticated | authorized
  deriving DecidableEq, Repr

/-- The result of one stage, without its running time. -/
structure StageResult where
  stage : CheckStage
  passed : Bool
  skipped : Bool := false
  detail : Option String := none
  deriving DecidableEq, Repr

structure ConnectionCheckResult where
  stages : List StageResult
  readableTypes : List ResourceType := []
  serverVersion : Option String := none
  deriving DecidableEq, Repr

namespace ConnectionCheckResult

def isUsable (r : ConnectionCheckResult) : Bool :=
  r.stages.all (·.passed) && !r.stages.any (·.skipped)

def failedStage (r : ConnectionCheckResult) : Option CheckStage :=
  (r.stages.find? fun s => !s.passed && !s.skipped).map (·.stage)

end ConnectionCheckResult

/-- A method of a reader: it may raise, and its attributes outlive the exception. -/
abbrev Check (σ : Type) : Type → Type := ExceptT Raised (StateM σ)

structure StageRunner where
  results : List StageResult := []
  aborted : Bool := false

namespace StageRunner

variable {σ : Type}

def run (describe : Raised → String) (stage : CheckStage)
    (fn : Check σ (Option String)) (r : StageRunner) : StateM σ StageRunner := fun s =>
  if r.aborted then (⟨r.results ++ [{ stage := stage, passed := false, skipped := true }],true⟩,s)
  else match fn.run s with
    | (.ok detail,s) =>
      (⟨r.results ++ [{ stage := stage, passed := true, detail := detail }],false⟩,s)
    | (.error e,s) =>
      (⟨r.results ++ [{ stage := stage, passed := false, detail := some (describe e) }],true⟩,s)

def runStages (describe : Raised → String) :
    List (CheckStage × Check σ (Option String)) → StageRunner → StateM σ StageRunner
  | [], r => pure r
  | (stage,fn)::stages, r => do
    let r ← run describe stage fn r
    runStages describe stages r

end StageRunner

/-- Passed stages, and if the runner has aborted one failed stage and skipped ones after it. -/
inductive Shaped : Bool → List StageResult → Prop
  | passing (p : List StageResult) (hp : ∀ r ∈ p, r.passed = true ∧ r.skipped = false) :
    Shaped false p
  | failing (p : List StageResult) (f : StageResult) (k : List StageResult)
    (hp : ∀ r ∈ p, r.passed = true ∧ r.skipped = false)
    (hf : f.passed = false ∧ f.skipped = false)
    (hk : ∀ r ∈ k, r.passed = false ∧ r.skipped = true) : Shaped true (p ++ f::k)

/-- What a check promises about its result. -/
structure Reported (result : ConnectionCheckResult) : Prop where
  stages : result.stages.map (·.stage) = [.reachable,.tlsValid,.authenticated,.authorized]
  shape : ∃ p f k, result.stages = p ++ f ++ k ∧
    (∀ r ∈ p, r.passed = true ∧ r.skipped = false) ∧
    (∀ r ∈ f, r.passed = false ∧ r.skipped = false) ∧ f.length ≤ 1 ∧
    (∀ r ∈ k, r.passed = false ∧ r.skipped = true) ∧ (f = [] → k = [])
  usable : result.isUsable = true ↔ ∀ r ∈ result.stages, r.passed = true
  failed : result.failedStage = (result.stages.find? fun r => !r.passed).map (·.stage)

section
variable {σ : Type} {describe : Raised → String} {r : StageRunner} {s : σ}
  {stages : List (CheckStage × Check σ (Option String))} {results : List StageResult}
  {aborted : Bool} {result : ConnectionCheckResult}

open StageRunner

theorem run_shaped (stage : CheckStage) (fn : Check σ (Option String))
    (h : Shaped r.aborted r.results) :
    Shaped (run describe stage fn r s).1.aborted (run describe stage fn r s).1.results := by
  obtain ⟨results,aborted⟩ := r
  cases h with
  | passing p hp =>
    unfold run
    simp only [Bool.false_eq_true,if_false]
    rcases fn.run s with ⟨detail | e,s'⟩
    · exact .failing results _ [] hp ⟨rfl,rfl⟩ (by simp)
    · refine .passing _ fun r hr => ?_
      rcases List.mem_append.mp hr with hr | hr
      · exact hp r hr
      · rw [List.mem_singleton.mp hr]
        exact ⟨rfl,rfl⟩
  | failing p f k hp hf hk =>
    unfold run
    have hassoc : (p ++ f::k) ++ [{ stage := stage, passed := false, skipped := true }] =
        p ++ f::(k ++ [{ stage := stage, passed := false, skipped := true }]) := by simp
    simp only [if_true]
    refine hassoc ▸ Shaped.failing p f _ hp hf fun r hr => ?_
    rcases List.mem_append.mp hr with hr | hr
    · exact hk r hr
    · rw [List.mem_singleton.mp hr]
      exact ⟨rfl,rfl⟩

theorem run_stage (stage : CheckStage) (fn : Check σ (Option String)) (r : StageRunner)
    (s : σ) : (run describe stage fn r s).1.results.map (·.stage) =
      r.results.map (·.stage) ++ [stage] := by
  unfold run
  split
  · simp
  · rcases fn.run s with ⟨detail | e,s'⟩ <;> simp

theorem runStages_shaped (h : Shaped r.aborted r.results) :
    Shaped (runStages describe stages r s).1.aborted (runStages describe stages r s).1.results := by
  induction stages generalizing r s with
  | nil => exact h
  | cons stage stages ih => exact ih (run_shaped stage.1 stage.2 h)

theorem runStages_stages (r : StageRunner) (s : σ) :
    (runStages describe stages r s).1.results.map (·.stage) =
      r.results.map (·.stage) ++ stages.map (·.1) := by
  induction stages generalizing r s with
  | nil => exact (List.append_nil _).symm
  | cons stage stages ih =>
    change (runStages describe stages (run describe stage.1 stage.2 r s).1
      (run describe stage.1 stage.2 r s).2).1.results.map (·.stage) = _
    rw [ih,run_stage,List.append_assoc]
    rfl

theorem Shaped.split (h : Shaped aborted results) : ∃ p f k, results = p ++ f ++ k ∧
    (∀ r ∈ p, r.passed = true ∧ r.skipped = false) ∧
    (∀ r ∈ f, r.passed = false ∧ r.skipped = false) ∧ f.length ≤ 1 ∧
    (∀ r ∈ k, r.passed = false ∧ r.skipped = true) ∧ (f = [] → k = []) := by
  cases h with
  | passing _ hp => exact ⟨results,[],[],by simp,hp,by simp,by simp,by simp,by simp⟩
  | failing p f k hp hf hk => exact ⟨p,[f],k,by simp,hp,by simpa using hf,by simp,hk,by simp⟩

theorem Shaped.no_skipped (h : Shaped aborted results) (hall : ∀ r ∈ results, r.passed = true) :
    ∀ r ∈ results, r.skipped = false := by
  cases h with
  | passing _ hp => exact fun r hr => (hp r hr).2
  | failing p f k hp hf hk =>
    have hpassed := hall f (by simp)
    rw [hf.1] at hpassed
    cases hpassed

/-- The first stage that did not pass is a failed one. -/
theorem Shaped.find (h : Shaped aborted results) :
    (results.find? fun r => !r.passed && !r.skipped) = results.find? fun r => !r.passed := by
  cases h with
  | passing _ hp =>
    rw [List.find?_eq_none.mpr,List.find?_eq_none.mpr]
    · intro r hr
      simp [(hp r hr).1]
    · intro r hr
      simp [(hp r hr).1]
  | failing p f k hp hf hk =>
    have hnone : ∀ q : StageResult → Bool, (∀ r, q r = true → r.passed = false) →
        p.find? q = none := by
      intro q hq
      rw [List.find?_eq_none]
      intro r hr hqr
      cases (hq r hqr).symm.trans (hp r hr).1
    have hfirst := hnone (fun r => !r.passed && !r.skipped) (by simp +contextual)
    have hsecond := hnone (fun r => !r.passed) (by simp)
    rw [List.find?_append,List.find?_append,hfirst,hsecond]
    simp [hf.1,hf.2]

theorem Shaped.reported (h : Shaped aborted result.stages)
    (hstages : result.stages.map (·.stage) = [.reachable,.tlsValid,.authenticated,.authorized]) :
    Reported result := by
  refine ⟨hstages,h.split,?_,?_⟩
  · unfold ConnectionCheckResult.isUsable
    simp only [Bool.and_eq_true,List.all_eq_true,Bool.not_eq_true',List.any_eq_false,
      Bool.not_eq_true]
    exact ⟨And.left,fun hall => ⟨hall,h.no_skipped hall⟩⟩
  · unfold ConnectionCheckResult.failedStage
    rw [h.find]

theorem reported_of_runStages (describe : Raised → String)
    (stages : List (CheckStage × Check σ (Option String))) (s : σ)
    (hstages : stages.map (·.1) = [.reachable,.tlsValid,.authenticated,.authorized])
    (readable : List ResourceType) (serverVersion : Option String) :
    Reported ⟨(runStages describe stages {} s).1.results,readable,serverVersion⟩ := by
  have hshape : Shaped (runStages describe stages {} s).1.aborted
      (runStages describe stages {} s).1.results :=
    runStages_shaped (.passing [] (by simp))
  refine hshape.reported ?_
  rw [runStages_stages,hstages]
  rfl

end
end WzonePortal
