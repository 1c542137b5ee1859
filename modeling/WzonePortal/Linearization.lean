import WzonePortal.Interleaving

/-! Interleaved scripts that each take effect at one point. If every script changes an
abstract state in one of its steps and leaves it alone in all others, a run does what the
effects do one after another, in the order in which they were taken. -/
namespace WzonePortal
namespace System

variable {Op ι : Type} {Res : Op → Type} {ε α S L A : Type} [DecidableEq ι]
  {exec : Exec Res ε S L} {cond : ι → System ι Res ε α S L → Prop}

/-- The processes that have taken effect, in order, account for the abstract state. -/
structure Linearized (effect : ι → A → A) (Rep : S → A → Prop)
    (Phase : ι → Process Res ε α L → Bool → Prop) (a : A) (order : List ι)
    (sys : System ι Res ε α S L) : Prop where
  nodup : order.Nodup
  phase : ∀ i, Phase i (sys.processes i) (i ∈ order)
  rep : Rep sys.shared (order.foldl (fun a i => effect i a) a)

/-- One step of a process: either its effect or nothing that the abstract state shows. -/
def TakesEffect (exec : Exec Res ε S L) (effect : A → A) (Rep : S → A → Prop)
    (Phase : Process Res ε α L → Bool → Prop) (p : Process Res ε α L) (s : S) (taken : Bool)
    (a : A) : Prop :=
  (Phase (p.step exec s).2 taken ∧ Rep (p.step exec s).1 a) ∨
    (taken = false ∧ Phase (p.step exec s).2 true ∧ Rep (p.step exec s).1 (effect a))

variable {effect : ι → A → A} {Rep : S → A → Prop} {Phase : ι → Process Res ε α L → Bool → Prop}
  {a : A} {sys : System ι Res ε α S L}

theorem Linearized.step {order : List ι} (h : sys.Linearized effect Rep Phase a order) {i : ι}
    (hstep : TakesEffect exec (effect i) Rep (Phase i) (sys.processes i) sys.shared (i ∈ order)
      (order.foldl (fun a i => effect i a) a)) :
    ∃ order', (sys.step exec i).Linearized effect Rep Phase a order' := by
  rcases hstep with ⟨hphase,hrep⟩ | ⟨hnot,hphase,hrep⟩
  · refine ⟨order,h.nodup,fun j => ?_,hrep⟩
    by_cases hj : j = i
    · subst hj
      simpa only [System.step,Function.update_self] using hphase
    · simpa only [System.step,Function.update_of_ne hj] using h.phase j
  · have hmem : i ∉ order := by simpa using hnot
    refine ⟨order ++ [i],?_,fun j => ?_,?_⟩
    · exact h.nodup.append (List.nodup_singleton i) (by simpa using hmem)
    · by_cases hj : j = i
      · subst hj
        simpa only [System.step,Function.update_self,List.mem_append,List.mem_singleton,or_true,
          decide_true] using hphase
      · simpa only [System.step,Function.update_of_ne hj,List.mem_append,List.mem_singleton,hj,
          or_false] using h.phase j
    · rw [List.foldl_append]
      exact hrep

/-- The order of the effects explains every run whose steps take effect once. -/
theorem Linearized.run {schedule : List ι}
    (hstep : ∀ i sys taken a, cond i sys → Rep sys.shared a → Phase i (sys.processes i) taken →
      TakesEffect exec (effect i) Rep (Phase i) (sys.processes i) sys.shared taken a)
    (h : ∃ order, sys.Linearized effect Rep Phase a order) (halong : sys.Along exec cond schedule) :
    ∃ order, (sys.run exec schedule).Linearized effect Rep Phase a order :=
  run_invariant (P:=fun sys => ∃ order, sys.Linearized effect Rep Phase a order)
    (fun i sys hcond ⟨_,h⟩ => h.step (hstep i sys _ _ hcond h.rep (h.phase i))) h halong

end System
end WzonePortal
