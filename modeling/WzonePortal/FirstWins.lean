import WzonePortal.Interleaving

/-! Races for a place that one process can take. A process waits, goes inside after a check,
and takes the place in its last step inside; who checks after that is settled as a loser. If
nobody checks while somebody is inside, the first to take the place is the only one. -/
namespace WzonePortal
namespace System

/-- The stages of the processes of a race, and what one step does in each of them. -/
structure Race {Op : Type} (ι : Type) {Res : Op → Type} {ε S L : Type} (α : Type)
    (exec : Exec Res ε S L) where
  Free : S → Prop
  Won : ι → S → Prop
  Waiting : ι → Process Res ε α L → Prop
  Checking : Process Res ε α L → Prop
  Inside : ι → Process Res ε α L → Prop
  Winner : ι → Process Res ε α L → Prop
  Loser : ι → ι → Process Res ε α L → Prop
  waiting_free : ∀ i p s, Free s → Waiting i p → Free (p.step exec s).1 ∧
    (Waiting i (p.step exec s).2 ∨ (Checking p ∧ Inside i (p.step exec s).2))
  waiting_won : ∀ w i p s, Won w s → Waiting i p → Won w (p.step exec s).1 ∧
    (Waiting i (p.step exec s).2 ∨ Loser w i (p.step exec s).2)
  inside_free : ∀ i p s, Free s → Inside i p →
    (Free (p.step exec s).1 ∧ Inside i (p.step exec s).2) ∨
      (Won i (p.step exec s).1 ∧ Winner i (p.step exec s).2)
  winner_won : ∀ w p s, Won w s → Winner w p → Won w (p.step exec s).1 ∧ Winner w (p.step exec s).2
  loser_won : ∀ w i p s, Won w s → Loser w i p → Won w (p.step exec s).1 ∧
    Loser w i (p.step exec s).2

namespace Race

variable {Op ι : Type} {Res : Op → Type} {ε S L α : Type} {exec : Exec Res ε S L}
  (r : Race ι α exec)

/-- The stages that a run can be in: nobody has won and at most one process is inside, or
somebody has won and nobody is inside. -/
inductive Reached (sys : System ι Res ε α S L) : Prop
  | free (hfree : r.Free sys.shared) (inside : Option ι)
    (each : ∀ i, (inside = some i ∧ r.Inside i (sys.processes i)) ∨
      (inside ≠ some i ∧ r.Waiting i (sys.processes i)))
  | won (w : ι) (hwon : r.Won w sys.shared) (winner : r.Winner w (sys.processes w))
    (others : ∀ i, i ≠ w → r.Waiting i (sys.processes i) ∨ r.Loser w i (sys.processes i))

variable {r} {sys : System ι Res ε α S L} {i : ι}

theorem Reached.won_of_ended (hwaiting : ∀ i p, r.Waiting i p → p.script.ended = false)
    (hinside : ∀ i p, r.Inside i p → p.script.ended = false) (h : r.Reached sys)
    (hended : (sys.processes i).script.ended = true) :
    ∃ w, r.Won w sys.shared ∧ r.Winner w (sys.processes w) ∧
      ∀ j, j ≠ w → (sys.processes j).script.ended = true → r.Loser w j (sys.processes j) := by
  cases h with
  | free _ inside each =>
    have hrunning : (sys.processes i).script.ended = false :=
      (each i).elim (fun h => hinside i _ h.2) (fun h => hwaiting i _ h.2)
    exact absurd (hended.symm.trans hrunning) (by decide)
  | won w hwon winner others =>
    refine ⟨w,hwon,winner,fun j hj hj' => (others j hj).resolve_left fun hwait => ?_⟩
    exact absurd (hj'.symm.trans (hwaiting j _ hwait)) (by decide)

variable [DecidableEq ι]

theorem Reached.step (h : r.Reached sys) (halone : r.Checking (sys.processes i) →
    ∀ j, j ≠ i → ¬ r.Inside j (sys.processes j)) : r.Reached (sys.step exec i) := by
  have hself : (sys.step exec i).processes i = ((sys.processes i).step exec sys.shared).2 :=
    Function.update_self _ _ _
  have hother : ∀ j, j ≠ i → (sys.step exec i).processes j = sys.processes j :=
    fun j hj => Function.update_of_ne hj _ _
  cases h with
  | free hfree inside each =>
    rcases each i with ⟨hi,hinside⟩ | ⟨hi,hwaiting⟩
    · rcases r.inside_free i _ _ hfree hinside with ⟨hfree',hinside'⟩ | ⟨hwon,hwinner⟩
      · refine .free hfree' inside fun j => ?_
        by_cases hj : j = i
        · subst hj
          exact .inl ⟨hi,by rw [hself]; exact hinside'⟩
        · rw [hother j hj]
          exact each j
      · refine .won i hwon (by rw [hself]; exact hwinner) fun j hj => ?_
        rw [hother j hj]
        rcases each j with ⟨hj',_⟩ | ⟨_,hwaiting⟩
        · exact absurd (Option.some.inj (hj'.symm.trans hi)) hj
        · exact .inl hwaiting
    · obtain ⟨hfree',hwaiting' | ⟨hchecking,hinside⟩⟩ := r.waiting_free i _ _ hfree hwaiting
      · refine .free hfree' inside fun j => ?_
        by_cases hj : j = i
        · subst hj
          exact .inr ⟨hi,by rw [hself]; exact hwaiting'⟩
        · rw [hother j hj]
          exact each j
      · refine .free hfree' (some i) fun j => ?_
        by_cases hj : j = i
        · subst hj
          exact .inl ⟨rfl,by rw [hself]; exact hinside⟩
        · rw [hother j hj]
          refine .inr ⟨fun he => hj (Option.some.inj he).symm,?_⟩
          rcases each j with ⟨_,hj'⟩ | ⟨_,hwaiting⟩
          · exact absurd hj' (halone hchecking j hj)
          · exact hwaiting
  | won w hwon winner others =>
    by_cases hw : i = w
    · subst hw
      obtain ⟨hwon',hwinner⟩ := r.winner_won i _ _ hwon winner
      refine .won i hwon' (by rw [hself]; exact hwinner) fun j hj => ?_
      rw [hother j hj]
      exact others j hj
    · have hstep : r.Won w ((sys.processes i).step exec sys.shared).1 ∧
          (r.Waiting i ((sys.processes i).step exec sys.shared).2 ∨
            r.Loser w i ((sys.processes i).step exec sys.shared).2) := by
        rcases others i hw with hwaiting | hloser
        · exact r.waiting_won w i _ _ hwon hwaiting
        · exact (r.loser_won w i _ _ hwon hloser).imp_right .inr
      refine .won w hstep.1 ?_ fun j hj => ?_
      · rw [hother w fun he => hw he.symm]
        exact winner
      · by_cases hji : j = i
        · subst hji
          rw [hself]
          exact hstep.2
        · rw [hother j hji]
          exact others j hj

/-- The run of a race in which everybody checks alone. -/
theorem Reached.run {cond : ι → System ι Res ε α S L → Prop} {schedule : List ι}
    (hcond : ∀ i sys, cond i sys → r.Checking (sys.processes i) →
      ∀ j, j ≠ i → ¬ r.Inside j (sys.processes j))
    (h : r.Reached sys) (halong : sys.Along exec cond schedule) :
    r.Reached (sys.run exec schedule) :=
  run_invariant (fun i sys hi hsys => Reached.step hsys (hcond i sys hi)) h halong

end Race
end System
end WzonePortal
