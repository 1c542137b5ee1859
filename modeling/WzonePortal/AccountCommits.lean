import WzonePortal.AccountTransactions

/-! What the commit of an account request does to the user rows, whenever it comes. -/
namespace WzonePortal

open ReadCommitted

section
variable {dbms : Dbms} {db db' : Database} {userId : UUID} {ws : List Write}

theorem patched_of_ne {v : UUID} (hown : ∀ w ∈ ws, AccountWrite userId w) (hv : v ≠ userId) :
    patched v ws = id := by
  induction ws with
  | nil => rfl
  | cons w ws ih =>
    have hrest := ih fun x hx => hown x (List.mem_cons_of_mem _ hx)
    have hw := hown w List.mem_cons_self
    funext r
    cases w with
    | patchUser u p =>
      have hne : ¬ u = v := fun he => hv (he.symm.trans hw)
      rw [patched,if_neg hne,hrest]
    | replaceScopes u ids grantedBy at_ => exact congrFun hrest r
    | insertAudit row => exact congrFun hrest r
    | insertUser row => exact hw.elim
    | insertConnection row => exact hw.elim
    | deleteConnection c => exact hw.elim

/-- What a commit makes of every user row. -/
theorem find?_applyAll (hown : ∀ w ∈ ws, AccountWrite userId w)
    (h : Write.applyAll dbms ws db = .ok db') (v : UUID) :
    db'.users.find? v = (db.users.find? v).map (patched v ws) := by
  induction ws generalizing db with
  | nil =>
    cases h
    exact Option.map_id.symm ▸ rfl
  | cons w ws ih =>
    obtain ⟨mid,hmid,hrest⟩ := Write.applyAll_cons h
    rw [ih (fun x hx => hown x (List.mem_cons_of_mem _ hx)) hrest]
    have hw := hown w List.mem_cons_self
    cases w with
    | patchUser u p =>
      rw [(Write.apply_patchUser hmid).2,find?_patchUser]
      by_cases hu : v = u
      · subst hu
        rw [if_pos rfl,Option.map_map]
        congr 1
        funext r
        simp [patched]
      · rw [if_neg hu]
        congr 1
        funext r
        rw [patched,if_neg fun he => hu he.symm]
    | replaceScopes u ids grantedBy at_ => rw [users_replaceScopes hmid]; rfl
    | insertAudit row => rw [(Write.apply_insertAudit hmid).2]; rfl
    | insertUser row => exact hw.elim
    | insertConnection row => exact hw.elim
    | deleteConnection c => exact hw.elim

variable {ι : Type} [DecidableEq ι] {Q : Except Exc Response → Transaction → Prop}

/-- A step changes the database only by a sound commit. -/
theorem step_cases {sys : Requests ι} (h : sys.Behaved (exec dbms) Commits Q) (i : ι) :
    (sys.step (exec dbms) i).shared = sys.shared ∨
    (committing i sys = true ∧ (∃ userId, (sys.processes i).state.Sound userId) ∧
      Write.applyAll dbms (sys.processes i).state.pending sys.shared =
        .ok (sys.step (exec dbms) i).shared) := by
  have hi := h i
  simp only [System.step,Process.step,committing]
  cases hscript : (sys.processes i).script with
  | ret a => exact .inl rfl
  | raise e => exact .inl rfl
  | call o next =>
    rw [hscript] at hi
    by_cases ho : o = .commit
    · subst ho
      simp only [exec,execCommit]
      by_cases hactive : (sys.processes i).state.inactive = true
      · exact .inl (by rw [if_pos hactive])
      · rw [if_neg hactive]
        cases hall : Write.applyAll dbms (sys.processes i).state.pending sys.shared with
        | ok db' => exact .inr ⟨by simpa using hactive,hi.1 rfl,rfl⟩
        | error e => exact .inl rfl
    · exact .inl (exec_shared ho sys.shared)

end
end WzonePortal
