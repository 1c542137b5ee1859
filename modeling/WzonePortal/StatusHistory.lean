import WzonePortal.AccountCommits

/-! The status column under overlapping requests. The transition is checked on the status that
was read and the write is unconditional, so an approval and a rejection of one applicant can
both commit; while a commit that changes a status finds the one it read, every committed
change is in the transition table. -/
namespace WzonePortal

open ReadCommitted

instance (tx : Transaction) (row : UserRow) : Decidable (tx.ReadStatus row) :=
  inferInstanceAs (Decidable (∀ r ∈ tx.read, r.userId = row.userId → r.status = row.status))

/-- A commit that changes a status finds the status that its transaction has read. -/
def StatusUnstale {ι : Type} (i : ι) (sys : Requests ι) : Prop :=
  committing i sys = true → ∀ row ∈ sys.shared.users.rows,
    (patched row.userId (sys.processes i).state.pending row).status ≠ row.status →
    (sys.processes i).state.ReadStatus row

instance {ι : Type} (i : ι) (sys : Requests ι) : Decidable (StatusUnstale i sys) :=
  inferInstanceAs (Decidable (_ → ∀ row ∈ sys.shared.users.rows, _ → _))

/-- A sound commit on an unstale status changes it along the transition table. -/
theorem status_commit {dbms : Dbms} {db db' : Database} {tx : Transaction} {userId u : UUID}
    {row row' : UserRow} (hsound : tx.Sound userId)
    (happly : Write.applyAll dbms tx.pending db = .ok db')
    (hrow : db.users.find? u = some row) (hrow' : db'.users.find? u = some row')
    (hunstale : (patched u tx.pending row).status ≠ row.status → tx.ReadStatus row) :
    row'.status = row.status ∨ row'.status ∈ allowedTransitions row.status := by
  have hfind := find?_applyAll hsound.own happly u
  rw [hrow,hrow',Option.map_some,Option.some.injEq] at hfind
  rw [hfind]
  by_cases hsame : (patched u tx.pending row).status = row.status
  · exact .inl hsame
  · have hu : u = userId := by
      by_contra hne
      rw [patched_of_ne hsound.own hne] at hsame
      exact hsame rfl
    subst hu
    exact .inr (hsound.legal row (Table.find?_key hrow) (hunstale hsame) hsame)

/-- While every commit that changes a status finds the one it read, the committed status of
every user moves along the transition table only. -/
theorem status_history_legal {ι : Type} [DecidableEq ι] (env : Env) (dbms : Dbms)
    (calls : ι → Call) (hkind : ∀ i, (calls i).request.isAccountRequest = true) (db : Database)
    (schedule : List ι) (i : ι)
    (hunstale : (start env calls db).Along (exec dbms) StatusUnstale (schedule ++ [i]))
    (u : UUID) (row row' : UserRow)
    (hrow : ((start env calls db).run (exec dbms) schedule).shared.users.find? u = some row)
    (hrow' : ((start env calls db).run (exec dbms) (schedule ++ [i])).shared.users.find? u =
      some row') :
    row'.status = row.status ∨ row'.status ∈ allowedTransitions row.status := by
  have hstart : (start env calls db).Behaved (exec dbms) Commits fun _ _ => True :=
    fun j => wp_handler (hkind j)
  have hbehaved := hstart.run schedule
  have hcond := (System.along_append.mp hunstale).2.1
  rw [System.run_append] at hrow'
  rcases step_cases hbehaved i with hsame | ⟨hcommit,⟨userId,hsound⟩,happly⟩
  · have hstep : (((start env calls db).run (exec dbms) schedule).run (exec dbms) [i]).shared =
        ((start env calls db).run (exec dbms) schedule).shared := hsame
    rw [hstep,hrow,Option.some.injEq] at hrow'
    exact .inl (by rw [hrow'])
  · have hid := Table.find?_key hrow
    have hmem := ((Table.find?_eq_some _ _ _).mp hrow).1
    refine status_commit hsound happly hrow hrow' fun hne => ?_
    exact hcond hcommit row hmem (by rw [hid]; exact hne)

def applicant : UserRow :=
  { root with userId := 2, username := "alice", role := .viewer, status := .pending }

def withApplicant : Database :=
  { rootDatabase with users := ⟨[root,applicant],by decide⟩ }

/-- The administrator approves and rejects the applicant in two requests. -/
def approveAndReject : Bool → Call
  | false => byRoot 10 (.approve 2 .viewer [])
  | true => byRoot 11 (.reject 2 none)

def statusOf (db : Database) (userId : UUID) : Option UserStatus :=
  (db.users.find? userId).map (·.status)

theorem status_history_legal_approval :
    ∃ row row', ((start plainEnv approveAndReject withApplicant).run (exec .lenient)
        (List.replicate 8 false)).shared.users.find? 2 = some row ∧
      ((start plainEnv approveAndReject withApplicant).run (exec .lenient)
        (List.replicate 8 false ++ [false])).shared.users.find? 2 = some row' ∧
      row.status = .pending ∧ row'.status = .active ∧
      (row'.status = row.status ∨ row'.status ∈ allowedTransitions row.status) :=
  ⟨_,_,rfl,rfl,rfl,rfl,status_history_legal plainEnv .lenient approveAndReject (by decide)
    withApplicant (List.replicate 8 false) false (by decide) 2 _ _ rfl rfl⟩

/-- Both read the pending status; the approval commits, then the rejection. -/
theorem rejected_after_approval :
    (∀ i, (approveAndReject i).request.isAccountRequest = true) ∧
    statusOf ((start plainEnv approveAndReject withApplicant).run (exec .lenient)
      (List.replicate 2 true ++ List.replicate 10 false ++ List.replicate 3 true)).shared 2 =
        some .active ∧
    statusOf ((start plainEnv approveAndReject withApplicant).run (exec .lenient)
      (List.replicate 2 true ++ List.replicate 10 false ++ List.replicate 3 true ++
        [true])).shared 2 = some .rejected ∧
    UserStatus.rejected ∉ allowedTransitions .active := by
  decide

end WzonePortal
