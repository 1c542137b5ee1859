import WzonePortal.AccountCommits

/-! The last active administrator under overlapping requests. The guard of a disabling or a
demotion is a count read before the write, so two administrators can remove each other; while
no such commit goes by a stale reading, an active administrator remains. -/
namespace WzonePortal

open ReadCommitted

def HasActiveAdmin (db : Database) : Prop :=
  ∃ r ∈ db.users.rows, Database.isActiveAdmin r = true

instance (db : Database) : Decidable (HasActiveAdmin db) :=
  inferInstanceAs (Decidable (∃ r ∈ db.users.rows, Database.isActiveAdmin r = true))

instance (tx : Transaction) (row : UserRow) : Decidable (tx.ReadAs row) :=
  inferInstanceAs (Decidable (∀ r ∈ tx.read, r.userId = row.userId →
    r.role = row.role ∧ r.status = row.status))

/-- A commit that ends somebody's being an active administrator goes by readings that still
hold: the role and status of that account, and at least the number of others counted. -/
def AdminUnstale {ι : Type} (i : ι) (sys : Requests ι) : Prop :=
  committing i sys = true → ∀ row ∈ sys.shared.users.rows, Database.isActiveAdmin row = true →
    Database.isActiveAdmin (patched row.userId (sys.processes i).state.pending row) = false →
    (sys.processes i).state.ReadAs row ∧ ∀ c ∈ (sys.processes i).state.counted,
      c.1 = some row.userId → c.2 ≤ sys.shared.countActiveAdmins (some row.userId)

instance {ι : Type} (i : ι) (sys : Requests ι) : Decidable (AdminUnstale i sys) :=
  inferInstanceAs (Decidable (_ → ∀ row ∈ sys.shared.users.rows, _ → _ → _ ∧
    ∀ c ∈ (sys.processes i).state.counted, _ → _))

section
variable {dbms : Dbms} {db db' : Database} {tx : Transaction} {userId : UUID}

theorem hasActiveAdmin_of_count {n : ℕ} (h : n ≠ 0)
    (hn : n ≤ db.countActiveAdmins (some userId)) :
    ∃ r ∈ db.users.rows, r.userId ≠ userId ∧ Database.isActiveAdmin r = true := by
  have hpos : 0 < db.countActiveAdmins (some userId) := by omega
  obtain ⟨r,hr⟩ := List.exists_mem_of_length_pos hpos
  simp only [List.mem_filter,Bool.and_eq_true,decide_eq_true_eq] at hr
  exact ⟨r,hr.1,fun he => hr.2.2 (by rw [he]),hr.2.1⟩

theorem hasActiveAdmin_of_kept (hown : ∀ w ∈ tx.pending, AccountWrite userId w)
    (happly : Write.applyAll dbms tx.pending db = .ok db') {r : UserRow} (hr : r ∈ db.users.rows)
    (h : Database.isActiveAdmin (patched r.userId tx.pending r) = true) : HasActiveAdmin db' := by
  have hfind := find?_applyAll hown happly r.userId
  rw [Table.find?_of_mem hr,Option.map_some] at hfind
  exact ⟨_,((Table.find?_eq_some _ _ _).mp hfind).1,h⟩

/-- A sound commit on unstale readings leaves an active administrator. -/
theorem hasActiveAdmin_commit (hsound : tx.Sound userId)
    (happly : Write.applyAll dbms tx.pending db = .ok db') (hadmin : HasActiveAdmin db)
    (hunstale : ∀ row ∈ db.users.rows, Database.isActiveAdmin row = true →
      Database.isActiveAdmin (patched row.userId tx.pending row) = false →
      tx.ReadAs row ∧ ∀ c ∈ tx.counted, c.1 = some row.userId →
        c.2 ≤ db.countActiveAdmins (some row.userId)) : HasActiveAdmin db' := by
  obtain ⟨row,hrow,hactive⟩ := hadmin
  by_cases hkept : Database.isActiveAdmin (patched row.userId tx.pending row) = true
  · exact hasActiveAdmin_of_kept hsound.own happly hrow hkept
  · have hlost : Database.isActiveAdmin (patched row.userId tx.pending row) = false := by
      simpa using hkept
    have hid : row.userId = userId := by
      by_contra hne
      rw [patched_of_ne hsound.own hne] at hkept
      exact hkept hactive
    subst hid
    obtain ⟨hread,hcount⟩ := hunstale row hrow hactive hlost
    obtain ⟨n,hn,hmem⟩ := hsound.guarded row rfl hread hactive hlost
    obtain ⟨other,hother,hne,hadmin⟩ := hasActiveAdmin_of_count hn (hcount _ hmem rfl)
    refine hasActiveAdmin_of_kept hsound.own happly hother ?_
    rw [patched_of_ne hsound.own hne]
    exact hadmin

end

/-- While no commit removes an active administrator on stale readings, one remains. -/
theorem active_admin_remains {ι : Type} [DecidableEq ι] (env : Env) (dbms : Dbms)
    (calls : ι → Call) (hkind : ∀ i, (calls i).request.isAccountRequest = true) (db : Database)
    (hadmin : HasActiveAdmin db) (schedule : List ι)
    (hunstale : (start env calls db).Along (exec dbms) AdminUnstale schedule) :
    HasActiveAdmin ((start env calls db).run (exec dbms) schedule).shared := by
  have hstart : (start env calls db).Behaved (exec dbms) Commits fun _ _ => True :=
    fun i => wp_handler (hkind i)
  have hrun := System.run_invariant (P := fun sys : Requests ι =>
    HasActiveAdmin sys.shared ∧ sys.Behaved (exec dbms) Commits fun _ _ => True) ?_
    ⟨hadmin,hstart⟩ hunstale
  · exact hrun.1
  · rintro i sys hcond ⟨h,hbehaved⟩
    refine ⟨?_,hbehaved.step i⟩
    rcases step_cases hbehaved i with hsame | ⟨hcommit,⟨userId,hsound⟩,happly⟩
    · rw [hsame]
      exact h
    · exact hasActiveAdmin_commit hsound happly h (hcond hcommit)

def backupAdmin : UserRow := { root with userId := 2, username := "backup" }

def twoAdmins : Database :=
  { rootDatabase with users := ⟨[root,backupAdmin],by decide⟩ }

def disableEachOther : Bool → Call
  | false => ⟨contextOf 1 0 10,.disable 2⟩
  | true => ⟨contextOf 2 0 10,.disable 1⟩

theorem active_admin_remains_one_after_other :
    HasActiveAdmin ((start plainEnv disableEachOther twoAdmins).run (exec .lenient)
      (List.replicate 8 false ++ List.replicate 8 true)).shared :=
  active_admin_remains plainEnv .lenient disableEachOther (by decide) twoAdmins (by decide) _
    (by decide)

/-- Both count the other one before either commits. -/
theorem admins_disable_each_other :
    HasActiveAdmin twoAdmins ∧ (∀ i, (disableEachOther i).request.isAccountRequest = true) ∧
    ¬ HasActiveAdmin ((start plainEnv disableEachOther twoAdmins).run (exec .lenient)
      (List.replicate 3 false ++ List.replicate 3 true ++ List.replicate 5 false ++
        List.replicate 5 true)).shared := by
  decide

end WzonePortal
