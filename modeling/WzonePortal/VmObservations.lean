import WzonePortal.VmUpsertHistory

/-! What observations of one machine leave in its row. A machine that has a row is written
over it after the guest values were merged; the values of an observation without guest
tools therefore never replace retained ones, over any batches and calls. -/
namespace WzonePortal
namespace VirtualMachineRepository

def observed (vm : VirtualMachine) (t : Timestamp) (r : VirtualMachineRow) : VirtualMachineRow :=
  refreshed (mergeGuest vm (some (rowToDomain r))) t r

section
variable {db db' : Database} {vm : VirtualMachine} {uuid4 : ℕ → UUID} {c : UUID} {t : Timestamp}
  {s s' : UpsertState} {vms : List VirtualMachine} {r : VirtualMachineRow} {k : UUID × String}

@[simp] theorem observed_key (vm : VirtualMachine) (t : Timestamp) (r : VirtualMachineRow) :
    (observed vm t r).key = vm.key := by
  rw [observed,refreshed_key,mergeGuest_key]

@[simp] theorem observed_resourceId (vm : VirtualMachine) (t : Timestamp)
    (r : VirtualMachineRow) : (observed vm t r).resourceId = r.resourceId := rfl

theorem loadVm_of_mem (hr : r ∈ db.virtualMachines.rows) :
    loadVm db r.resourceId = some (rowToDomain r) := by
  rw [loadVm,Table.find?_of_mem hr,Option.map_some]

theorem StoreInvariant.key_iff (h : StoreInvariant db) (hr : r ∈ db.virtualMachines.rows)
    {q : VirtualMachineRow} (hq : q ∈ db.virtualMachines.rows) :
    q.key = r.key ↔ q.resourceId = r.resourceId := by
  constructor
  · intro hk
    rw [h.unique q hq r hr hk]
  · intro hid
    rw [db.virtualMachines.eq_of_key_eq hq hr hid]

theorem upsertOne_rows_of_not_mem (h : StoreInvariant s.db)
    (hnew : ∀ r ∈ s.db.virtualMachines.rows, r.key ≠ vm.key)
    (hs : upsertOne uuid4 c t s vm = .ok s') :
    s'.db.virtualMachines.rows = s.db.virtualMachines.rows ++ [newRow (uuid4 s.drawn) vm t] := by
  rcases upsertOne_cases hs with hi | ⟨m,changed,hu⟩
  · obtain ⟨mid,hinsert,hsync⟩ := hi.stored
    obtain ⟨_,_,_,hrows,_⟩ := insertVm_ok hinsert
    rw [(syncIdentities_ok hsync).1,hrows]
  · obtain ⟨r,hr,hk,_⟩ := hu.row h
    exact absurd hk (hnew r hr)

theorem upsertOne_rows_of_mem (h : StoreInvariant s.db) (hr : r ∈ s.db.virtualMachines.rows)
    (hk : r.key = vm.key) (hs : upsertOne uuid4 c t s vm = .ok s') :
    s'.db.virtualMachines.rows =
        (s.db.virtualMachines.rows.map fun q => if q.key = vm.key then observed vm t q else q) ∧
      s'.result = if trackedDiffer r (setColumns r (mergeGuest vm (some (rowToDomain r))))
        then { s.result with updated := s.result.updated+1 }
        else { s.result with unchanged := s.result.unchanged+1 } := by
  rcases upsertOne_cases hs with hi | ⟨m,changed,hu⟩
  · exact absurd hk (hi.absent h r hr)
  · obtain ⟨p,hp,hpk,hid⟩ := hu.row h
    have hpr : p = r := h.unique p hp r hr (hpk.trans hk.symm)
    subst hpr
    have hupdate := hu.updated
    rw [← hid,loadVm_of_mem hr,updateVm,Table.find?_of_mem hr] at hupdate
    obtain ⟨_,_,hupdate⟩ := bind_eq_ok.mp hupdate
    cases hupdate
    refine ⟨?_,hu.result⟩
    rw [(syncIdentities_ok hu.stored).1]
    apply List.map_congr_left
    intro q hq
    have hiff := h.key_iff hr hq
    rw [hk] at hiff
    by_cases hqk : q.key = vm.key
    · have hqp : q = p := h.unique q hq p hr (hqk.trans hk.symm)
      subst hqp
      simp [hk,observed]
    · rw [if_neg hqk,if_neg (by simpa using mt hiff.mpr hqk)]

end

/-- The observation whose guest values are kept: the most recent one with guest tools, else
the first one. -/
def retainedFrom (first : VirtualMachine) (rest : List VirtualMachine) : VirtualMachine :=
  ((first::rest).filter fun vm => vm.guest.availability = .available).getLast?.getD first

/-- The guest values of a row are those of an observation. -/
structure Retains (r : VirtualMachineRow) (vm : VirtualMachine) : Prop where
  osName : r.guestOsName = vm.guest.osName
  osSource : r.guestOsSource = vm.guest.osSource
  hostname : r.guestHostname = vm.guest.hostname
  observedAt : r.guestObservedAt = vm.guest.observedAt

/-- What the store shows of a machine after the given observations of it. -/
def Shows (db : Database) (k : UUID × String) : List VirtualMachine → Prop
  | [] => ∀ r ∈ db.virtualMachines.rows, r.key ≠ k
  | first::rest => ∃ r ∈ db.virtualMachines.rows, r.key = k ∧
      Retains r (retainedFrom first rest) ∧
      r.guestAvailability = (rest.getLast?.getD first).guest.availability

/-- The observations of one machine in a sequence of calls, oldest first. -/
def observations (calls : List UpsertCall) (k : UUID × String) : List VirtualMachine :=
  calls.flatMap fun call => call.vms.filter fun vm => vm.key = k

section
variable {db db' : Database} {vm first : VirtualMachine} {rest : List VirtualMachine}
  {uuid4 : ℕ → UUID} {c : UUID} {t : Timestamp} {s s' : UpsertState} {vms seen : List VirtualMachine}
  {r : VirtualMachineRow} {k : UUID × String} {calls : List UpsertCall}

theorem retainedFrom_append (first vm : VirtualMachine) (rest : List VirtualMachine) :
    retainedFrom first (rest ++ [vm]) =
      if vm.guest.availability = .available then vm else retainedFrom first rest := by
  rw [retainedFrom,← List.cons_append,List.filter_append]
  by_cases hg : vm.guest.availability = .available
  · simp [hg]
  · simp [hg,retainedFrom]

theorem retains_newRow (id : UUID) (vm : VirtualMachine) (t : Timestamp) :
    Retains (newRow id vm t) vm := ⟨rfl,rfl,rfl,rfl⟩

theorem observed_availability (vm : VirtualMachine) (t : Timestamp) (r : VirtualMachineRow) :
    (observed vm t r).guestAvailability = vm.guest.availability := by
  simp [observed,refreshed,setColumns,mergeGuest]

theorem retains_observed_self (hg : vm.guest.availability = .available) :
    Retains (observed vm t r) vm := by
  have hm : mergeGuest vm (some (rowToDomain r)) = vm := by
    simp [mergeGuest,GuestInfo.withFallback,GuestInfo.isCollected,hg]
  rw [observed,hm]
  exact ⟨rfl,rfl,rfl,rfl⟩

theorem Retains.observed {o : VirtualMachine} (h : Retains r o)
    (hg : vm.guest.availability ≠ .available) : Retains (observed vm t r) o := by
  have hm : (mergeGuest vm (some (rowToDomain r))).guest =
      { (rowToDomain r).guest with availability := vm.guest.availability } := by
    simp [mergeGuest,GuestInfo.withFallback,GuestInfo.isCollected,hg,rowToDomain]
  refine ⟨?_,?_,?_,?_⟩
  · simp only [VirtualMachineRepository.observed,refreshed,setColumns,hm]
    exact h.osName
  · simp only [VirtualMachineRepository.observed,refreshed,setColumns,hm]
    exact h.osSource
  · simp only [VirtualMachineRepository.observed,refreshed,setColumns,hm]
    exact h.hostname
  · simp only [VirtualMachineRepository.observed,refreshed,setColumns,hm]
    exact h.observedAt

/-- One more observation of the machine, whether it has a row or not. -/
theorem Shows.step (h : StoreInvariant s.db) (hshows : Shows s.db vm.key seen)
    (hs : upsertOne uuid4 vm.connectionId t s vm = .ok s') :
    Shows s'.db vm.key (seen ++ [vm]) := by
  cases seen with
  | nil =>
    have hrows := upsertOne_rows_of_not_mem h hshows hs
    have hretained : retainedFrom vm [] = vm := by
      by_cases hg : vm.guest.availability = .available <;> simp [retainedFrom,hg]
    refine ⟨newRow (uuid4 s.drawn) vm t,by simp [hrows],newRow_key _ _ _,?_,rfl⟩
    rw [hretained]
    exact retains_newRow _ vm t
  | cons first rest =>
    obtain ⟨r,hr,hk,hretains,_⟩ := hshows
    have hrows := (upsertOne_rows_of_mem h hr hk hs).1
    rw [List.cons_append]
    refine ⟨observed vm t r,?_,observed_key _ _ _,?_,?_⟩
    · rw [hrows,List.mem_map]
      exact ⟨r,hr,if_pos hk⟩
    · rw [retainedFrom_append]
      by_cases hg : vm.guest.availability = .available
      · rw [if_pos hg]
        exact retains_observed_self hg
      · rw [if_neg hg]
        exact hretains.observed hg
    · rw [observed_availability]
      simp

theorem Shows.frame (hshows : Shows db k seen)
    (h : ∀ r, r.key = k → (r ∈ db'.virtualMachines.rows ↔ r ∈ db.virtualMachines.rows)) :
    Shows db' k seen := by
  cases seen with
  | nil => exact fun r hr hk => hshows r ((h r hk).mp hr) hk
  | cons first rest =>
    obtain ⟨r,hr,hk,hretains⟩ := hshows
    exact ⟨r,(h r hk).mpr hr,hk,hretains⟩

theorem Shows.upsertAll (h : StoreInvariant s.db) (hc : ∀ vm ∈ vms, vm.connectionId = c)
    (hshows : Shows s.db k seen) (hs : upsertAll uuid4 c t vms s = .ok s') :
    Shows s'.db k (seen ++ vms.filter fun vm => vm.key = k) := by
  induction vms generalizing s seen with
  | nil =>
    cases hs
    simpa using hshows
  | cons vm vms ih =>
    obtain ⟨mid,hone,hrest⟩ := bind_eq_ok.mp hs
    rw [← hc vm List.mem_cons_self] at hone
    have hu := (upsertOne_ok h hone).1
    have hvms := fun v hv => hc v (List.mem_cons_of_mem vm hv)
    by_cases hk : vm.key = k
    · subst hk
      have hmid := ih hu.invariant hvms (hshows.step h hone) hrest
      simpa using hmid
    · have hmid := ih hu.invariant hvms (hshows.frame fun r hr => hu.frame r (by
        rw [hr,List.mem_singleton]
        exact fun he => hk he.symm)) hrest
      simpa [hk] using hmid

/-- Any number of calls, by induction over them. -/
theorem Shows.runCalls (h : StoreInvariant db) (hc : ∀ call ∈ calls, call.Carried)
    (hshows : Shows db k seen) (hr : runCalls calls db = .ok db') :
    Shows db' k (seen ++ observations calls k) := by
  induction calls generalizing db seen with
  | nil =>
    cases hr
    simpa [observations] using hshows
  | cons call calls ih =>
    obtain ⟨after,hone,hrest⟩ := bind_eq_ok.mp hr
    obtain ⟨s,hs,he⟩ := bind_eq_ok.mp hone
    cases he
    have hcall := hc call List.mem_cons_self
    have hmid := ih (upsertAll_ok h hcall hs).1.invariant
      (fun c hm => hc c (List.mem_cons_of_mem _ hm)) (hshows.upsertAll h hcall hs) hrest
    simpa [observations] using hmid

/-- After any sequence of stored collections on an empty store, the row of a machine that was
observed at least once shows the guest values of its most recent observation with guest
tools, else of its first one, and the availability of its last one. -/
theorem guest_values_retained (start : Database) (hvms : start.virtualMachines.rows = [])
    (hids : start.resourceIdentities.rows = []) (calls : List UpsertCall)
    (hcarried : ∀ call ∈ calls, call.Carried) (db : Database)
    (hrun : VirtualMachineRepository.runCalls calls start = .ok db) (k : UUID × String)
    (first : VirtualMachine) (rest : List VirtualMachine)
    (hobserved : observations calls k = first::rest) :
    ∃ r, (∀ q, q ∈ db.virtualMachines.rows ∧ q.key = k ↔ q = r) ∧
      r.guestOsName = (retainedFrom first rest).guest.osName ∧
      r.guestOsSource = (retainedFrom first rest).guest.osSource ∧
      r.guestHostname = (retainedFrom first rest).guest.hostname ∧
      r.guestObservedAt = (retainedFrom first rest).guest.observedAt ∧
      r.guestAvailability =
        ((first::rest).getLast (List.cons_ne_nil first rest)).guest.availability := by
  have hstart := StoreInvariant.of_empty hvms hids
  have hnone : Shows start k [] := by simp [Shows,hvms]
  have hshows := hnone.runCalls hstart hcarried hrun
  rw [List.nil_append,hobserved] at hshows
  obtain ⟨r,hr,hk,hretains,havailable⟩ := hshows
  have hinv := (runCalls_ok hstart hcarried hrun).invariant
  refine ⟨r,fun q => ⟨?_,?_⟩,hretains.osName,hretains.osSource,hretains.hostname,
    hretains.observedAt,?_⟩
  · rintro ⟨hq,hqk⟩
    exact hinv.unique q hq r hr (hqk.trans hk.symm)
  · rintro rfl
    exact ⟨hr,hk⟩
  · rw [havailable,List.getLast_eq_getLastD,← List.getLastD_eq_getLast?]

end

/-- The machine `vm-1` with its guest tools running, and again after they were stopped. -/
def toolsStopped : UpsertCall where
  uuid4 := twiceNamed.uuid4
  connectionId := 7
  vms := [⟨0,7,"vm-1","web",.active,none,none,none,.on,.connected,⟨2,none,none⟩,⟨4096⟩,{},
      { availability := .available, osName := some "linux", osSource := some .guestTools,
        hostname := some "web", observedAt := some 900 },none⟩,
    ⟨0,7,"vm-1","web",.active,none,none,none,.on,.connected,⟨2,none,none⟩,⟨4096⟩,{},
      { availability := .toolsNotRunning },none⟩]
  observedAt := 1000

theorem toolsStopped_carried : toolsStopped.Carried := by
  intro vm hm
  simp only [toolsStopped,List.mem_cons,List.not_mem_nil,or_false] at hm ⊢
  rcases hm with rfl | rfl <;> rfl

theorem run_emptyStore_isOk {call : UpsertCall} (hc : call.Carried)
    (hs : ∀ vm ∈ call.vms, vm.storable = true) (hu : call.uuid4 = twiceNamed.uuid4)
    (hconn : call.connectionId = 7) (hlen : call.vms.length < 1000) :
    ∃ result db, call.run emptyStore = .ok (result,db) := by
  apply UpsertCall.run_isOk (StoreInvariant.of_empty rfl rfl) hc hs
  · rw [hconn]
    rfl
  · intro m hm n hn he
    simp only [Set.mem_Iio] at hm hn
    have hv := congrArg BitVec.toNat he
    simp only [hu,twiceNamed,BitVec.toNat_ofNat] at hv
    omega
  · intro n _ r hr
    cases hr

theorem guest_values_retained_stopped : ∃ db, runCalls [toolsStopped] emptyStore = .ok db ∧
    ∃ r ∈ db.virtualMachines.rows, r.guestOsName = some "linux" ∧ r.guestObservedAt = some 900 ∧
      r.guestAvailability = .toolsNotRunning := by
  obtain ⟨result,db,hrun⟩ := run_emptyStore_isOk toolsStopped_carried (by decide) rfl rfl
    (by decide)
  have hcalls : runCalls [toolsStopped] emptyStore = .ok db := by
    rw [runCalls,hrun]
    rfl
  have hcarried : ∀ call ∈ [toolsStopped], call.Carried := by
    intro call hc
    rw [List.mem_singleton] at hc
    subst hc
    exact toolsStopped_carried
  obtain ⟨r,hr,hos,_,_,hat,havailable⟩ := guest_values_retained emptyStore rfl rfl [toolsStopped]
    hcarried db hcalls (7,"vm-1") _ _ rfl
  exact ⟨db,hcalls,r,((hr r).mpr rfl).1,hos.trans (by decide),hat.trans (by decide),havailable⟩

end VirtualMachineRepository
end WzonePortal
