import WzonePortal.VmObservations

/-! Collecting the same batch a second time. Merging, encoding and decoding are at a fixed
point after the first time, so every machine counts as unchanged and its row differs only
in the moment it was last seen. -/
namespace WzonePortal
namespace VirtualMachineRepository

/-- Observing the machine once more writes the same columns into its row. -/
structure Settled (vm : VirtualMachine) (r : VirtualMachineRow) : Prop where
  key : r.key = vm.key
  columns : setColumns r (mergeGuest vm (some (rowToDomain r))) = r

/-- The rows of a store in which the given machines were seen again. -/
def seenAgain (keys : List (UUID × String)) (t : Timestamp) (r : VirtualMachineRow) :
    VirtualMachineRow :=
  if r.key ∈ keys then { r with lastSeenAt := t } else r

section
variable {db db' : Database} {vm : VirtualMachine} {uuid4 : ℕ → UUID} {c : UUID}
  {t : Timestamp} {s s' : UpsertState} {vms : List VirtualMachine} {r : VirtualMachineRow}
  {keys : List (UUID × String)}

theorem settled_newRow (id : UUID) (vm : VirtualMachine) (t : Timestamp) :
    Settled vm (newRow id vm t) := by
  refine ⟨rfl,?_⟩
  by_cases hg : vm.guest.isCollected = true <;>
    simp [setColumns,mergeGuest,GuestInfo.withFallback,hg,rowToDomain,newRow]

theorem settled_observed (vm : VirtualMachine) (t : Timestamp) (r : VirtualMachineRow) :
    Settled vm (observed vm t r) := by
  refine ⟨observed_key vm t r,?_⟩
  by_cases hg : vm.guest.isCollected = true <;>
    simp [observed,refreshed,setColumns,mergeGuest,GuestInfo.withFallback,hg,rowToDomain]

theorem Settled.seen (h : Settled vm r) (t : Timestamp) :
    Settled vm { r with lastSeenAt := t } := by
  refine ⟨h.key,?_⟩
  have hc := congrArg (fun q : VirtualMachineRow => { q with lastSeenAt := t }) h.columns
  simpa [setColumns,mergeGuest,rowToDomain] using hc

theorem Settled.seenAgain (h : Settled vm r) (keys : List (UUID × String)) (t : Timestamp) :
    Settled vm (seenAgain keys t r) := by
  unfold VirtualMachineRepository.seenAgain
  split
  · exact h.seen t
  · exact h

theorem observed_of_settled (h : Settled vm r) (t : Timestamp) :
    observed vm t r = { r with lastSeenAt := t } := by
  rw [observed,refreshed,h.columns]

theorem trackedDiffer_self (r : VirtualMachineRow) : trackedDiffer r r = false := by
  simp [trackedDiffer]

theorem seenAgain_seenAgain (k : UUID × String) (keys : List (UUID × String)) (t : Timestamp)
    (r : VirtualMachineRow) : seenAgain keys t (seenAgain [k] t r) = seenAgain (k::keys) t r := by
  by_cases hk : r.key = k <;> by_cases hm : r.key ∈ keys <;>
    simp_all [seenAgain,VirtualMachineRow.key]

theorem upsertOne_connection (h : StoreInvariant s.db)
    (hs : upsertOne uuid4 vm.connectionId t s vm = .ok s') :
    (s.db.connections.find? vm.connectionId).isSome := by
  rcases upsertOne_cases hs with hi | ⟨m,changed,hu⟩
  · obtain ⟨mid,hinsert,_⟩ := hi.stored
    obtain ⟨_,hcheck,_⟩ := bind_eq_ok.mp hinsert
    exact (checkRow_ok hcheck).2.2
  · obtain ⟨r,hr,hk,hid⟩ := hu.row h
    have hupdate := hu.updated
    rw [← hid,loadVm_of_mem hr,updateVm,Table.find?_of_mem hr] at hupdate
    obtain ⟨_,hcheck,_⟩ := bind_eq_ok.mp hupdate
    exact (checkRow_ok hcheck).2.2

theorem upsertOne_settled (h : StoreInvariant s.db)
    (hs : upsertOne uuid4 vm.connectionId t s vm = .ok s') :
    ∃ r ∈ s'.db.virtualMachines.rows, Settled vm r := by
  by_cases hm : ∃ r ∈ s.db.virtualMachines.rows, r.key = vm.key
  · obtain ⟨r,hr,hk⟩ := hm
    have hrows := (upsertOne_rows_of_mem h hr hk hs).1
    refine ⟨observed vm t r,?_,settled_observed vm t r⟩
    rw [hrows,List.mem_map]
    exact ⟨r,hr,if_pos hk⟩
  · have hrows := upsertOne_rows_of_not_mem h (fun r hr hk => hm ⟨r,hr,hk⟩) hs
    exact ⟨newRow (uuid4 s.drawn) vm t,by simp [hrows],settled_newRow _ vm t⟩

theorem upsertAll_settled (h : StoreInvariant s.db) (hc : ∀ vm ∈ vms, vm.connectionId = c)
    (hdistinct : (vms.map VirtualMachine.key).Nodup) (hs : upsertAll uuid4 c t vms s = .ok s') :
    ∀ vm ∈ vms, ∃ r ∈ s'.db.virtualMachines.rows, Settled vm r := by
  induction vms generalizing s with
  | nil => simp
  | cons vm vms ih =>
    obtain ⟨mid,hone,hrest⟩ := bind_eq_ok.mp hs
    rw [← hc vm List.mem_cons_self] at hone
    rw [List.map_cons,List.nodup_cons] at hdistinct
    have hu := (upsertOne_ok h hone).1
    have hvms := fun v hv => hc v (List.mem_cons_of_mem vm hv)
    have hu' := (upsertAll_ok hu.invariant hvms hrest).1
    intro v hv
    rcases List.mem_cons.mp hv with rfl | hv
    · obtain ⟨r,hr,hsettled⟩ := upsertOne_settled h hone
      refine ⟨r,(hu'.frame r ?_).mpr hr,hsettled⟩
      rw [hsettled.key]
      exact hdistinct.1
    · exact ih hu.invariant hvms hdistinct.2 hrest v hv

theorem upsertAll_connection (h : StoreInvariant s.db) (hc : ∀ vm ∈ vms, vm.connectionId = c)
    (hs : upsertAll uuid4 c t vms s = .ok s') (hne : vms ≠ []) :
    (s'.db.connections.find? c).isSome := by
  rw [(upsertAll_ok h hc hs).1.connections]
  cases vms with
  | nil => exact absurd rfl hne
  | cons vm vms =>
    obtain ⟨mid,hone,_⟩ := bind_eq_ok.mp hs
    rw [← hc vm List.mem_cons_self] at hone ⊢
    exact upsertOne_connection h hone

/-- A settled machine counts as unchanged, and only the moment it was last seen is written. -/
theorem upsertOne_of_settled (h : StoreInvariant s.db) (hr : r ∈ s.db.virtualMachines.rows)
    (hsettled : Settled vm r) (hs : upsertOne uuid4 vm.connectionId t s vm = .ok s') :
    s'.db.virtualMachines.rows = s.db.virtualMachines.rows.map (seenAgain [vm.key] t) ∧
      s'.result = { s.result with unchanged := s.result.unchanged+1 } := by
  obtain ⟨hrows,hresult⟩ := upsertOne_rows_of_mem h hr hsettled.key hs
  rw [hsettled.columns,trackedDiffer_self,if_neg (by simp)] at hresult
  refine ⟨?_,hresult⟩
  rw [hrows]
  apply List.map_congr_left
  intro q hq
  by_cases hk : q.key = vm.key
  · have hqr : q = r := h.unique q hq r hr (hk.trans hsettled.key.symm)
    subst hqr
    simp [seenAgain,hk,observed_of_settled hsettled]
  · simp [seenAgain,hk]

/-- A batch of settled machines, by induction over it. -/
theorem upsertAll_of_settled (uuid4 : ℕ → UUID) (t : Timestamp) (h : StoreInvariant s.db)
    (hc : ∀ vm ∈ vms, vm.connectionId = c)
    (hconn : vms ≠ [] → (s.db.connections.find? c).isSome)
    (hstorable : ∀ vm ∈ vms, vm.storable = true)
    (hsettled : ∀ vm ∈ vms, ∃ r ∈ s.db.virtualMachines.rows, Settled vm r) :
    ∃ s', upsertAll uuid4 c t vms s = .ok s' ∧
      s'.result = { s.result with unchanged := s.result.unchanged+vms.length } ∧
      s'.db.virtualMachines.rows =
        s.db.virtualMachines.rows.map (seenAgain (vms.map VirtualMachine.key) t) := by
  induction vms generalizing s with
  | nil =>
    refine ⟨s,rfl,rfl,?_⟩
    have hid : seenAgain ([].map VirtualMachine.key) t = id := by
      funext r
      simp [seenAgain]
    rw [hid,List.map_id]
  | cons vm vms ih =>
    have hvm := hc vm List.mem_cons_self
    subst hvm
    obtain ⟨r,hr,hone⟩ := hsettled vm List.mem_cons_self
    obtain ⟨mid,hmid⟩ := upsertOne_isOk_of_mem uuid4 t h (hconn (by simp)) hr hone.key
      (hstorable vm List.mem_cons_self)
    obtain ⟨hrows,hresult⟩ := upsertOne_of_settled h hr hone hmid
    have hu := (upsertOne_ok h hmid).1
    obtain ⟨s',hs,hresult',hrows'⟩ := ih hu.invariant
      (fun v hv => hc v (List.mem_cons_of_mem _ hv))
      (fun _ => by rw [hu.connections]; exact hconn (by simp))
      (fun v hv => hstorable v (List.mem_cons_of_mem _ hv))
      (fun v hv => by
        obtain ⟨q,hq,hqs⟩ := hsettled v (List.mem_cons_of_mem _ hv)
        refine ⟨seenAgain [vm.key] t q,?_,hqs.seenAgain _ t⟩
        rw [hrows]
        exact List.mem_map_of_mem hq)
    refine ⟨s',by rw [upsertAll,hmid]; exact hs,?_,?_⟩
    · rw [hresult',hresult,List.length_cons]
      simp only [UpsertResult.mk.injEq,true_and]
      omega
    · rw [hrows',hrows,List.map_map]
      apply List.map_congr_left
      intro q _
      exact seenAgain_seenAgain vm.key _ t q

/-- In every store that collections on an empty store reach, storing a batch of distinct
machines twice leaves the second call nothing to do but to write when they were last seen. -/
theorem recollecting_same_batch (start : Database) (hvms : start.virtualMachines.rows = [])
    (hids : start.resourceIdentities.rows = []) (before : List UpsertCall)
    (hcarried : ∀ call ∈ before, call.Carried) (db : Database)
    (hbefore : runCalls before start = .ok db) (first second : UpsertCall)
    (hbatch : second.vms = first.vms) (hconnection : second.connectionId = first.connectionId)
    (hfirst : first.Carried) (hdistinct : (first.vms.map (·.nativeId)).Nodup)
    (hstorable : ∀ vm ∈ first.vms, vm.storable = true) :
    (∀ result db1, first.run db = .ok (result,db1) →
      ∃ db2, second.run db1 = .ok (⟨0,0,first.vms.length⟩,db2) ∧
        db2.virtualMachines.rows = db1.virtualMachines.rows.map fun r =>
          if r.key ∈ first.keys then { r with lastSeenAt := second.observedAt } else r) ∧
    ((start.connections.find? first.connectionId).isSome →
      Set.InjOn first.uuid4 (Set.Iio first.vms.length) →
      (∀ n < first.vms.length, ∀ r ∈ db.virtualMachines.rows, r.resourceId ≠ first.uuid4 n) →
      ∃ result db1, first.run db = .ok (result,db1)) := by
  have hdb := runCalls_ok (StoreInvariant.of_empty hvms hids) hcarried hbefore
  refine ⟨fun result db1 hrun => ?_,fun hconn hinj hfresh => ?_⟩
  · obtain ⟨s,hs,he⟩ := bind_eq_ok.mp hrun
    cases he
    have hkeys : (first.vms.map VirtualMachine.key).Nodup := by
      apply List.Nodup.of_map Prod.snd
      rw [List.map_map]
      exact hdistinct
    have hu := (upsertAll_ok hdb.invariant hfirst hs).1
    have hsettled := upsertAll_settled hdb.invariant hfirst hkeys hs
    have hconn := upsertAll_connection hdb.invariant hfirst hs
    obtain ⟨s',hs',hresult,hrows⟩ := upsertAll_of_settled second.uuid4
      second.observedAt (s := ⟨s.db,0,⟨0,0,0⟩⟩) hu.invariant hfirst hconn
      hstorable hsettled
    refine ⟨s'.db,?_,hrows⟩
    have hcounts : s'.result = ⟨0,0,first.vms.length⟩ := by simpa using hresult
    rw [UpsertCall.run,hbatch,hconnection,upsertVirtualMachines,hs']
    exact congrArg (fun result => Except.ok (result,s'.db)) hcounts
  · exact UpsertCall.run_isOk hdb.invariant hfirst hstorable
      (by rw [hdb.connections]; exact hconn) hinj hfresh

/-- A batch after `toolsStopped`: `vm-1` with its tools running again, and two new machines. -/
def threeMachines : UpsertCall where
  uuid4 := fun n => BitVec.ofNat 128 (n+200)
  connectionId := 7
  vms := [⟨0,7,"vm-1","web",.active,none,none,none,.on,.connected,⟨4,none,none⟩,⟨8192⟩,{},
      { availability := .available, osName := some "linux 6", osSource := some .guestTools,
        hostname := some "web", observedAt := some 1900 },some "host-1"⟩,
    ⟨0,7,"vm-2","db",.active,none,none,some "4210-77",.off,.connected,⟨2,none,none⟩,⟨2048⟩,{},
      { availability := .toolsNotRunning },none⟩,
    ⟨0,7,"vm-3","mail",.active,none,none,none,.suspended,.disconnected,⟨1,none,none⟩,⟨1024⟩,{},
      { availability := .unknown },none⟩]
  observedAt := 2000

theorem recollecting_same_batch_stopped : ∃ db result db1 db2,
    runCalls [toolsStopped] emptyStore = .ok db ∧ threeMachines.run db = .ok (result,db1) ∧
      { threeMachines with observedAt := 3000 }.run db1 = .ok (⟨0,0,3⟩,db2) ∧
      db2.virtualMachines.rows = db1.virtualMachines.rows.map fun r =>
        if r.key ∈ threeMachines.keys then { r with lastSeenAt := 3000 } else r := by
  have hstored : (runCalls [toolsStopped] emptyStore).toOption.any (fun db =>
      db.virtualMachines.rows.map (·.resourceId) = [BitVec.ofNat 128 100]) = true := by decide +kernel
  obtain ⟨db,hdb,hrows⟩ := Option.any_eq_true _ _ |>.mp hstored
  have hbefore : runCalls [toolsStopped] emptyStore = .ok db := by
    cases h : runCalls [toolsStopped] emptyStore with
    | error e => simp [h,Except.toOption] at hdb
    | ok db' => simpa [h,Except.toOption] using hdb
  have hcarried : threeMachines.Carried := by
    intro vm hm
    simp only [threeMachines,List.mem_cons,List.not_mem_nil,or_false] at hm ⊢
    rcases hm with rfl | rfl | rfl <;> rfl
  obtain ⟨hagain,hruns⟩ := recollecting_same_batch emptyStore rfl rfl [toolsStopped]
    (fun call hc => by rw [List.mem_singleton.mp hc]; exact toolsStopped_carried) db hbefore
    threeMachines { threeMachines with observedAt := 3000 } rfl rfl hcarried (by decide) (by decide)
  obtain ⟨result,db1,hrun⟩ := hruns (by decide) (fun m hm n hn he => by
    simp only [threeMachines,List.length_cons,List.length_nil,Set.mem_Iio] at hm hn he
    have hv := congrArg BitVec.toNat he
    simp only [BitVec.toNat_ofNat] at hv
    omega) (fun n hn r hr he => by
    have hid : r.resourceId = BitVec.ofNat 128 100 := by
      have hmem := List.mem_map_of_mem (f := (·.resourceId)) hr
      rw [of_decide_eq_true hrows] at hmem
      exact List.mem_singleton.mp hmem
    simp only [threeMachines,List.length_cons,List.length_nil] at hn he
    have hv := congrArg BitVec.toNat (hid.symm.trans he)
    simp only [BitVec.toNat_ofNat] at hv
    omega)
  obtain ⟨db2,hsecond,hrows2⟩ := hagain result db1 hrun
  exact ⟨db,result,db1,db2,hbefore,hrun,hsecond,hrows2⟩

end
end VirtualMachineRepository
end WzonePortal
