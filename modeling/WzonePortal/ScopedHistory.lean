import WzonePortal.ConnectionDelete
import WzonePortal.InventoryRoute
import WzonePortal.Recollection
import WzonePortal.TwoRuns

/-! What a restricted caller can learn from a whole history. The collections of connections
outside a set are left out of the history; machines and identity rows of these connections are
all that the two ends differ in, so a caller with a scope inside the set is answered alike. -/
namespace WzonePortal

open VirtualMachineRepository

def Database.withMachines (db : Database) (machines : Table VirtualMachineRow.resourceId)
    (identities : Table ResourceIdentityRow.key) : Database :=
  { db with virtualMachines := machines, resourceIdentities := identities }

section
variable (db : Database) (machines : Table VirtualMachineRow.resourceId)
  (identities : Table ResourceIdentityRow.key)

@[simp] theorem withMachines_users : (db.withMachines machines identities).users = db.users := rfl

@[simp] theorem withMachines_connections :
    (db.withMachines machines identities).connections = db.connections := rfl

@[simp] theorem withMachines_userConnectionScopes :
    (db.withMachines machines identities).userConnectionScopes = db.userConnectionScopes := rfl

@[simp] theorem withMachines_virtualMachines :
    (db.withMachines machines identities).virtualMachines = machines := rfl

end

/-- The databases differ in machines of connections outside `S` and identity rows only. -/
structure SameFor (S : Finset UUID) (db db' : Database) : Prop where
  others : db' = db.withMachines db'.virtualMachines db'.resourceIdentities
  machines : ∀ r : VirtualMachineRow, r.connectionId ∈ S →
    (r ∈ db.virtualMachines.rows ↔ r ∈ db'.virtualMachines.rows)
  left : StoreInvariant db
  right : StoreInvariant db'

section
variable {S : Finset UUID} {db db' : Database} {vm : VirtualMachine} {uuid4 : ℕ → UUID}
  {c : UUID} {t : Timestamp} {s s' u u' : UpsertState} {vms : List VirtualMachine} {bound : ℕ}

theorem SameFor.refl (h : StoreInvariant db) : SameFor S db db := ⟨rfl,fun _ _ => Iff.rfl,h,h⟩

theorem SameFor.symm (h : SameFor S db db') : SameFor S db' db := by
  refine ⟨?_,fun r hr => (h.machines r hr).symm,h.right,h.left⟩
  conv_rhs => rw [h.others]
  rfl

theorem SameFor.trans {mid : Database} (h : SameFor S db mid) (h' : SameFor S mid db') :
    SameFor S db db' := by
  refine ⟨?_,fun r hr => (h.machines r hr).trans (h'.machines r hr),h.left,h'.right⟩
  conv_lhs => rw [h'.others,h.others]
  rfl

theorem SameFor.connections (h : SameFor S db db') : db'.connections = db.connections := by
  rw [h.others]
  rfl

theorem SameFor.agreeOn (h : SameFor S db db') : AgreeOn S db db' :=
  ⟨h.machines,fun c _ => by rw [h.connections]⟩

/-! A batch writes machines and identity rows only. -/

theorem insertVm_others {id : UUID} (h : insertVm db id vm t = .ok db') :
    db' = db.withMachines db'.virtualMachines db'.resourceIdentities := by
  obtain ⟨_,_,h⟩ := bind_eq_ok.mp h
  split at h
  · cases h
  · cases h
    rfl

theorem updateVm_others {id : UUID} {changed : Bool × Database}
    (h : updateVm db id vm t = .ok changed) :
    changed.2 = db.withMachines changed.2.virtualMachines changed.2.resourceIdentities := by
  unfold updateVm at h
  split at h
  · cases h
    rfl
  · obtain ⟨_,_,h⟩ := bind_eq_ok.mp h
    cases h
    rfl

theorem syncIdentities_others {id : UUID} {keys : List IdentityKey}
    (h : syncIdentities db id keys c = .ok db') :
    db' = db.withMachines db'.virtualMachines db'.resourceIdentities := by
  unfold syncIdentities at h
  split at h
  · cases h
  · simp only at h
    split at h
    · cases h
    · cases h
      rfl

theorem withMachines_trans {mid : Database}
    (h : mid = db.withMachines mid.virtualMachines mid.resourceIdentities)
    (h' : db' = mid.withMachines db'.virtualMachines db'.resourceIdentities) :
    db' = db.withMachines db'.virtualMachines db'.resourceIdentities := by
  conv_lhs => rw [h',h]
  rfl

theorem upsertOne_others (h : upsertOne uuid4 c t s vm = .ok s') :
    s'.db = s.db.withMachines s'.db.virtualMachines s'.db.resourceIdentities := by
  rcases upsertOne_cases h with hi | ⟨m,changed,hu⟩
  · obtain ⟨mid,hinsert,hsync⟩ := hi.stored
    exact withMachines_trans (insertVm_others hinsert) (syncIdentities_others hsync)
  · exact withMachines_trans (updateVm_others hu.updated) (syncIdentities_others hu.stored)

theorem upsertAll_others (h : upsertAll uuid4 c t vms s = .ok s') :
    s'.db = s.db.withMachines s'.db.virtualMachines s'.db.resourceIdentities := by
  induction vms generalizing s with
  | nil =>
    cases h
    rfl
  | cons vm vms ih =>
    obtain ⟨mid,hone,hrest⟩ := bind_eq_ok.mp h
    exact withMachines_trans (upsertOne_others hone) (ih hrest)

theorem SameFor.hidden {call : UpsertCall} {result : UpsertResult} (h : StoreInvariant db)
    (hcarried : call.Carried) (hout : call.connectionId ∉ S)
    (hrun : call.run db = .ok (result,db')) : SameFor S db db' := by
  have hu := (UpsertCall.run_ok h hcarried hrun).1
  obtain ⟨u,hall,he⟩ := bind_eq_ok.mp hrun
  cases he
  refine ⟨upsertAll_others hall,fun r hr => (hu.frame r ?_).symm,h,hu.invariant⟩
  intro hk
  obtain ⟨vm,hvm,hkey⟩ := List.mem_map.mp hk
  have hc : vm.connectionId = r.connectionId := congrArg Prod.fst hkey
  rw [← hc,hcarried vm hvm] at hr
  exact hout hr

/-! A batch of a connection of the set, on two databases that are the same for the set. -/

/-- The two working copies of one batch; the identifiers that it may still draw are new in both. -/
structure Paired (S : Finset UUID) (uuid4 : ℕ → UUID) (bound : ℕ) (s s' : UpsertState) :
    Prop where
  same : SameFor S s.db s'.db
  drawn : s'.drawn = s.drawn
  fresh : ∀ n, s.drawn ≤ n → n < bound → ∀ r,
    r ∈ s.db.virtualMachines.rows ∨ r ∈ s'.db.virtualMachines.rows → r.resourceId ≠ uuid4 n

theorem Paired.symm (h : Paired S uuid4 bound s s') : Paired S uuid4 bound s' s :=
  ⟨h.same.symm,h.drawn.symm,fun n hn hb r hr => h.fresh n (h.drawn ▸ hn) hb r hr.symm⟩

theorem SameFor.row (h : SameFor S db db') (hc : vm.connectionId ∈ S) {r : VirtualMachineRow}
    (hk : r.key = vm.key) (hr : r ∈ db.virtualMachines.rows) : r ∈ db'.virtualMachines.rows := by
  have hid : r.connectionId = vm.connectionId := congrArg Prod.fst hk
  exact (h.machines r (hid ▸ hc)).mp hr

theorem keys_storable {found : Option IdentityMatch}
    (h : findByIdentity db (buildVmIdentityKeys vm) = .ok found) :
    ∀ key ∈ buildVmIdentityKeys vm, storable key.value = true := by
  intro key hkey
  rw [findByIdentity_eq,findFirst] at h
  split at h
  · cases h
  · rename_i hstorable
    rw [List.mem_singleton.mp hkey]
    simpa using hstorable

theorem upsertOne_transfer (h : SameFor S s.db s'.db) (hdrawn : s'.drawn = s.drawn)
    (hc : vm.connectionId ∈ S)
    (hfresh : ∀ r ∈ s'.db.virtualMachines.rows, r.resourceId ≠ uuid4 s.drawn)
    (hs : upsertOne uuid4 vm.connectionId t s vm = .ok u) :
    ∃ u', upsertOne uuid4 vm.connectionId t s' vm = .ok u' := by
  have hconn : (s'.db.connections.find? vm.connectionId).isSome := by
    rw [h.connections]
    exact upsertOne_connection h.left hs
  rcases upsertOne_cases hs with hi | ⟨m,changed,hu⟩
  · have hkeys := keys_storable hi.missing
    have hnew : ∀ r ∈ s'.db.virtualMachines.rows, r.key ≠ vm.key :=
      fun r hr hk => hi.absent h.left r (h.symm.row hc hk hr) hk
    obtain ⟨mid,hinsert,_⟩ := hi.stored
    have hstorable := (insertVm_ok hinsert).2.1
    obtain ⟨found,hfound⟩ := findByIdentity_isOk s'.db hkeys
    have hnone := findByIdentity_of_not_mem h.right hnew hfound
    subst hnone
    rw [← hdrawn] at hfresh
    obtain ⟨mid',hmid⟩ := insertVm_isOk (t := t) hconn hnew hstorable hfresh
    obtain ⟨db,hsync⟩ := syncIdentities_isOk mid' hkeys (uuid4 s'.drawn) vm.connectionId
    exact ⟨_,bind_eq_ok.mpr ⟨_,hfound,bind_eq_ok.mpr ⟨_,hmid,bind_eq_ok.mpr ⟨_,hsync,rfl⟩⟩⟩⟩
  · have hkeys := keys_storable hu.found
    obtain ⟨r,hr,hk,hid⟩ := hu.row h.left
    have hr' := h.row hc hk hr
    have hupdate := hu.updated
    rw [← hid,loadVm_of_mem hr] at hupdate
    have hstorable := (updateVm_ok hr hupdate).1
    obtain ⟨found,hfound⟩ := findByIdentity_isOk s'.db hkeys
    obtain ⟨m',rfl,hid'⟩ := findByIdentity_of_mem h.right hr' hk hfound
    obtain ⟨changed',hchanged⟩ := updateVm_isOk h.right hconn hr' hk hstorable
    obtain ⟨db,hsync⟩ := syncIdentities_isOk changed'.2 hkeys r.resourceId vm.connectionId
    rw [← hid'] at hchanged hsync
    exact ⟨_,bind_eq_ok.mpr ⟨_,hfound,bind_eq_ok.mpr ⟨_,hchanged,bind_eq_ok.mpr ⟨_,hsync,rfl⟩⟩⟩⟩

theorem upsertOne_drawn (h : StoreInvariant s.db)
    (hs : upsertOne uuid4 vm.connectionId t s vm = .ok u) :
    u.drawn = s.drawn+(if present s.db vm.key then 0 else 1) := by
  rcases upsertOne_cases hs with hi | ⟨m,changed,hu⟩
  · have habsent : ¬ present s.db vm.key = true := by
      rw [present_eq_true]
      exact fun ⟨r,hr,hk⟩ => hi.absent h r hr hk
    rw [hi.drawn,if_neg habsent]
  · obtain ⟨r,hr,hk,_⟩ := hu.row h
    rw [hu.drawn,if_pos (present_eq_true.mpr ⟨r,hr,hk⟩)]
    rfl

theorem SameFor.present_eq (h : SameFor S db db') (hc : vm.connectionId ∈ S) :
    present db' vm.key = present db vm.key := by
  rw [Bool.eq_iff_iff,present_eq_true,present_eq_true]
  constructor
  · rintro ⟨r,hr,hk⟩
    exact ⟨r,h.symm.row hc hk hr,hk⟩
  · rintro ⟨r,hr,hk⟩
    exact ⟨r,h.row hc hk hr,hk⟩

theorem upsertOne_row (h : SameFor S s.db s'.db) (hdrawn : s'.drawn = s.drawn)
    (hc : vm.connectionId ∈ S) (hs : upsertOne uuid4 vm.connectionId t s vm = .ok u)
    (hs' : upsertOne uuid4 vm.connectionId t s' vm = .ok u') {r : VirtualMachineRow}
    (hr : r.connectionId ∈ S) (hmem : r ∈ u.db.virtualMachines.rows) :
    r ∈ u'.db.virtualMachines.rows := by
  by_cases hp : ∃ q ∈ s.db.virtualMachines.rows, q.key = vm.key
  · obtain ⟨q,hq,hk⟩ := hp
    rw [(upsertOne_rows_of_mem h.left hq hk hs).1,List.mem_map] at hmem
    rw [(upsertOne_rows_of_mem h.right (h.row hc hk hq) hk hs').1,List.mem_map]
    obtain ⟨p,hp,rfl⟩ := hmem
    refine ⟨p,?_,rfl⟩
    by_cases hpk : p.key = vm.key
    · exact h.row hc hpk hp
    · rw [if_neg hpk] at hr
      exact (h.machines p hr).mp hp
  · have hnew : ∀ q ∈ s.db.virtualMachines.rows, q.key ≠ vm.key := fun q hq hk => hp ⟨q,hq,hk⟩
    have hnew' : ∀ q ∈ s'.db.virtualMachines.rows, q.key ≠ vm.key :=
      fun q hq hk => hnew q (h.symm.row hc hk hq) hk
    rw [upsertOne_rows_of_not_mem h.left hnew hs,List.mem_append,List.mem_singleton] at hmem
    rw [upsertOne_rows_of_not_mem h.right hnew' hs',List.mem_append,List.mem_singleton,hdrawn]
    exact hmem.imp (h.machines r hr).mp id

/-- One machine of the batch. -/
theorem Paired.step (hinj : Set.InjOn uuid4 (Set.Iio bound)) (h : Paired S uuid4 bound s s')
    (hc : vm.connectionId ∈ S) (hroom : s.drawn < bound)
    (hs : upsertOne uuid4 vm.connectionId t s vm = .ok u) :
    ∃ u', upsertOne uuid4 vm.connectionId t s' vm = .ok u' ∧ Paired S uuid4 bound u u' := by
  obtain ⟨u',hs'⟩ := upsertOne_transfer h.same h.drawn hc
    (fun r hr => h.fresh s.drawn le_rfl hroom r (.inr hr)) hs
  have hdrawn : u'.drawn = u.drawn := by
    rw [upsertOne_drawn h.same.right hs',upsertOne_drawn h.same.left hs,h.same.present_eq hc,
      h.drawn]
  refine ⟨u',hs',⟨?_,fun r hr => ⟨?_,?_⟩,?_,?_⟩,hdrawn,fun n hn hb r hr he => ?_⟩
  · conv_lhs => rw [upsertOne_others hs',h.same.others]
    conv_rhs => rw [upsertOne_others hs]
    rfl
  · exact upsertOne_row h.same h.drawn hc hs hs' hr
  · exact upsertOne_row h.same.symm h.drawn.symm hc hs' hs hr
  · exact (upsertOne_ok h.same.left hs).1.invariant
  · exact (upsertOne_ok h.same.right hs').1.invariant
  · obtain ⟨hle,_,hids⟩ := upsertOne_ids h.same.left hs
    obtain ⟨_,_,hids'⟩ := upsertOne_ids h.same.right hs'
    have hold : ∀ q, q ∈ s.db.virtualMachines.rows ∨ q ∈ s'.db.virtualMachines.rows →
        q.resourceId ≠ r.resourceId :=
      fun q hq hid => h.fresh n (hle.trans hn) hb q hq (hid.trans he)
    have hnew : u.drawn = s.drawn+1 → r.resourceId ≠ uuid4 s.drawn := by
      intro hone hid
      have hsame : s.drawn = n := hinj hroom hb (hid.symm.trans he)
      omega
    rcases hr with hr | hr
    · rcases hids r hr with ⟨q,hq,hid⟩ | ⟨hone,hid⟩
      · exact hold q (.inl hq) hid
      · exact hnew hone hid
    · rcases hids' r hr with ⟨q,hq,hid⟩ | ⟨hone,hid⟩
      · exact hold q (.inr hq) hid
      · rw [h.drawn] at hone hid
        exact hnew (hdrawn ▸ hone) hid

theorem Paired.upsertAll (hinj : Set.InjOn uuid4 (Set.Iio bound))
    (h : Paired S uuid4 bound s s') (hc : c ∈ S) (hcarried : ∀ vm ∈ vms, vm.connectionId = c)
    (hroom : s.drawn+vms.length ≤ bound) (hs : upsertAll uuid4 c t vms s = .ok u) :
    ∃ u', upsertAll uuid4 c t vms s' = .ok u' ∧ SameFor S u.db u'.db := by
  induction vms generalizing s s' with
  | nil =>
    cases hs
    exact ⟨s',rfl,h.same⟩
  | cons vm vms ih =>
    obtain ⟨mid,hone,hrest⟩ := bind_eq_ok.mp hs
    have hvm := hcarried vm List.mem_cons_self
    subst hvm
    rw [List.length_cons] at hroom
    obtain ⟨mid',hone',hmid⟩ := h.step hinj hc (by omega) hone
    have hle := (upsertOne_ids h.same.left hone).2.1
    obtain ⟨u',hrest',hu⟩ := ih hmid (fun v hv => hcarried v (List.mem_cons_of_mem _ hv))
      (by omega) hrest
    exact ⟨u',bind_eq_ok.mpr ⟨mid',hone',hrest'⟩,hu⟩

theorem upsertAll_ids (h : StoreInvariant s.db) (hcarried : ∀ vm ∈ vms, vm.connectionId = c)
    (hs : upsertAll uuid4 c t vms s = .ok u) : ∀ r ∈ u.db.virtualMachines.rows,
      (∃ q ∈ s.db.virtualMachines.rows, q.resourceId = r.resourceId) ∨
      ∃ n, n < s.drawn+vms.length ∧ r.resourceId = uuid4 n := by
  induction vms generalizing s with
  | nil =>
    cases hs
    exact fun r hr => .inl ⟨r,hr,rfl⟩
  | cons vm vms ih =>
    obtain ⟨mid,hone,hrest⟩ := bind_eq_ok.mp hs
    rw [← hcarried vm List.mem_cons_self] at hone
    obtain ⟨_,hle,hids⟩ := upsertOne_ids h hone
    intro r hr
    rw [List.length_cons]
    rcases ih (upsertOne_ok h hone).1.invariant
      (fun v hv => hcarried v (List.mem_cons_of_mem _ hv)) hrest r hr with ⟨q,hq,hid⟩ | ⟨n,hn,hid⟩
    · rcases hids q hq with ⟨p,hp,hpq⟩ | ⟨hdrawn,hnew⟩
      · exact .inl ⟨p,hp,hpq.trans hid⟩
      · exact .inr ⟨s.drawn,by omega,hid.symm.trans hnew⟩
    · exact .inr ⟨n,by omega,hid⟩

end

def PortalEvent.drawn : PortalEvent → List UUID
  | .collect call => (List.range call.vms.length).map call.uuid4
  | _ => []

/-- The identifiers still to be drawn are distinct and new. -/
structure Fresh (events : List PortalEvent) (db : Database) : Prop where
  distinct : (events.flatMap PortalEvent.drawn).Nodup
  new : ∀ r ∈ db.virtualMachines.rows, r.resourceId ∉ events.flatMap PortalEvent.drawn

def PortalEvent.shownTo (S : Finset UUID) : PortalEvent → Bool
  | .collect call => decide (call.connectionId ∈ S)
  | _ => true

/-- No connection outside the set is deleted: whether that succeeds depends on its machines. -/
def PortalEvent.DeletesIn (S : Finset UUID) : PortalEvent → Prop
  | .request call => ∀ c, call.request = .deleteConnection c → c ∈ S
  | _ => True

section
variable {S : Finset UUID} {dbms : Dbms} {env : Env} {db db' : Database} {e : PortalEvent}
  {events : List PortalEvent} {call : UpsertCall}

theorem Fresh.cons (h : Fresh (e::events) db) : Fresh events db := by
  have hdistinct := h.distinct
  rw [List.flatMap_cons,List.nodup_append] at hdistinct
  refine ⟨hdistinct.2.1,fun r hr hm => h.new r hr ?_⟩
  rw [List.flatMap_cons]
  exact List.mem_append_right _ hm

theorem Fresh.step (h : Fresh (e::events) db) (hids : ∀ r ∈ db'.virtualMachines.rows,
      (∃ q ∈ db.virtualMachines.rows, q.resourceId = r.resourceId) ∨ r.resourceId ∈ e.drawn) :
    Fresh events db' := by
  have hdistinct := h.distinct
  rw [List.flatMap_cons,List.nodup_append] at hdistinct
  refine ⟨hdistinct.2.1,fun r hr hm => ?_⟩
  rcases hids r hr with ⟨q,hq,hid⟩ | hdrawn
  · exact h.cons.new q hq (hid ▸ hm)
  · exact hdistinct.2.2 _ hdrawn _ hm rfl

theorem collect_ids (h : StoreInvariant db) (hcarried : call.Carried) {result : UpsertResult}
    (hrun : call.run db = .ok (result,db')) : ∀ r ∈ db'.virtualMachines.rows,
      (∃ q ∈ db.virtualMachines.rows, q.resourceId = r.resourceId) ∨
      r.resourceId ∈ (PortalEvent.collect call).drawn := by
  obtain ⟨u,hall,he⟩ := bind_eq_ok.mp hrun
  cases he
  intro r hr
  rcases upsertAll_ids h hcarried hall r hr with hold | ⟨n,hn,hid⟩
  · exact .inl hold
  · refine .inr (List.mem_map.mpr ⟨n,?_,hid.symm⟩)
    rw [List.mem_range]
    simpa using hn

theorem Fresh.run (h : Fresh (e::events) db) (hstore : StoreInvariant db) (hcarried : e.Carried) :
    Fresh events (e.run dbms env db) := by
  cases e with
  | request request =>
    refine request.serve_cases (Fresh events) h.cons fun d w _ hw row _ => ?_
    refine ⟨h.cons.distinct,?_⟩
    rw [Database.addAudit,(applyAll_keeps_machines hw).1]
    exact h.cons.new
  | login attempt =>
    refine attempt.serve_cases (Fresh events) h.cons fun row w _ hw event _ => ?_
    refine ⟨h.cons.distinct,?_⟩
    rw [Database.addAudit,(applyAll_keeps_machines hw).1]
    exact h.cons.new
  | collect call =>
    exact collect_cases (Fresh events) h.cons fun result db' hrun =>
      h.step (collect_ids hstore hcarried hrun)

theorem run_collect_ok {u : UpsertState} (h : call.runPart call.vms db = .ok u) :
    (PortalEvent.collect call).run dbms env db = u.db := by
  have hrun : call.run db = .ok (u.result,u.db) := bind_eq_ok.mpr ⟨u,h,rfl⟩
  simp only [PortalEvent.run,hrun]

theorem run_collect_error {err : Exc} (h : call.runPart call.vms db = .error err) :
    (PortalEvent.collect call).run dbms env db = db := by
  refine collect_cases (fun after => after = db) rfl fun result db' hrun => ?_
  obtain ⟨u,hu,_⟩ := bind_eq_ok.mp hrun
  cases h.symm.trans hu

/-- A shown collection does the same on both databases. -/
theorem SameFor.collect (h : SameFor S db db') (hcarried : call.Carried)
    (hin : call.connectionId ∈ S) (hfresh : Fresh (.collect call::events) db)
    (hfresh' : Fresh (.collect call::events) db') :
    SameFor S ((PortalEvent.collect call).run dbms env db)
      ((PortalEvent.collect call).run dbms env db') := by
  have hdistinct := hfresh.distinct
  rw [List.flatMap_cons,List.nodup_append] at hdistinct
  have hinj : Set.InjOn call.uuid4 (Set.Iio call.vms.length) := by
    intro m hm n hn he
    exact List.inj_on_of_nodup_map hdistinct.1 (List.mem_range.mpr hm) (List.mem_range.mpr hn) he
  have hdrawn : ∀ n < call.vms.length, call.uuid4 n ∈
      (PortalEvent.collect call::events).flatMap PortalEvent.drawn := by
    intro n hn
    rw [List.flatMap_cons]
    exact List.mem_append_left _ (List.mem_map.mpr ⟨n,List.mem_range.mpr hn,rfl⟩)
  have hpaired : Paired S call.uuid4 call.vms.length ⟨db,0,⟨0,0,0⟩⟩ ⟨db',0,⟨0,0,0⟩⟩ := by
    refine ⟨h,rfl,fun n _ hn r hr he => ?_⟩
    rcases hr with hr | hr
    · exact hfresh.new r hr (he ▸ hdrawn n hn)
    · exact hfresh'.new r hr (he ▸ hdrawn n hn)
  have hroom : (0:ℕ)+call.vms.length ≤ call.vms.length := by omega
  cases hrun : call.runPart call.vms db with
  | ok u =>
    obtain ⟨u',hrun',hsame⟩ := hpaired.upsertAll hinj hin hcarried hroom hrun
    rw [run_collect_ok hrun,run_collect_ok hrun']
    exact hsame
  | error err =>
    cases hrun' : call.runPart call.vms db' with
    | ok u' =>
      obtain ⟨u,hu,_⟩ := hpaired.symm.upsertAll hinj hin hcarried hroom hrun'
      cases hrun.symm.trans hu
    | error err' =>
      rw [run_collect_error hrun,run_collect_error hrun']
      exact h

/-! Requests and logins read and write the other tables. -/

theorem decide_withMachines {ctx : Context} {req : Request}
    {machines : Table VirtualMachineRow.resourceId} {identities : Table ResourceIdentityRow.key}
    (hcount : ∀ c, req = .deleteConnection c →
      (db.withMachines machines identities).countActiveVms c = db.countActiveVms c) :
    req.decide env ctx (db.withMachines machines identities) = req.decide env ctx db := by
  cases req with
  | deleteConnection c =>
    have h := hcount c rfl
    simp only [Request.decide,decideDeleteConnection,h]
    rfl
  | _ => rfl

/-- Apart from a deletion, no write looks at machines. -/
theorem apply_withMachines {w : Write}
    {machines : Table VirtualMachineRow.resourceId} {identities : Table ResourceIdentityRow.key}
    (hany : ∀ c, w = .deleteConnection c →
      machines.rows.any (fun r => r.connectionId = c) =
        db.virtualMachines.rows.any fun r => r.connectionId = c) :
    w.apply dbms (db.withMachines machines identities) =
      (w.apply dbms db).map fun after => after.withMachines machines identities := by
  cases w with
  | insertUser row =>
    by_cases hs : row.storable = true
    · by_cases hu : (db.users.rows.any fun r => r.username = row.username) = true
      · simp only [Write.apply,withMachines_users,hs,hu]
        rfl
      · simp only [Write.apply,withMachines_users,hs,hu]
        cases db.users.insert row <;> rfl
    · simp only [Write.apply,hs]
      rfl
  | patchUser userId p =>
    simp only [Write.apply]
    split_ifs <;> rfl
  | replaceScopes userId ids grantedBy at_ =>
    by_cases hids : (ids.all fun c => (db.connections.find? c).isSome &&
        (db.users.find? userId).isSome) = true
    · simp only [Write.apply,withMachines_users,withMachines_connections,
        withMachines_userConnectionScopes,hids]
      cases (db.userConnectionScopes.deleteWhere fun r => r.userId = userId).insertAll
        (scopeRows userId ids grantedBy at_) <;> rfl
    · simp only [Write.apply,withMachines_users,withMachines_connections,hids]
      rfl
  | insertAudit row =>
    simp only [Write.apply]
    split_ifs <;> rfl
  | insertConnection row =>
    by_cases hs : row.storable = true
    · by_cases hu : (db.connections.rows.any fun r =>
          r.address = row.address && r.username = row.username) = true
      · simp only [Write.apply,withMachines_connections,hs,hu]
        rfl
      · simp only [Write.apply,withMachines_connections,hs,hu]
        cases db.connections.insert row <;> rfl
    · simp only [Write.apply,hs]
      rfl
  | deleteConnection c =>
    simp only [Write.apply,withMachines_virtualMachines,hany c rfl]
    split_ifs <;> rfl

theorem SameFor.after {after : Database} (h : SameFor S db db')
    (hkeep : after.virtualMachines = db.virtualMachines ∧
      after.resourceIdentities = db.resourceIdentities) (row : AuditEventRow) :
    SameFor S (after.addAudit row)
      ((after.withMachines db'.virtualMachines db'.resourceIdentities).addAudit row) := by
  refine ⟨rfl,fun r hr => ?_,?_,?_⟩
  · change r ∈ after.virtualMachines.rows ↔ r ∈ db'.virtualMachines.rows
    rw [hkeep.1]
    exact h.machines r hr
  · exact h.left.congr hkeep.1 hkeep.2
  · exact h.right.congr rfl rfl

theorem SameFor.any_eq (h : SameFor S db db') {c : UUID} (hc : c ∈ S) :
    db'.virtualMachines.rows.any (fun r => r.connectionId = c) =
      db.virtualMachines.rows.any fun r => r.connectionId = c := by
  rw [Bool.eq_iff_iff,List.any_eq_true,List.any_eq_true]
  constructor
  · rintro ⟨r,hr,hid⟩
    exact ⟨r,(h.machines r (by simpa using (of_decide_eq_true hid) ▸ hc)).mpr hr,hid⟩
  · rintro ⟨r,hr,hid⟩
    exact ⟨r,(h.machines r (by simpa using (of_decide_eq_true hid) ▸ hc)).mp hr,hid⟩

theorem SameFor.countActiveVms_eq (h : SameFor S db db') {c : UUID} (hc : c ∈ S) :
    db'.countActiveVms c = db.countActiveVms c := by
  apply List.Perm.length_eq
  rw [List.perm_ext_iff_of_nodup (db'.virtualMachines.rows_nodup.filter _)
    (db.virtualMachines.rows_nodup.filter _)]
  intro r
  simp only [List.mem_filter,Bool.and_eq_true,decide_eq_true_eq]
  refine and_congr_left fun hr => ?_
  exact (h.machines r (hr.1.symm ▸ hc)).symm

theorem applyAll_withMachines {ws : List Write}
    {machines : Table VirtualMachineRow.resourceId} {identities : Table ResourceIdentityRow.key}
    (hany : ∀ c, .deleteConnection c ∈ ws →
      machines.rows.any (fun r => r.connectionId = c) =
        db.virtualMachines.rows.any fun r => r.connectionId = c) :
    Write.applyAll dbms ws (db.withMachines machines identities) =
      (Write.applyAll dbms ws db).map fun after => after.withMachines machines identities := by
  induction ws generalizing db with
  | nil => rfl
  | cons w ws ih =>
    have hone : w.apply dbms (db.withMachines machines identities) = _ :=
      apply_withMachines fun c hc => hany c (hc ▸ List.mem_cons_self)
    cases hw : w.apply dbms db with
    | error e =>
      rw [hw] at hone
      simp only [Write.applyAll,hone,hw]
      rfl
    | ok mid =>
      rw [hw] at hone
      have hrest := @ih mid fun c hc => by
        rw [hany c (List.mem_cons_of_mem _ hc),(write_keeps_machines hw).1]
      simp only [Write.applyAll,hone,hw]
      exact hrest

/-- What a decision makes of the two databases. -/
theorem SameFor.settle (h : SameFor S db db') {now : Timestamp} {x : Except Exc Decision}
    (hdeletes : ∀ d, x = .ok d → ∀ c, .deleteConnection c ∈ d.writes → c ∈ S) :
    SameFor S (settle dbms now db db x).2 (settle dbms now db' db' x).2 := by
  cases x with
  | error e => exact h
  | ok d =>
    have happly : Write.applyAll dbms d.writes
        (db.withMachines db'.virtualMachines db'.resourceIdentities) = _ :=
      applyAll_withMachines fun c hc => h.any_eq (hdeletes d rfl c hc)
    rw [← h.others] at happly
    cases hw : Write.applyAll dbms d.writes db with
    | error e =>
      rw [hw] at happly
      simp only [WzonePortal.settle,hw,happly]
      exact h
    | ok after =>
      rw [hw] at happly
      simp only [WzonePortal.settle,hw,happly,Except.map]
      split_ifs
      · exact h.after (applyAll_keeps_machines hw) _
      · exact h

theorem decide_deletes {ctx : Context} {req : Request} {d : Decision}
    (h : req.decide env ctx db = .ok d) {c : UUID} (hc : .deleteConnection c ∈ d.writes) :
    req = .deleteConnection c := by
  cases req with
  | register payload =>
    rcases register_ok h with ⟨_,_,hwrites,_⟩ | ⟨_,_,hwrites,_⟩
    · simp [hwrites] at hc
    · simp [hwrites] at hc
  | approve userId role ids =>
    obtain ⟨_,_,_,_,_,hwrites,_⟩ := approve_ok h
    simp [hwrites] at hc
  | reject userId reason =>
    obtain ⟨_,_,_,hwrites⟩ := reject_ok h
    simp [hwrites] at hc
  | disable userId =>
    obtain ⟨_,_,_,hwrites⟩ := disable_ok h
    simp [hwrites] at hc
  | enable userId =>
    obtain ⟨_,_,_,_,_,hwrites⟩ := enable_ok h
    simp [hwrites] at hc
  | changeRole userId role =>
    obtain ⟨_,_,_,hwrites⟩ := changeRole_ok h
    by_cases ha : role = .admin <;> simp [hwrites,ha] at hc
  | setScopes userId ids =>
    obtain ⟨_,_,_,_,hwrites⟩ := setScopes_ok h
    simp [hwrites] at hc
  | resetPassword userId =>
    obtain ⟨_,_,_,hwrites⟩ := resetPassword_ok h
    simp [hwrites] at hc
  | changePassword current new =>
    obtain ⟨_,_,_,hwrites⟩ := changePassword_ok h
    simp [hwrites] at hc
  | createConnection payload =>
    obtain ⟨_,_,hwrites⟩ := createConnection_ok h
    simp [hwrites] at hc
  | deleteConnection connectionId =>
    obtain ⟨_,_,_,hwrites⟩ := deleteConnection_ok h
    rw [hwrites,List.mem_singleton] at hc
    cases hc
    rfl

theorem SameFor.request (h : SameFor S db db') {call : Call}
    (hdeletes : (PortalEvent.request call).DeletesIn S) :
    SameFor S (call.serve dbms env db).2 (call.serve dbms env db').2 := by
  have hdecide : call.request.decide env call.ctx db' = call.request.decide env call.ctx db := by
    have hothers := h.others
    rw [hothers]
    refine decide_withMachines fun c hc => ?_
    rw [← hothers]
    exact h.countActiveVms_eq (hdeletes c hc)
  rw [Call.serve,Call.serve,serve_handler,serve_handler,hdecide]
  exact h.settle fun d hd c hc => hdeletes c (decide_deletes hd hc)

theorem LoginAttempt.writes_deletes {attempt : LoginAttempt} {row : UserRow} {c : UUID}
    (hc : .deleteConnection c ∈ attempt.writes env row) : False := by
  unfold LoginAttempt.writes at hc
  split at hc <;> simp at hc

theorem SameFor.login (h : SameFor S db db') (attempt : LoginAttempt) :
    SameFor S (attempt.serve dbms env db).2 (attempt.serve dbms env db').2 := by
  have hlookup : attempt.lookup env db' = attempt.lookup env db := by
    rw [h.others]
    rfl
  by_cases hf : ∃ row, attempt.lookup env db = .ok (some row)
  · obtain ⟨row,hrow⟩ := hf
    have hrow' := hlookup.trans hrow
    cases hr : attempt.rejection env row with
    | some e =>
      rw [login_rejected hrow hr,login_rejected hrow' hr]
      exact h
    | none =>
      obtain ⟨r,hserve⟩ := login_accepted dbms hrow hr
      obtain ⟨r',hserve'⟩ := login_accepted dbms hrow' hr
      have happly : Write.applyAll dbms (attempt.writes env row)
          (db.withMachines db'.virtualMachines db'.resourceIdentities) = _ :=
        applyAll_withMachines fun c hc => (LoginAttempt.writes_deletes hc).elim
      rw [← h.others] at happly
      rw [hserve,hserve']
      cases hw : Write.applyAll dbms (attempt.writes env row) db with
      | error e =>
        rw [hw] at happly
        simp only [happly]
        exact h
      | ok after =>
        rw [hw] at happly
        simp only [happly,Except.map]
        split_ifs
        · exact h.after (applyAll_keeps_machines hw) _
        · exact h
  · obtain ⟨e,hserve⟩ := @login_unknown dbms db env attempt fun row hrow => hf ⟨row,hrow⟩
    obtain ⟨e',hserve'⟩ := @login_unknown dbms db' env attempt
      fun row hrow => hf ⟨row,hlookup ▸ hrow⟩
    rw [hserve,hserve']
    exact h

/-! The whole history. -/

/-- What the history and the history without its hidden collections keep. -/
structure Unwound (S : Finset UUID) (events : List PortalEvent) (db db' : Database) : Prop where
  same : SameFor S db db'
  fresh : Fresh events db
  fresh' : Fresh events db'
  carried : ∀ e ∈ events, e.Carried
  deletes : ∀ e ∈ events, e.DeletesIn S

theorem unwinds (S : Finset UUID) (dbms : Dbms) (env : Env) :
    Unwinds (PortalEvent.run dbms env) (PortalEvent.shownTo S) (Unwound S) := by
  refine ⟨fun e es db db' hhidden h => ?_,fun e es db db' hshown h => ?_⟩
  · have hcarried := h.carried e List.mem_cons_self
    refine ⟨?_,h.fresh.run h.same.left hcarried,h.fresh'.cons,
      fun x hx => h.carried x (List.mem_cons_of_mem _ hx),
      fun x hx => h.deletes x (List.mem_cons_of_mem _ hx)⟩
    cases e with
    | request call => cases hhidden
    | login attempt => cases hhidden
    | collect call =>
      refine collect_cases (fun after => SameFor S after db') h.same fun result after hrun => ?_
      exact (SameFor.hidden h.same.left hcarried (of_decide_eq_false hhidden) hrun).symm.trans h.same
  · have hcarried := h.carried e List.mem_cons_self
    refine ⟨?_,h.fresh.run h.same.left hcarried,h.fresh'.run h.same.right hcarried,
      fun x hx => h.carried x (List.mem_cons_of_mem _ hx),
      fun x hx => h.deletes x (List.mem_cons_of_mem _ hx)⟩
    cases e with
    | request call => exact h.same.request (h.deletes _ List.mem_cons_self)
    | login attempt => exact h.same.login attempt
    | collect call =>
      exact h.same.collect hcarried (of_decide_eq_true hshown) h.fresh h.fresh'

theorem SameFor.scopeOf (h : SameFor S db db') (cookie : Cookie) (path : String) :
    Deps.scopeOf cookie path db' = Deps.scopeOf cookie path db := by
  rw [h.others]
  cases cookie <;> rfl

theorem AgreeOn.mono {T : Finset UUID} (h : AgreeOn S db db') (hT : T ⊆ S) : AgreeOn T db db' :=
  ⟨fun r hr => h.machines r (hT hr),fun c hc => h.connections c (hT hc)⟩

end
/-- A caller whose scope lies inside a set gets the answer of the history without the collections
of the connections outside it. -/
theorem listing_follows_scope (dbms : Dbms) (env : Env) (cmp : Comparison) (start : Database)
    (hstart : StoreInvariant start) (events : List PortalEvent)
    (hcarried : ∀ e ∈ events, e.Carried) (hfresh : Fresh events start) (S : Finset UUID)
    (hdeletes : ∀ e ∈ events, e.DeletesIn S) (cookie : Cookie)
    (hscope : ∀ scope, Deps.scopeOf cookie "/api/v1/virtual-machines"
      (portalAfter dbms env events start) = .ok scope →
        ∃ T ⊆ S, scope.allowedConnectionIds = some T) (connectionId : Option UUID) (page : Page) :
    Routes.listVirtualMachines dbms cmp cookie connectionId page
        (portalAfter dbms env events start) =
      Routes.listVirtualMachines dbms cmp cookie connectionId page
        (portalAfter dbms env (events.filter (PortalEvent.shownTo S)) start) := by
  have hunwound := (unwinds S dbms env).run
    ⟨SameFor.refl hstart,hfresh,hfresh,hcarried,hdeletes⟩
  have hsame : SameFor S (portalAfter dbms env events start)
      (portalAfter dbms env (events.filter (PortalEvent.shownTo S)) start) := hunwound.same
  unfold Routes.listVirtualMachines
  rw [serve_currentScope,serve_currentScope,hsame.scopeOf]
  cases hx : Deps.scopeOf cookie "/api/v1/virtual-machines"
      (portalAfter dbms env events start) with
  | error e => rfl
  | ok scope =>
    obtain ⟨T,hT,hids⟩ := hscope scope hx
    have hlist : InventoryQueryService.listVirtualMachines cmp
        (portalAfter dbms env events start) scope connectionId page =
        InventoryQueryService.listVirtualMachines cmp
          (portalAfter dbms env (events.filter (PortalEvent.shownTo S)) start) scope connectionId
          page := by
      simp only [InventoryQueryService.listVirtualMachines,
        searchVms_eq_of_agreeOn hids (hsame.agreeOn.mono hT)]
    change (InventoryQueryService.listVirtualMachines cmp _ scope connectionId page >>= _) =
      (InventoryQueryService.listVirtualMachines cmp _ scope connectionId page >>= _)
    rw [hlist]

/-- Two connections without machines, and a viewer of the first one. -/
def viewedStore : Database :=
  { twoConnections with
    virtualMachines := Table.empty
    users := ⟨[{
      userId := 2, username := "alice", passwordHash := "x", displayName := none, email := none,
      role := .viewer, status := .active, createdAt := 0, updatedAt := 0 }],by decide⟩
    userConnectionScopes := ⟨[⟨2,7,none,0⟩],by decide⟩ }

def unseenBatch : UpsertCall where
  uuid4 := fun n => BitVec.ofNat 128 (n+200)
  connectionId := 8
  vms := [⟨0,8,"vm-9","db",.active,none,none,none,.on,.connected,⟨2,none,none⟩,⟨4096⟩,{},
    { availability := .unknown },none⟩]
  observedAt := 2000

theorem scopeOf_collect (dbms : Dbms) (env : Env) (call : UpsertCall) (db : Database)
    (cookie : Cookie) (path : String) :
    Deps.scopeOf cookie path ((PortalEvent.collect call).run dbms env db) =
      Deps.scopeOf cookie path db := by
  refine collect_cases (fun after => Deps.scopeOf cookie path after = Deps.scopeOf cookie path db)
    rfl fun result after hrun => ?_
  obtain ⟨u,hall,he⟩ := bind_eq_ok.mp hrun
  cases he
  rw [upsertAll_others hall]
  cases cookie <;> rfl

theorem listing_follows_scope_viewer :
    let events := [PortalEvent.collect twiceNamed,PortalEvent.collect unseenBatch]
    Routes.listVirtualMachines .lenient .nullsLast (.valid claimsOfAlice) none {}
        (portalAfter .lenient plainEnv events viewedStore) =
      Routes.listVirtualMachines .lenient .nullsLast (.valid claimsOfAlice) none {}
        (portalAfter .lenient plainEnv (events.filter (PortalEvent.shownTo {7})) viewedStore) := by
  intro events
  refine listing_follows_scope .lenient plainEnv .nullsLast viewedStore
    (StoreInvariant.of_empty rfl rfl) events ?_ ⟨by decide,by intro r hr; cases hr⟩ {7} ?_
    (.valid claimsOfAlice) (fun scope hscope => ?_) none {}
  · intro e he
    rcases List.mem_cons.mp he with rfl | he
    · exact twiceNamed_carried
    · rw [List.mem_singleton.mp he]
      intro vm hvm
      rw [List.mem_singleton.mp hvm]
      rfl
  · intro e he
    rcases List.mem_cons.mp he with rfl | he
    · trivial
    · rw [List.mem_singleton.mp he]
      trivial
  · simp only [events,portalAfter,List.foldl_cons,List.foldl_nil,scopeOf_collect] at hscope
    have hstart : Deps.scopeOf (.valid claimsOfAlice) "/api/v1/virtual-machines" viewedStore =
        .ok ⟨2,"alice",.viewer,some {7}⟩ := by decide
    cases hstart.symm.trans hscope
    exact ⟨{7},subset_rfl,rfl⟩

end WzonePortal
