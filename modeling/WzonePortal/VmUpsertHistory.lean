import WzonePortal.VmStoreInvariant
import WzonePortal.Bootstrap

/-! Sequences of collections: when a batch is stored without an exception, and what the
machine store looks like after any number of batches that started on an empty store. -/
namespace WzonePortal

theorem storable_nativeKeyValue {c : UUID} {nativeId : String} (h : storable nativeId = true) :
    storable (nativeKeyValue c nativeId) = true := by
  simp only [storable,decide_not,Bool.not_eq_true',decide_eq_false_iff_not] at h ⊢
  simp only [nativeKeyValue,String.toList_append,List.mem_append,not_or]
  exact ⟨⟨UUID.str_chars c,by decide⟩,h⟩

namespace VirtualMachineRepository

/-- What lets `left` more machines of a batch pass the checks of the schema. -/
structure Storing (uuid4 : ℕ → UUID) (bound : ℕ) (c : UUID) (left : ℕ) (s : UpsertState) :
    Prop where
  invariant : StoreInvariant s.db
  connection : (s.db.connections.find? c).isSome
  room : s.drawn+left ≤ bound
  fresh : ∀ n, s.drawn ≤ n → n < bound → ∀ r ∈ s.db.virtualMachines.rows,
    r.resourceId ≠ uuid4 n

section
variable {db : Database} {vm : VirtualMachine} {uuid4 : ℕ → UUID} {c : UUID} {t : Timestamp}
  {s s' : UpsertState} {vms : List VirtualMachine} {bound left : ℕ}

theorem storable_nativeId (h : vm.storable = true) : storable vm.nativeId = true := by
  simp only [VirtualMachine.storable,VirtualMachineRow.storable,newRow,Bool.and_eq_true] at h
  exact h.1.1.1.1.1.1.1.1

theorem storable_key (h : vm.storable = true) : ∀ key ∈ buildVmIdentityKeys vm,
    storable key.value = true := by
  intro key hkey
  simp only [buildVmIdentityKeys,List.mem_singleton] at hkey
  subst hkey
  exact storable_nativeKeyValue (storable_nativeId h)

theorem storable_merged {r : VirtualMachineRow} (hr : r.storable = true)
    (h : vm.storable = true) (q : VirtualMachineRow) :
    (refreshed (mergeGuest vm (some (rowToDomain r))) t q).storable = true := by
  simp only [VirtualMachine.storable,VirtualMachineRow.storable,newRow,Bool.and_eq_true] at h hr
  simp only [VirtualMachineRow.storable,refreshed,setColumns,mergeGuest,GuestInfo.withFallback,
    rowToDomain,Bool.and_eq_true]
  by_cases hg : vm.guest.isCollected = true
  · simp only [if_pos hg]
    exact h
  · simp only [if_neg hg]
    exact ⟨⟨⟨⟨⟨h.1.1.1.1.1,hr.1.1.1.1.2⟩,hr.1.1.1.2⟩,h.1.1.2⟩,h.1.2⟩,h.2⟩

theorem findByIdentity_isOk (db : Database)
    (hkeys : ∀ key ∈ buildVmIdentityKeys vm, storable key.value = true) :
    ∃ found, findByIdentity db (buildVmIdentityKeys vm) = .ok found := by
  have hkey := hkeys ⟨.native,nativeKeyValue vm.connectionId vm.nativeId⟩
    (List.mem_singleton.mpr rfl)
  rw [findByIdentity_eq,findFirst]
  simp only [hkey,Bool.not_true,Bool.false_eq_true,if_false]
  split
  · exact ⟨_,rfl⟩
  · exact ⟨_,rfl⟩

theorem checkRow_isOk {row : VirtualMachineRow} (hs : row.storable = true)
    (hk : ∀ q ∈ db.virtualMachines.rows, q.resourceId ≠ row.resourceId → q.key ≠ row.key)
    (hc : (db.connections.find? row.connectionId).isSome) : checkRow db row = .ok () := by
  have hother : ¬ (db.virtualMachines.rows.any fun r => r.resourceId ≠ row.resourceId &&
      r.connectionId = row.connectionId && r.nativeId = row.nativeId) = true := by
    rw [List.any_eq_true]
    rintro ⟨q,hq,hb⟩
    simp only [ne_eq,Bool.and_eq_true,decide_eq_true_eq] at hb
    exact hk q hq (by simpa using hb.1.1) (Prod.ext hb.1.2 hb.2)
  unfold checkRow
  rw [hs,if_neg (by simp),if_neg hother,if_neg (by simpa [Option.isSome_iff_ne_none] using hc)]

theorem syncIdentities_isOk (db : Database)
    (hstorable : ∀ key ∈ buildVmIdentityKeys vm, storable key.value = true) (id c : UUID) :
    ∃ db', syncIdentities db id (buildVmIdentityKeys vm) c = .ok db' := by
  have hkeys : ¬ ((buildVmIdentityKeys vm).any fun k => !storable k.value) = true := by
    rw [List.any_eq_true]
    rintro ⟨k,hk,hb⟩
    rw [hstorable k hk] at hb
    cases hb
  have hnew : ∀ r ∈ (buildVmIdentityKeys vm).map (identityRow id c), r.key ∉
      (db.resourceIdentities.deleteWhere fun r => r.resourceId = id).rows.map
        ResourceIdentityRow.key := by
    intro r hr hm
    obtain ⟨k,_,rfl⟩ := List.mem_map.mp hr
    obtain ⟨q,hq,hk⟩ := List.mem_map.mp hm
    have hne := ((Table.mem_deleteWhere _ _ _).mp hq).2
    have heq : q.resourceId = id := congrArg Prod.fst hk
    simp [heq] at hne
  have hkeysnd : (((buildVmIdentityKeys vm).map (identityRow id c)).map
      ResourceIdentityRow.key).Nodup := by simp [buildVmIdentityKeys]
  obtain ⟨identities,hi⟩ := Table.insertAll_isSome hkeysnd hnew
  simp only [syncIdentities,if_neg hkeys,hi]
  exact ⟨_,rfl⟩

theorem upsertOne_ids (h : StoreInvariant s.db)
    (hs : upsertOne uuid4 vm.connectionId t s vm = .ok s') :
    s.drawn ≤ s'.drawn ∧ s'.drawn ≤ s.drawn+1 ∧ ∀ r ∈ s'.db.virtualMachines.rows,
      (∃ q ∈ s.db.virtualMachines.rows, q.resourceId = r.resourceId) ∨
      (s'.drawn = s.drawn+1 ∧ r.resourceId = uuid4 s.drawn) := by
  rcases upsertOne_cases hs with hi | ⟨m,changed,hu⟩
  · obtain ⟨mid,hinsert,hsync⟩ := hi.stored
    refine ⟨by rw [hi.drawn]; exact Nat.le_succ _,hi.drawn.le,fun p hp => ?_⟩
    obtain ⟨_,_,_,hrows,_⟩ := insertVm_ok hinsert
    rw [(syncIdentities_ok hsync).1,hrows,List.mem_append,List.mem_singleton] at hp
    rcases hp with hp | rfl
    · exact .inl ⟨p,hp,rfl⟩
    · exact .inr ⟨hi.drawn,rfl⟩
  · obtain ⟨r,hr,_,hid⟩ := hu.row h
    have hupdate := hu.updated
    rw [← hid] at hupdate
    obtain ⟨_,_,_,hmem⟩ := updateVm_ok hr hupdate
    refine ⟨hu.drawn.ge,by rw [hu.drawn]; exact Nat.le_succ _,fun p hp => .inl ?_⟩
    rw [(syncIdentities_ok hu.stored).1] at hp
    rcases (hmem p).mp hp with ⟨hp,_⟩ | rfl
    · exact ⟨p,hp,rfl⟩
    · exact ⟨r,hr,rfl⟩

theorem updateVm_isOk (h : StoreInvariant db) (hc : (db.connections.find? vm.connectionId).isSome)
    {r : VirtualMachineRow} (hr : r ∈ db.virtualMachines.rows) (hk : r.key = vm.key)
    (hs : (refreshed (mergeGuest vm (some (rowToDomain r))) t r).storable = true) :
    ∃ changed, updateVm db r.resourceId (mergeGuest vm (loadVm db r.resourceId)) t =
      .ok changed := by
  have hfind := Table.find?_of_mem hr
  have hload : loadVm db r.resourceId = some (rowToDomain r) := by
    rw [loadVm,hfind,Option.map_some]
  have hkey := mergeGuest_key vm (some (rowToDomain r))
  have hcheck : checkRow db (refreshed (mergeGuest vm (some (rowToDomain r))) t r) = .ok () := by
    apply checkRow_isOk hs
    · intro q hq hne he
      rw [refreshed_key,hkey,← hk] at he
      exact hne (by rw [h.unique q hq r hr he,refreshed_resourceId])
    · have hrow : (refreshed (mergeGuest vm (some (rowToDomain r))) t r).connectionId =
          vm.connectionId := congrArg Prod.fst hkey
      rw [hrow]
      exact hc
  rw [hload,updateVm,hfind]
  exact ⟨_,bind_eq_ok.mpr ⟨(),hcheck,rfl⟩⟩

theorem insertVm_isOk {id : UUID} (hc : (db.connections.find? vm.connectionId).isSome)
    (hnew : ∀ r ∈ db.virtualMachines.rows, r.key ≠ vm.key) (hs : vm.storable = true)
    (hid : ∀ r ∈ db.virtualMachines.rows, r.resourceId ≠ id) :
    ∃ db', insertVm db id vm t = .ok db' := by
  have hcheck : checkRow db (newRow id vm t) = .ok () :=
    checkRow_isOk hs (fun q hq _ => hnew q hq) hc
  have hmem : (newRow id vm t).resourceId ∉ db.virtualMachines.rows.map (·.resourceId) := by
    intro hmem
    obtain ⟨q,hq,he⟩ := List.mem_map.mp hmem
    exact hid q hq he
  obtain ⟨table,htable,_⟩ := Table.insert_isSome hmem
  refine ⟨{ db with virtualMachines := table },bind_eq_ok.mpr ⟨(),hcheck,?_⟩⟩
  rw [htable]

theorem upsertOne_isOk_of_mem (uuid4 : ℕ → UUID) (t : Timestamp) (h : StoreInvariant s.db)
    (hconn : (s.db.connections.find? vm.connectionId).isSome) {r : VirtualMachineRow}
    (hr : r ∈ s.db.virtualMachines.rows) (hk : r.key = vm.key) (hs : vm.storable = true) :
    ∃ s', upsertOne uuid4 vm.connectionId t s vm = .ok s' := by
  obtain ⟨found,hfound⟩ := findByIdentity_isOk s.db (storable_key hs)
  obtain ⟨m,rfl,hid⟩ := findByIdentity_of_mem h hr hk hfound
  obtain ⟨changed,hu⟩ := updateVm_isOk h hconn hr hk
    (storable_merged (t := t) (h.storable r hr) hs r)
  obtain ⟨db,hsync⟩ := syncIdentities_isOk changed.2 (storable_key hs) r.resourceId vm.connectionId
  rw [← hid] at hu hsync
  exact ⟨_,bind_eq_ok.mpr ⟨_,hfound,bind_eq_ok.mpr ⟨_,hu,bind_eq_ok.mpr ⟨_,hsync,rfl⟩⟩⟩⟩

theorem upsertOne_isOk (h : Storing uuid4 bound vm.connectionId (left+1) s)
    (hs : vm.storable = true) : ∃ s', upsertOne uuid4 vm.connectionId t s vm = .ok s' := by
  obtain ⟨found,hfound⟩ := findByIdentity_isOk s.db (storable_key hs)
  by_cases hm : ∃ r ∈ s.db.virtualMachines.rows, r.key = vm.key
  · obtain ⟨r,hr,hk⟩ := hm
    exact upsertOne_isOk_of_mem uuid4 t h.invariant h.connection hr hk hs
  · have hnew : ∀ r ∈ s.db.virtualMachines.rows, r.key ≠ vm.key := fun r hr hk => hm ⟨r,hr,hk⟩
    have hnone := findByIdentity_of_not_mem h.invariant hnew hfound
    subst hnone
    have hroom := h.room
    obtain ⟨mid,hi⟩ := insertVm_isOk (t := t) h.connection hnew hs
      (h.fresh s.drawn le_rfl (by omega))
    obtain ⟨db,hsync⟩ := syncIdentities_isOk mid (storable_key hs) (uuid4 s.drawn) vm.connectionId
    exact ⟨_,bind_eq_ok.mpr ⟨_,hfound,bind_eq_ok.mpr ⟨_,hi,bind_eq_ok.mpr ⟨_,hsync,rfl⟩⟩⟩⟩

theorem Storing.step (hinj : Set.InjOn uuid4 (Set.Iio bound))
    (h : Storing uuid4 bound vm.connectionId (left+1) s)
    (hs : upsertOne uuid4 vm.connectionId t s vm = .ok s') :
    Storing uuid4 bound vm.connectionId left s' := by
  have hu := (upsertOne_ok h.invariant hs).1
  obtain ⟨hle,hle',hids⟩ := upsertOne_ids h.invariant hs
  have hroom := h.room
  refine ⟨hu.invariant,by rw [hu.connections]; exact h.connection,by omega,
    fun n hn hb r hr he => ?_⟩
  rcases hids r hr with ⟨q,hq,hid⟩ | ⟨hdrawn,hid⟩
  · exact h.fresh n (hle.trans hn) hb q hq (hid.trans he)
  · have hsame : s.drawn = n := hinj (by simp only [Set.mem_Iio]; omega) hb (hid.symm.trans he)
    omega

theorem upsertAll_isOk (hinj : Set.InjOn uuid4 (Set.Iio bound))
    (h : Storing uuid4 bound c vms.length s) (hc : ∀ vm ∈ vms, vm.connectionId = c)
    (hs : ∀ vm ∈ vms, vm.storable = true) : ∃ s', upsertAll uuid4 c t vms s = .ok s' := by
  induction vms generalizing s with
  | nil => exact ⟨s,rfl⟩
  | cons vm vms ih =>
    have hvm := hc vm List.mem_cons_self
    subst hvm
    rw [List.length_cons] at h
    obtain ⟨mid,hone⟩ := upsertOne_isOk (t := t) h (hs vm List.mem_cons_self)
    obtain ⟨s',hrest⟩ := ih (Storing.step hinj h hone)
      (fun v hv => hc v (List.mem_cons_of_mem _ hv)) fun v hv => hs v (List.mem_cons_of_mem _ hv)
    exact ⟨s',by rw [upsertAll,hone]; exact hrest⟩

end

/-- One collection of a connection: its batch, its clock reading and the identifiers it draws. -/
structure UpsertCall where
  uuid4 : ℕ → UUID
  connectionId : UUID
  vms : List VirtualMachine
  observedAt : Timestamp

namespace UpsertCall

def run (call : UpsertCall) (db : Database) : Except Exc (UpsertResult × Database) :=
  upsertVirtualMachines call.uuid4 db call.connectionId call.vms call.observedAt

def runPart (call : UpsertCall) (part : List VirtualMachine) (db : Database) :
    Except Exc UpsertState :=
  upsertAll call.uuid4 call.connectionId call.observedAt part ⟨db,0,⟨0,0,0⟩⟩

def keys (call : UpsertCall) : List (UUID × String) := call.vms.map VirtualMachine.key

/-- Every machine carries the connection of its call, as the readers build them. -/
def Carried (call : UpsertCall) : Prop := ∀ vm ∈ call.vms, vm.connectionId = call.connectionId

end UpsertCall

def runCalls : List UpsertCall → Database → Except Exc Database
  | [], db => .ok db
  | call::calls, db => do
    let after ← call.run db
    runCalls calls after.2

/-- One machine row per key, and machine rows and identity rows of the first rule in
bijection through the resource identifier. -/
structure LockStep (db : Database) : Prop where
  oneRow : ∀ r ∈ db.virtualMachines.rows, ∀ q ∈ db.virtualMachines.rows,
    r.connectionId = q.connectionId → r.nativeId = q.nativeId → r = q
  identityOfRow : ∀ r ∈ db.virtualMachines.rows, ∃! i, i ∈ db.resourceIdentities.rows ∧
    i.rule = 1 ∧ i.resourceId = r.resourceId
  rowOfIdentity : ∀ i ∈ db.resourceIdentities.rows, i.rule = 1 →
    ∃! r, r ∈ db.virtualMachines.rows ∧ r.resourceId = i.resourceId
  keyValue : ∀ r ∈ db.virtualMachines.rows, ∀ i ∈ db.resourceIdentities.rows, i.rule = 1 →
    i.resourceId = r.resourceId → i.keyValue = r.connectionId.str ++ ":" ++ r.nativeId

section
variable {db db' start : Database} {call : UpsertCall} {calls : List UpsertCall}

theorem StoreInvariant.of_empty (hv : db.virtualMachines.rows = [])
    (hi : db.resourceIdentities.rows = []) : StoreInvariant db :=
  ⟨by simp [hv],by simp [hv,hi],by simp [hv]⟩

theorem StoreInvariant.lockStep (h : StoreInvariant db) : LockStep db := by
  refine ⟨fun r hr q hq hc hn => h.unique r hr q hq (Prod.ext hc hn),?_,?_,?_⟩
  · intro r hr
    refine ⟨identityOf r,⟨(h.identities _).mpr ⟨r,hr,rfl⟩,rfl,rfl⟩,?_⟩
    rintro i ⟨hi,_,hid⟩
    obtain ⟨q,hq,rfl⟩ := (h.identities i).mp hi
    have hqr : q = r := db.virtualMachines.eq_of_key_eq hq hr hid
    rw [hqr]
  · intro i hi _
    obtain ⟨r,hr,rfl⟩ := (h.identities i).mp hi
    exact ⟨r,⟨hr,rfl⟩,fun q hq => db.virtualMachines.eq_of_key_eq hq.1 hr hq.2⟩
  · intro r hr i hi _ hid
    obtain ⟨q,hq,rfl⟩ := (h.identities i).mp hi
    have hqr : q = r := db.virtualMachines.eq_of_key_eq hq hr hid
    rw [hqr]
    rfl

theorem UpsertCall.run_ok (h : StoreInvariant db) (hc : call.Carried) {result : UpsertResult}
    (hr : call.run db = .ok (result,db')) : Upserted db db' call.keys ∧
      result.created = (newKeys db call.keys).card ∧
      result.created+result.updated+result.unchanged = call.vms.length := by
  obtain ⟨s,hs,he⟩ := bind_eq_ok.mp hr
  cases he
  obtain ⟨hu,hcreated,hsum⟩ := upsertAll_ok h hc hs
  exact ⟨hu,by simpa [UpsertCall.keys] using hcreated,by simpa using hsum⟩

/-- Any number of calls: what one call preserves, by induction over the calls. -/
theorem runCalls_ok (h : StoreInvariant start) (hc : ∀ call ∈ calls, call.Carried)
    (hr : runCalls calls start = .ok db) : Upserted start db (calls.flatMap UpsertCall.keys) := by
  induction calls generalizing start with
  | nil =>
    cases hr
    exact Upserted.refl h
  | cons call calls ih =>
    obtain ⟨after,hone,hrest⟩ := bind_eq_ok.mp hr
    have hu := (UpsertCall.run_ok h (hc call List.mem_cons_self) hone).1
    rw [List.flatMap_cons]
    exact hu.trans (ih hu.invariant (fun c hm => hc c (List.mem_cons_of_mem _ hm)) hrest)

theorem runCalls_append {earlier later : List UpsertCall} :
    runCalls (earlier ++ later) start = (runCalls earlier start) >>= runCalls later := by
  induction earlier generalizing start with
  | nil => rfl
  | cons call earlier ih =>
    simp only [List.cons_append,runCalls]
    cases call.run start with
    | error e => rfl
    | ok after => exact ih

theorem UpsertCall.runPart_invariant (h : StoreInvariant db) (hc : call.Carried)
    {part rest : List VirtualMachine} (hp : call.vms = part ++ rest) {s : UpsertState}
    (hs : call.runPart part db = .ok s) : StoreInvariant s.db := by
  have hpart : ∀ vm ∈ part, vm.connectionId = call.connectionId := by
    intro vm hm
    exact hc vm (by rw [hp]; exact List.mem_append_left _ hm)
  exact (upsertAll_ok h hpart hs).1.invariant

theorem UpsertCall.run_isOk (h : StoreInvariant db) (hc : call.Carried)
    (hs : ∀ vm ∈ call.vms, vm.storable = true)
    (hconn : (db.connections.find? call.connectionId).isSome)
    (hinj : Set.InjOn call.uuid4 (Set.Iio call.vms.length))
    (hfresh : ∀ n < call.vms.length, ∀ r ∈ db.virtualMachines.rows,
      r.resourceId ≠ call.uuid4 n) :
    ∃ result db', call.run db = .ok (result,db') := by
  obtain ⟨s,hall⟩ := upsertAll_isOk (t := call.observedAt) (s := ⟨db,0,⟨0,0,0⟩⟩) hinj
    ⟨h,hconn,by simp,fun n _ => hfresh n⟩ hc hs
  exact ⟨s.result,s.db,bind_eq_ok.mpr ⟨s,hall,rfl⟩⟩

/-- The machine store after any sequence of collections on an empty store. -/
theorem upsert_calls_keep_store (start : Database) (hvms : start.virtualMachines.rows = [])
    (hids : start.resourceIdentities.rows = []) (before : List UpsertCall) (call : UpsertCall)
    (hcarried : ∀ c ∈ before ++ [call], c.Carried) (db : Database)
    (hbefore : runCalls before start = .ok db) :
    (∀ result db', call.run db = .ok (result,db') →
      LockStep db' ∧
      (∀ c ∈ before ++ [call], ∀ vm ∈ c.vms, ∃ r ∈ db'.virtualMachines.rows,
        r.connectionId = vm.connectionId ∧ r.nativeId = vm.nativeId) ∧
      (∀ r, r.key ∉ call.keys → (r ∈ db'.virtualMachines.rows ↔ r ∈ db.virtualMachines.rows)) ∧
      (∀ earlier later mid, before = earlier ++ later → runCalls earlier start = .ok mid →
        ∀ r ∈ mid.virtualMachines.rows, ∃ q ∈ db'.virtualMachines.rows,
          q.key = r.key ∧ q.resourceId = r.resourceId ∧ q.firstSeenAt = r.firstSeenAt) ∧
      result.created+result.updated+result.unchanged = call.vms.length ∧
      result.created = (call.keys.toFinset.filter fun k =>
        ∀ r ∈ db.virtualMachines.rows, r.key ≠ k).card) ∧
    (∀ part vm rest s, call.vms = part ++ vm::rest → call.runPart part db = .ok s →
      ¬ Ambiguous s.db vm ∧ ¬ RowMissing s.db vm) ∧
    ((∀ vm ∈ call.vms, vm.storable = true) →
      (start.connections.find? call.connectionId).isSome →
      Set.InjOn call.uuid4 (Set.Iio call.vms.length) →
      (∀ n < call.vms.length, ∀ r ∈ db.virtualMachines.rows, r.resourceId ≠ call.uuid4 n) →
      ∃ result db', call.run db = .ok (result,db')) := by
  have hstart := StoreInvariant.of_empty hvms hids
  have hearlier : ∀ c ∈ before, c.Carried := fun c hm => hcarried c (List.mem_append_left _ hm)
  have hcall : call.Carried := hcarried call (by simp)
  have hdb := runCalls_ok hstart hearlier hbefore
  refine ⟨fun result db' hrun => ?_,fun part vm rest s hp hs => ?_,fun hs hconn hinj hfresh => ?_⟩
  · obtain ⟨hu,hcreated,hsum⟩ := UpsertCall.run_ok hdb.invariant hcall hrun
    have hall := hdb.trans hu
    refine ⟨hu.invariant.lockStep,fun c hm vm hv => ?_,hu.frame,?_,hsum,?_⟩
    · have hkey : vm.key ∈ before.flatMap UpsertCall.keys ++ call.keys := by
        rcases List.mem_append.mp hm with hm | hm
        · exact List.mem_append_left _ (List.mem_flatMap.mpr ⟨c,hm,List.mem_map_of_mem hv⟩)
        · rw [List.mem_singleton] at hm
          subst hm
          exact List.mem_append_right _ (List.mem_map_of_mem hv)
      obtain ⟨r,hr,hk⟩ := hall.covered _ hkey
      exact ⟨r,hr,congrArg Prod.fst hk,congrArg Prod.snd hk⟩
    · intro earlier later mid he hmid r hr
      subst he
      rw [runCalls_append] at hbefore
      obtain ⟨mid',hmid',hlater⟩ := bind_eq_ok.mp hbefore
      cases hmid.symm.trans hmid'
      have hm := runCalls_ok hstart (fun c hc => hearlier c (List.mem_append_left _ hc)) hmid
      have hl := runCalls_ok hm.invariant (fun c hc => hearlier c (List.mem_append_right _ hc))
        hlater
      exact (hl.trans hu).kept r hr
    · rw [hcreated,newKeys]
      congr 2
      funext k
      simp [present]
  · have hinv := UpsertCall.runPart_invariant hdb.invariant hcall hp hs
    exact ⟨not_ambiguous hinv vm,not_rowMissing hinv vm⟩
  · exact UpsertCall.run_isOk hdb.invariant hcall hs (by rw [hdb.connections]; exact hconn) hinj
      hfresh

end

/-- A store with one connection and no machine. -/
def emptyStore : Database where
  connections := ⟨[{
    connectionId := 7, kind := .vcenter, displayName := "vc", address := "vc.local", port := 443,
    username := "reader", passwordEncrypted := "x", verifyTls := true, protocol := .https,
    authMethod := none, sessionConfiguration := none, status := .active, createdAt := 0,
    updatedAt := 0 }],by decide⟩
  virtualMachines := Table.empty
  resourceIdentities := Table.empty
  users := Table.empty
  userConnectionScopes := Table.empty
  auditEvents := []

/-- A batch that names the machine `vm-1` twice, under two names. -/
def twiceNamed : UpsertCall where
  uuid4 := fun n => BitVec.ofNat 128 (n+100)
  connectionId := 7
  vms := [⟨0,7,"vm-1","web",.active,none,none,none,.on,.connected,⟨2,none,none⟩,⟨4096⟩,{},
      { availability := .unknown },none⟩,
    ⟨0,7,"vm-1","web-renamed",.active,none,none,none,.on,.connected,⟨2,none,none⟩,⟨4096⟩,{},
      { availability := .unknown },none⟩]
  observedAt := 1000

theorem twiceNamed_carried : twiceNamed.Carried := by
  intro vm hm
  simp only [twiceNamed,List.mem_cons,List.not_mem_nil,or_false] at hm ⊢
  rcases hm with rfl | rfl <;> rfl

theorem twiceNamed_isOk : ∃ result db, twiceNamed.run emptyStore = .ok (result,db) := by
  apply UpsertCall.run_isOk (StoreInvariant.of_empty rfl rfl) twiceNamed_carried
  · decide
  · rfl
  · intro m hm n hn he
    simp only [twiceNamed,Set.mem_Iio,List.length_cons,List.length_nil] at hm hn he
    have hv := congrArg BitVec.toNat he
    simp only [BitVec.toNat_ofNat] at hv
    omega
  · intro n _ r hr
    cases hr

theorem upsert_calls_keep_store_twice : ∃ result db, twiceNamed.run emptyStore = .ok (result,db) ∧
    LockStep db ∧ result.created = 1 ∧ result.updated+result.unchanged = 1 := by
  obtain ⟨result,db,hrun⟩ := twiceNamed_isOk
  have hcarried : ∀ c ∈ [] ++ [twiceNamed], c.Carried := by
    intro c hc
    simp only [List.nil_append,List.mem_singleton] at hc
    subst hc
    exact twiceNamed_carried
  have h := (upsert_calls_keep_store emptyStore rfl rfl [] twiceNamed hcarried emptyStore rfl).1
    result db hrun
  have hsum : result.created+result.updated+result.unchanged = 2 := h.2.2.2.2.1
  have hcreated : result.created = 1 := h.2.2.2.2.2.trans (by decide)
  exact ⟨result,db,hrun,h.1,hcreated,by omega⟩

end VirtualMachineRepository
end WzonePortal
