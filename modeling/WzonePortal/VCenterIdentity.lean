import WzonePortal.VCenterMapper
import WzonePortal.VmUpsertHistory

/-! Which row an observation of a vCenter machine ends in. The store keeps one row per native
identifier, and the mapper chooses the native identifier by what an observation happens to
contain, so one machine ends in one row exactly if its instance UUID is always or never read. -/
namespace WzonePortal
namespace VirtualMachineRepository

def writtenId (uuid4 : ℕ → UUID) (s : UpsertState) (vm : VirtualMachine) : UUID :=
  match findByIdentity s.db (buildVmIdentityKeys vm) with
  | .ok (some m) => m.resourceId
  | _ => uuid4 s.drawn

section
variable {α : Type}

/-- The resource that each machine of a batch is written to, under the label it came with. -/
def endings (uuid4 : ℕ → UUID) (connectionId : UUID) (observedAt : Timestamp) :
    List (α × VirtualMachine) → UpsertState → List (α × UUID)
  | [], _ => []
  | (a,vm)::vms, s => (a,writtenId uuid4 s vm)::(match upsertOne uuid4 connectionId observedAt s vm with
    | .ok s => endings uuid4 connectionId observedAt vms s
    | .error _ => [])

/-- The machine has a row, and the ending is that row. -/
def EndsIn (db : Database) (machine : α × VirtualMachine) (ending : α × UUID) : Prop :=
  ending.1 = machine.1 ∧ ∃ r ∈ db.virtualMachines.rows, r.key = machine.2.key ∧
    r.resourceId = ending.2

variable {db db' : Database} {uuid4 : ℕ → UUID} {c : UUID} {t : Timestamp} {s s' : UpsertState}
  {vm : VirtualMachine} {machines : List (α × VirtualMachine)} {ends : List (α × UUID)}

theorem endsIn_kept {keys : List (UUID × String)} (h : Upserted db db' keys)
    (hends : List.Forall₂ (EndsIn db) machines ends) : List.Forall₂ (EndsIn db') machines ends := by
  refine hends.imp fun machine ending hend => ⟨hend.1,?_⟩
  obtain ⟨_,r,hr,hkey,hid⟩ := hend
  obtain ⟨q,hq,hqkey,hqid,_⟩ := h.kept r hr
  exact ⟨q,hq,hqkey.trans hkey,hqid.trans hid⟩

theorem endsIn_upsertOne (h : StoreInvariant s.db)
    (hs : upsertOne uuid4 vm.connectionId t s vm = .ok s') (a : α) :
    EndsIn s'.db (a,vm) (a,writtenId uuid4 s vm) := by
  refine ⟨rfl,?_⟩
  have hu := (upsertOne_ok h hs).1
  rcases upsertOne_cases hs with hi | ⟨m,changed,hupdated⟩
  · obtain ⟨mid,hinsert,hsync⟩ := hi.stored
    obtain ⟨_,_,_,hrows,_⟩ := insertVm_ok hinsert
    refine ⟨newRow (uuid4 s.drawn) vm t,?_,rfl,by rw [writtenId,hi.missing]; rfl⟩
    rw [(syncIdentities_ok hsync).1,hrows]
    exact List.mem_append_right _ (List.mem_singleton.mpr rfl)
  · obtain ⟨r,hr,hk,hid⟩ := hupdated.row h
    obtain ⟨q,hq,hqkey,hqid,_⟩ := hu.kept r hr
    refine ⟨q,hq,hqkey.trans hk,?_⟩
    rw [writtenId,hupdated.found]
    exact hqid.trans hid

/-- A batch: what one machine does, by induction over the machines. -/
theorem endsIn_upsertAll (h : StoreInvariant s.db) (hc : ∀ m ∈ machines, m.2.connectionId = c)
    (hs : upsertAll uuid4 c t (machines.map Prod.snd) s = .ok s') :
    List.Forall₂ (EndsIn s'.db) machines (endings uuid4 c t machines s) := by
  induction machines generalizing s with
  | nil => exact .nil
  | cons machine machines ih =>
    obtain ⟨a,vm⟩ := machine
    obtain ⟨mid,hone,hrest⟩ := bind_eq_ok.mp hs
    have hvm : vm.connectionId = c := hc (a,vm) List.mem_cons_self
    have hothers : ∀ m ∈ machines, m.2.connectionId = c :=
      fun m hm => hc m (List.mem_cons_of_mem _ hm)
    have hone' : upsertOne uuid4 vm.connectionId t s vm = .ok mid := hvm ▸ hone
    have hmid := (upsertOne_ok h hone').1.invariant
    have hvms : ∀ v ∈ machines.map Prod.snd, v.connectionId = c := by
      intro v hv
      obtain ⟨m,hm,rfl⟩ := List.mem_map.mp hv
      exact hothers m hm
    have hall := (upsertAll_ok hmid hvms hrest).1
    rw [endings,hone]
    exact .cons (List.forall₂_cons.mp (endsIn_kept hall
      (.cons (endsIn_upsertOne h hone' a) .nil))).1 (ih hmid hothers hrest)

end
end VirtualMachineRepository

namespace VCenter

open VirtualMachineRepository

/-- A batch of a collection, as the mapper and the store get it. -/
structure Batch where
  objects : List ObjectContent
  readAt : Timestamp
  observedAt : Timestamp
  mapped : ℕ → UUID
  uuid4 : ℕ → UUID

namespace Batch

def machines (c : UUID) (b : Batch) : List (ObjectContent × VirtualMachine) :=
  b.objects.mapIdx fun n o =>
    (o,mapVirtualMachine (b.mapped n) c o.moId (propsToDict o) b.readAt)

def call (c : UUID) (b : Batch) : UpsertCall where
  uuid4 := b.uuid4
  connectionId := c
  vms := (b.machines c).map Prod.snd
  observedAt := b.observedAt

def endings (c : UUID) (b : Batch) (db : Database) : List (ObjectContent × UUID) :=
  VirtualMachineRepository.endings b.uuid4 c b.observedAt (b.machines c) ⟨db,0,⟨0,0,0⟩⟩

end Batch

/-- The batches of all collections of a connection that were committed, oldest first; the
batches of a collection that is rolled back are not among them. -/
def store (c : UUID) (batches : List Batch) (db : Database) : Except Exc Database :=
  runCalls (batches.map (Batch.call c)) db

def allEndings (c : UUID) : List Batch → Database → List (ObjectContent × UUID)
  | [], _ => []
  | b::batches, db => b.endings c db ++ (match (b.call c).run db with
    | .ok after => allEndings c batches after.2
    | .error _ => [])

/-- All observations of one machine end in one row of the store. -/
def OneRow (c : UUID) (batches : List Batch) (start db : Database) (moid : String) : Prop :=
  ∀ e ∈ allEndings c batches start, ∀ e' ∈ allEndings c batches start,
    e.1.moId = moid → e'.1.moId = moid →
      ∃ r ∈ db.virtualMachines.rows, r.resourceId = e.2 ∧ r.resourceId = e'.2

def observations (batches : List Batch) : List ObjectContent := batches.flatMap (·.objects)

/-- The instance UUID of a machine never changes: where it is read, it is the same. -/
def FixedUuid (instanceUuid : String → String) (batches : List Batch) : Prop :=
  ∀ o ∈ observations batches, ∀ w : String, ⟨.instanceUuid,w⟩ ∈ o.propSet → w = instanceUuid o.moId

/-- The observation contains the instance UUID. -/
def ReadsUuid (o : ObjectContent) : Prop :=
  .instanceUuid ∉ o.missingSet ∧ ∃ w : String, ⟨.instanceUuid,w⟩ ∈ o.propSet

/-- The instance UUID is read always or never, or it would not make a difference. -/
def Alike (instanceUuid : String → String) (batches : List Batch) (moid : String) : Prop :=
  instanceUuid moid = "" ∨ instanceUuid moid = moid ∨
    (∀ o ∈ observations batches, o.moId = moid → ReadsUuid o) ∨
    (∀ o ∈ observations batches, o.moId = moid → ¬ ReadsUuid o)

def nativeId (o : ObjectContent) : String := textOr o.moId (propsToDict o .instanceUuid)

section
variable {c : UUID} {batches : List Batch} {start db : Database} {instanceUuid : String → String}
  {o : ObjectContent} {moid : String}

theorem machines_connectionId {b : Batch} : ∀ m ∈ b.machines c, m.2.connectionId = c := by
  intro m hm
  obtain ⟨n,hn,rfl⟩ := List.mem_mapIdx.mp hm
  rfl

theorem machines_key {b : Batch} {m : ObjectContent × VirtualMachine} (hm : m ∈ b.machines c) :
    m.2.key = (c,nativeId m.1) := by
  obtain ⟨n,hn,rfl⟩ := List.mem_mapIdx.mp hm
  rfl

theorem machines_objects (b : Batch) : (b.machines c).map Prod.fst = b.objects := by
  refine List.ext_getElem? fun i => ?_
  simp only [Batch.machines,List.getElem?_map,List.getElem?_mapIdx,Option.map_map]
  cases b.objects[i]? <;> rfl

theorem carried (b : Batch) : (b.call c).Carried := by
  intro vm hvm
  obtain ⟨m,hm,rfl⟩ := List.mem_map.mp hvm
  exact machines_connectionId m hm

theorem endsIn_invariant (h : StoreInvariant start) (hr : store c batches start = .ok db) :
    StoreInvariant db := by
  refine (runCalls_ok h ?_ hr).invariant
  intro call hcall
  obtain ⟨b,_,rfl⟩ := List.mem_map.mp hcall
  exact carried b

theorem endsIn_store (h : StoreInvariant start) (hr : store c batches start = .ok db) :
    List.Forall₂ (EndsIn db) (batches.flatMap (Batch.machines c)) (allEndings c batches start) := by
  induction batches generalizing start with
  | nil => exact .nil
  | cons b batches ih =>
    obtain ⟨after,hone,hrest⟩ := bind_eq_ok.mp hr
    obtain ⟨s,hs,he⟩ := bind_eq_ok.mp hone
    cases he
    have hu := (UpsertCall.run_ok h (carried b) hone).1
    have hlater : ∀ call ∈ batches.map (Batch.call c), call.Carried := by
      intro call hcall
      obtain ⟨b',_,rfl⟩ := List.mem_map.mp hcall
      exact carried b'
    rw [List.flatMap_cons,allEndings,hone]
    refine List.rel_append ?_ (ih hu.invariant hrest)
    exact endsIn_kept (runCalls_ok hu.invariant hlater hrest)
      (endsIn_upsertAll (s:=⟨start,0,⟨0,0,0⟩⟩) h machines_connectionId hs)

theorem exists_of_mem_left {α β : Type} {R : α → β → Prop} {l : List α} {l' : List β}
    (h : List.Forall₂ R l l') {a : α} (ha : a ∈ l) : ∃ b ∈ l', R a b := by
  induction h with
  | nil => cases ha
  | cons hab _ ih =>
    rcases List.mem_cons.mp ha with rfl | ha
    · exact ⟨_,List.mem_cons_self,hab⟩
    · obtain ⟨b,hb,hr⟩ := ih ha
      exact ⟨b,List.mem_cons_of_mem _ hb,hr⟩

theorem mem_allEndings (h : StoreInvariant start) (hr : store c batches start = .ok db)
    {e : ObjectContent × UUID} (he : e ∈ allEndings c batches start) :
    e.1 ∈ observations batches ∧ ∃ r ∈ db.virtualMachines.rows, r.key = (c,nativeId e.1) ∧
      r.resourceId = e.2 := by
  obtain ⟨m,hm,hfst,r,hr,hkey,hid⟩ := exists_of_mem_left (endsIn_store h hr).flip he
  obtain ⟨b,hb,hm⟩ := List.mem_flatMap.mp hm
  rw [machines_key hm] at hkey
  rw [hfst]
  refine ⟨List.mem_flatMap.mpr ⟨b,hb,?_⟩,r,hr,hkey,hid⟩
  rw [← machines_objects b]
  exact List.mem_map_of_mem hm

theorem exists_ending (h : StoreInvariant start) (hr : store c batches start = .ok db)
    (ho : o ∈ observations batches) : ∃ e ∈ allEndings c batches start, e.1 = o := by
  obtain ⟨b,hb,ho⟩ := List.mem_flatMap.mp ho
  rw [← machines_objects (c:=c) b] at ho
  obtain ⟨m,hm,rfl⟩ := List.mem_map.mp ho
  obtain ⟨e,he,hfst,_⟩ := exists_of_mem_left (endsIn_store h hr)
    (List.mem_flatMap.mpr ⟨b,hb,hm⟩)
  exact ⟨e,he,hfst⟩

theorem oneRow_iff (h : StoreInvariant start) (hr : store c batches start = .ok db) :
    OneRow c batches start db moid ↔ ∀ o ∈ observations batches, ∀ o' ∈ observations batches,
      o.moId = moid → o'.moId = moid → nativeId o = nativeId o' := by
  constructor
  · intro hone o ho o' ho' hm hm'
    obtain ⟨e,he,rfl⟩ := exists_ending h hr ho
    obtain ⟨e',he',rfl⟩ := exists_ending h hr ho'
    obtain ⟨r,hr₀,hid,hid'⟩ := hone e he e' he' hm hm'
    obtain ⟨_,q,hq,hkey,hqid⟩ := mem_allEndings h hr he
    obtain ⟨_,q',hq',hkey',hqid'⟩ := mem_allEndings h hr he'
    have hqr : q = r := db.virtualMachines.eq_of_key_eq hq hr₀ (hqid.trans hid.symm)
    have hqr' : q' = r := db.virtualMachines.eq_of_key_eq hq' hr₀ (hqid'.trans hid'.symm)
    rw [hqr] at hkey
    rw [hqr'] at hkey'
    exact congrArg Prod.snd (hkey.symm.trans hkey')
  · intro hsame e he e' he' hm hm'
    obtain ⟨ho,r,hr₀,hkey,hid⟩ := mem_allEndings h hr he
    obtain ⟨ho',r',hr₀',hkey',hid'⟩ := mem_allEndings h hr he'
    rw [hsame e.1 ho e'.1 ho' hm hm',← hkey'] at hkey
    have hunique := (endsIn_invariant h hr).unique r hr₀ r' hr₀' hkey
    exact ⟨r,hr₀,hid,by rw [hunique]; exact hid'⟩

theorem nativeId_eq (hfixed : FixedUuid instanceUuid batches) (ho : o ∈ observations batches) :
    (ReadsUuid o → nativeId o = textOr o.moId (some (instanceUuid o.moId))) ∧
      (¬ ReadsUuid o → nativeId o = o.moId) := by
  have hset := setProps_apply (p:=.instanceUuid) o.propSet (hfixed o ho)
  simp only [nativeId,propsToDict,clearProps_apply]
  constructor
  · rintro ⟨hmissing,hread⟩
    rw [if_neg hmissing,hset.1 hread]
  · intro hreads
    split
    · rfl
    · rename_i hmissing
      rw [hset.2 fun hread => hreads ⟨hmissing,hread⟩]
      rfl

theorem nativeId_eq_iff (hfixed : FixedUuid instanceUuid batches) :
    (∀ o ∈ observations batches, ∀ o' ∈ observations batches,
      o.moId = moid → o'.moId = moid → nativeId o = nativeId o') ↔
      Alike instanceUuid batches moid := by
  have hread : ∀ o ∈ observations batches, o.moId = moid → ReadsUuid o →
      nativeId o = textOr moid (some (instanceUuid moid)) := by
    rintro o ho rfl hreads
    exact (nativeId_eq hfixed ho).1 hreads
  have hunread : ∀ o ∈ observations batches, o.moId = moid → ¬ ReadsUuid o → nativeId o = moid := by
    rintro o ho rfl hreads
    exact (nativeId_eq hfixed ho).2 hreads
  constructor
  · intro hsame
    by_cases hempty : instanceUuid moid = ""
    · exact .inl hempty
    by_cases hmoid : instanceUuid moid = moid
    · exact .inr (.inl hmoid)
    by_cases hall : ∀ o ∈ observations batches, o.moId = moid → ReadsUuid o
    · exact .inr (.inr (.inl hall))
    refine .inr (.inr (.inr fun o ho hm hreads => ?_))
    push Not at hall
    obtain ⟨o',ho',hm',hreads'⟩ := hall
    have heq := hsame o ho o' ho' hm hm'
    rw [hread o ho hm hreads,hunread o' ho' hm' hreads',textOr_some,if_neg hempty] at heq
    exact hmoid heq
  · intro halike o ho o' ho' hm hm'
    have hmoid : (instanceUuid moid = "" ∨ instanceUuid moid = moid) →
        ∀ o ∈ observations batches, o.moId = moid → nativeId o = moid := by
      intro hsmall o ho hm
      by_cases hreads : ReadsUuid o
      · rw [hread o ho hm hreads,textOr_some]
        rcases hsmall with hempty | hsame
        · exact if_pos hempty
        · rw [hsame,ite_self]
      · exact hunread o ho hm hreads
    rcases halike with hempty | hsame | hall | hnone
    · exact (hmoid (.inl hempty) o ho hm).trans (hmoid (.inl hempty) o' ho' hm').symm
    · exact (hmoid (.inr hsame) o ho hm).trans (hmoid (.inr hsame) o' ho' hm').symm
    · exact (hread o ho hm (hall o ho hm)).trans (hread o' ho' hm' (hall o' ho' hm')).symm
    · exact (hunread o ho hm (hnone o ho hm)).trans (hunread o' ho' hm' (hnone o' ho' hm')).symm

end

/-- For every sequence of batches of a connection with fixed instance UUIDs: the observations of
a machine end in one row exactly if its instance UUID is read in all of them or in none, is
empty, or is its reference. -/
theorem one_row_iff_alike (c : UUID) (start : Database) (hstart : StoreInvariant start)
    (batches : List Batch) (instanceUuid : String → String)
    (hfixed : FixedUuid instanceUuid batches) (db : Database)
    (hr : store c batches start = .ok db) (moid : String) :
    OneRow c batches start db moid ↔ Alike instanceUuid batches moid :=
  (oneRow_iff hstart hr).trans (nativeId_eq_iff hfixed)

/-- A machine whose instance UUID is read, and the same machine with the property missing. -/
def readObject : ObjectContent where
  moId := "vm-1042"
  propSet := [⟨.name,"web-01"⟩,⟨.instanceUuid,"5001-instance"⟩]
  missingSet := []

def unreadObject : ObjectContent where
  moId := "vm-1042"
  propSet := [⟨.name,"web-01"⟩]
  missingSet := [.instanceUuid]

def batchOf (o : ObjectContent) (n : ℕ) : Batch where
  objects := [o]
  readAt := n
  observedAt := n
  mapped := fun k => BitVec.ofNat 128 (1000*n+k)
  uuid4 := fun k => BitVec.ofNat 128 (1000*n+500+k)

theorem batchOf_fixed {batches : List Batch}
    (hall : ∀ o ∈ observations batches, o = readObject ∨ o = unreadObject) :
    FixedUuid (fun _ => "5001-instance") batches := by
  intro o ho w hw
  rcases hall o ho with rfl | rfl
  · simp only [readObject,List.mem_cons,DynamicProperty.mk.injEq,List.not_mem_nil,or_false,
      reduceCtorEq,false_and,false_or,true_and] at hw
    exact eq_of_heq hw
  · simp [unreadObject] at hw

theorem batchOf_isOk {db : Database} {o : ObjectContent} {n : ℕ} (h : StoreInvariant db)
    (hconn : (db.connections.find? 7).isSome)
    (hs : ∀ vm ∈ ((batchOf o n).call 7).vms, vm.storable = true)
    (hfresh : ∀ r ∈ db.virtualMachines.rows, r.resourceId ≠ BitVec.ofNat 128 (1000*n+500)) :
    ∃ result db', ((batchOf o n).call 7).run db = .ok (result,db') ∧ StoreInvariant db' ∧
      db'.connections = db.connections ∧ ∀ r ∈ db'.virtualMachines.rows,
        (∃ q ∈ db.virtualMachines.rows, q.resourceId = r.resourceId) ∨
          r.resourceId = BitVec.ofNat 128 (1000*n+500) := by
  have hinj : Set.InjOn ((batchOf o n).call 7).uuid4
      (Set.Iio ((batchOf o n).call 7).vms.length) := by
    intro i hi j hj _
    simp only [batchOf,Batch.call,Batch.machines,List.length_map,List.length_mapIdx,
      List.length_singleton,Set.mem_Iio] at hi hj
    omega
  have hnew : ∀ k < ((batchOf o n).call 7).vms.length, ∀ r ∈ db.virtualMachines.rows,
      r.resourceId ≠ ((batchOf o n).call 7).uuid4 k := by
    intro k hk
    simp only [batchOf,Batch.call,Batch.machines,List.length_map,List.length_mapIdx,
      List.length_singleton] at hk
    have hzero : k = 0 := by omega
    subst hzero
    exact hfresh
  obtain ⟨result,db',hrun⟩ := UpsertCall.run_isOk h (carried _) hs hconn hinj hnew
  have hu := (UpsertCall.run_ok h (carried _) hrun).1
  refine ⟨result,db',hrun,hu.invariant,hu.connections,fun r hr => ?_⟩
  obtain ⟨s,hs,he⟩ := bind_eq_ok.mp hrun
  cases he
  obtain ⟨mid,hone,hrest⟩ := bind_eq_ok.mp hs
  cases hrest
  exact ((upsertOne_ids h hone).2.2 r hr).imp_right And.right

theorem store_isOk {o : ObjectContent}
    (hs : ∀ vm ∈ ((batchOf o 2).call 7).vms, vm.storable = true) :
    ∃ db, store 7 [batchOf readObject 1,batchOf o 2] emptyStore = .ok db := by
  have hstart : StoreInvariant emptyStore := .of_empty rfl rfl
  obtain ⟨_,mid,hone,hmid,hconns,hrows⟩ := batchOf_isOk (o:=readObject) (n:=1) hstart rfl
    (by decide) fun r hr => by cases hr
  have hfresh : ∀ r ∈ mid.virtualMachines.rows, r.resourceId ≠ BitVec.ofNat 128 (1000*2+500) := by
    intro r hr
    rcases hrows r hr with ⟨q,hq,_⟩ | hid
    · cases hq
    · rw [hid]
      decide
  obtain ⟨_,db,htwo,_⟩ := batchOf_isOk hmid (by rw [hconns]; rfl) hs hfresh
  exact ⟨db,bind_eq_ok.mpr ⟨_,hone,bind_eq_ok.mpr ⟨_,htwo,rfl⟩⟩⟩

theorem mem_observations_two {o o' : ObjectContent} :
    o' ∈ observations [batchOf readObject 1,batchOf o 2] ↔ o' = readObject ∨ o' = o := by
  simp [observations,batchOf]

/-- The instance UUID is read in both collections. -/
theorem one_row_iff_alike_twice : ∃ db,
    store 7 [batchOf readObject 1,batchOf readObject 2] emptyStore = .ok db ∧
      OneRow 7 [batchOf readObject 1,batchOf readObject 2] emptyStore db "vm-1042" := by
  obtain ⟨db,hdb⟩ := store_isOk (o:=readObject) (by decide)
  have hfixed : FixedUuid (fun _ => "5001-instance")
      [batchOf readObject 1,batchOf readObject 2] :=
    batchOf_fixed fun o ho => .inl ((mem_observations_two.mp ho).elim id id)
  refine ⟨db,hdb,(one_row_iff_alike 7 emptyStore (.of_empty rfl rfl) _ _ hfixed db hdb _).mpr ?_⟩
  refine .inr (.inr (.inl fun o ho _ => ?_))
  rcases mem_observations_two.mp ho with rfl | rfl <;>
    exact ⟨by decide,"5001-instance",by simp [readObject]⟩

/-- The second collection misses the property, and the machine has two rows. -/
theorem missed_uuid_second_row : ∃ db,
    FixedUuid (fun _ => "5001-instance") [batchOf readObject 1,batchOf unreadObject 2] ∧
    store 7 [batchOf readObject 1,batchOf unreadObject 2] emptyStore = .ok db ∧
      ¬ OneRow 7 [batchOf readObject 1,batchOf unreadObject 2] emptyStore db "vm-1042" := by
  obtain ⟨db,hdb⟩ := store_isOk (o:=unreadObject) (by decide)
  refine ⟨db,batchOf_fixed fun o ho => mem_observations_two.mp ho,hdb,fun hone => ?_⟩
  have hsame := (oneRow_iff (.of_empty rfl rfl) hdb).mp hone readObject
    (mem_observations_two.mpr (.inl rfl)) unreadObject (mem_observations_two.mpr (.inr rfl)) rfl rfl
  exact absurd hsame (by decide)

end VCenter
end WzonePortal
