import WzonePortal.VmRepository

/-! The machine store over whole runs of upserts. Identity rows are a function of the
current machine rows, so every lookup finds the one row of its key or nothing. -/
namespace WzonePortal

/-- Connection and native identifier: what makes a machine the same machine. -/
def VirtualMachineRow.key (r : VirtualMachineRow) : UUID × String := (r.connectionId,r.nativeId)

def VirtualMachine.key (vm : VirtualMachine) : UUID × String := (vm.connectionId,vm.nativeId)

/-- All columns of the machine fit their column types. -/
def VirtualMachine.storable (vm : VirtualMachine) : Bool :=
  (VirtualMachineRepository.newRow 0 vm 0).storable

namespace VirtualMachineRepository

def identityOf (r : VirtualMachineRow) : ResourceIdentityRow :=
  identityRow r.resourceId r.connectionId ⟨.native,nativeKeyValue r.connectionId r.nativeId⟩

structure StoreInvariant (db : Database) : Prop where
  unique : ∀ r ∈ db.virtualMachines.rows, ∀ q ∈ db.virtualMachines.rows, r.key = q.key → r = q
  identities : ∀ i, i ∈ db.resourceIdentities.rows ↔
    ∃ r ∈ db.virtualMachines.rows, i = identityOf r
  storable : ∀ r ∈ db.virtualMachines.rows, r.storable = true

/-- A key for which the lookup would find two rows or more. -/
def Ambiguous (db : Database) (vm : VirtualMachine) : Prop :=
  ∃ key ∈ buildVmIdentityKeys vm, 1 < (identityRows db key).length

/-- A match whose machine row does not exist. -/
def RowMissing (db : Database) (vm : VirtualMachine) : Prop :=
  ∃ m, findByIdentity db (buildVmIdentityKeys vm) = .ok (some m) ∧ loadVm db m.resourceId = none

theorem filter_eq_singleton {α : Type} {l : List α} (hl : l.Nodup) {p : α → Bool} {x : α}
    (hx : x ∈ l) (hp : ∀ y ∈ l, p y = true ↔ y = x) : l.filter p = [x] := by
  have hperm : (l.filter p).Perm [x] := by
    rw [List.perm_ext_iff_of_nodup (hl.filter p) (List.nodup_singleton x)]
    intro y
    simp only [List.mem_filter,List.mem_singleton]
    constructor
    · rintro ⟨hy,hpy⟩
      exact (hp y hy).mp hpy
    · rintro rfl
      exact ⟨hx,(hp y hx).mpr rfl⟩
  exact List.perm_singleton.mp hperm

section
variable {db db' : Database} {vm : VirtualMachine} {r : VirtualMachineRow}

theorem identityOf_matches (r : VirtualMachineRow) (vm : VirtualMachine) :
    ((identityOf r).rule = IdentityRule.native.value ∧
      (identityOf r).keyValue = nativeKeyValue vm.connectionId vm.nativeId) ↔ r.key = vm.key := by
  simp [identityOf,identityRow,nativeKeyValue_inj,VirtualMachineRow.key,VirtualMachine.key]

theorem identityRows_of_mem (h : StoreInvariant db) (hr : r ∈ db.virtualMachines.rows)
    (hk : r.key = vm.key) :
    identityRows db ⟨.native,nativeKeyValue vm.connectionId vm.nativeId⟩ = [identityOf r] := by
  apply filter_eq_singleton db.resourceIdentities.rows_nodup ((h.identities _).mpr ⟨r,hr,rfl⟩)
  intro i hi
  obtain ⟨q,hq,rfl⟩ := (h.identities i).mp hi
  rw [Bool.and_eq_true,decide_eq_true_eq,decide_eq_true_eq,identityOf_matches]
  constructor
  · intro hqk
    rw [h.unique q hq r hr (hqk.trans hk.symm)]
  · intro he
    rw [← hk]
    have hm := (identityOf_matches r vm).mpr hk
    rw [← he] at hm
    exact ((identityOf_matches q vm).mp hm).trans hk.symm

theorem identityRows_of_not_mem (h : StoreInvariant db)
    (hr : ∀ r ∈ db.virtualMachines.rows, r.key ≠ vm.key) :
    identityRows db ⟨.native,nativeKeyValue vm.connectionId vm.nativeId⟩ = [] := by
  rw [identityRows,List.filter_eq_nil_iff]
  intro i hi
  obtain ⟨q,hq,rfl⟩ := (h.identities i).mp hi
  rw [Bool.and_eq_true,decide_eq_true_eq,decide_eq_true_eq,identityOf_matches]
  exact hr q hq

theorem findByIdentity_eq (db : Database) (vm : VirtualMachine) :
    findByIdentity db (buildVmIdentityKeys vm) =
      findFirst db [⟨.native,nativeKeyValue vm.connectionId vm.nativeId⟩] := by
  simp [findByIdentity,buildVmIdentityKeys]

theorem findByIdentity_of_mem (h : StoreInvariant db) (hr : r ∈ db.virtualMachines.rows)
    (hk : r.key = vm.key) {found : Option IdentityMatch}
    (hf : findByIdentity db (buildVmIdentityKeys vm) = .ok found) :
    ∃ m, found = some m ∧ m.resourceId = r.resourceId := by
  rw [findByIdentity_eq,findFirst] at hf
  split at hf
  · cases hf
  · rw [identityRows_of_mem h hr hk] at hf
    cases hf
    exact ⟨_,rfl,rfl⟩

theorem findByIdentity_of_not_mem (h : StoreInvariant db)
    (hr : ∀ r ∈ db.virtualMachines.rows, r.key ≠ vm.key) {found : Option IdentityMatch}
    (hf : findByIdentity db (buildVmIdentityKeys vm) = .ok found) : found = none := by
  rw [findByIdentity_eq,findFirst] at hf
  split at hf
  · cases hf
  · rw [identityRows_of_not_mem h hr] at hf
    cases hf
    rfl

theorem not_ambiguous (h : StoreInvariant db) (vm : VirtualMachine) : ¬ Ambiguous db vm := by
  rintro ⟨key,hkey,hlt⟩
  simp only [buildVmIdentityKeys,List.mem_singleton] at hkey
  subst hkey
  by_cases hm : ∃ r ∈ db.virtualMachines.rows, r.key = vm.key
  · obtain ⟨r,hr,hk⟩ := hm
    rw [identityRows_of_mem h hr hk] at hlt
    simp at hlt
  · rw [identityRows_of_not_mem h fun r hr hk => hm ⟨r,hr,hk⟩] at hlt
    simp at hlt

theorem not_rowMissing (h : StoreInvariant db) (vm : VirtualMachine) : ¬ RowMissing db vm := by
  rintro ⟨m,hm,hload⟩
  by_cases hmem : ∃ r ∈ db.virtualMachines.rows, r.key = vm.key
  · obtain ⟨r,hr,hk⟩ := hmem
    obtain ⟨m',he,hid⟩ := findByIdentity_of_mem h hr hk hm
    cases he
    rw [loadVm,hid,Table.find?_of_mem hr] at hload
    cases hload
  · have hnone := findByIdentity_of_not_mem h (fun r hr hk => hmem ⟨r,hr,hk⟩) hm
    cases hnone

theorem checkRow_ok {row : VirtualMachineRow} {u : Unit} (h : checkRow db row = .ok u) :
    row.storable = true ∧ (∀ q ∈ db.virtualMachines.rows, q.resourceId ≠ row.resourceId →
      q.key ≠ row.key) ∧ (db.connections.find? row.connectionId).isSome := by
  unfold checkRow at h
  split_ifs at h with h1 h2 h3
  refine ⟨by simpa using h1,fun q hq hne hk => h2 ?_,by simpa [Option.isSome_iff_ne_none] using h3⟩
  rw [List.any_eq_true]
  have hkey : q.connectionId = row.connectionId ∧ q.nativeId = row.nativeId :=
    ⟨congrArg Prod.fst hk,congrArg Prod.snd hk⟩
  exact ⟨q,hq,by simp [hne,hkey.1,hkey.2]⟩

theorem insertVm_ok {id : UUID} {t : Timestamp} (h : insertVm db id vm t = .ok db') :
    id ∉ db.virtualMachines.rows.map (·.resourceId) ∧ (newRow id vm t).storable = true ∧
      (∀ q ∈ db.virtualMachines.rows, q.key ≠ vm.key) ∧
      db'.virtualMachines.rows = db.virtualMachines.rows ++ [newRow id vm t] ∧
      db'.resourceIdentities = db.resourceIdentities ∧ db'.connections = db.connections := by
  obtain ⟨_,hcheck,h⟩ := bind_eq_ok.mp h
  obtain ⟨hstorable,hkey,_⟩ := checkRow_ok hcheck
  split at h
  · cases h
  · rename_i vms hvms
    cases h
    obtain ⟨hid,hrows⟩ := Table.insert_eq_some.mp hvms
    refine ⟨hid,hstorable,fun q hq => hkey q hq fun he => hid ?_,hrows,rfl,rfl⟩
    exact List.mem_map.mpr ⟨q,hq,he⟩

theorem syncIdentities_ok {id c : UUID} {keys : List IdentityKey}
    (h : syncIdentities db id keys c = .ok db') :
    db'.virtualMachines = db.virtualMachines ∧ db'.connections = db.connections ∧
      ∀ i, i ∈ db'.resourceIdentities.rows ↔ (i ∈ db.resourceIdentities.rows ∧ i.resourceId ≠ id) ∨
        ∃ k ∈ keys, i = identityRow id c k := by
  unfold syncIdentities at h
  split at h
  · cases h
  · simp only at h
    split at h
    · cases h
    · rename_i identities hi
      cases h
      refine ⟨rfl,rfl,fun i => ?_⟩
      rw [((Table.insertAll_eq_some _ _ _).mp hi).2.2,List.mem_append,Table.mem_deleteWhere,
        List.mem_map]
      simp [eq_comm]

/-- What the processing of machines with the given keys does to the store. -/
structure Upserted (db db' : Database) (keys : List (UUID × String)) : Prop where
  invariant : StoreInvariant db'
  connections : db'.connections = db.connections
  covered : ∀ k ∈ keys, ∃ r ∈ db'.virtualMachines.rows, r.key = k
  kept : ∀ r ∈ db.virtualMachines.rows, ∃ q ∈ db'.virtualMachines.rows,
    q.key = r.key ∧ q.resourceId = r.resourceId ∧ q.firstSeenAt = r.firstSeenAt
  frame : ∀ r, r.key ∉ keys → (r ∈ db'.virtualMachines.rows ↔ r ∈ db.virtualMachines.rows)

theorem Upserted.refl (h : StoreInvariant db) : Upserted db db [] :=
  ⟨h,rfl,by simp,fun r hr => ⟨r,hr,rfl,rfl,rfl⟩,fun r _ => Iff.rfl⟩

theorem Upserted.trans {mid : Database} {ks ls : List (UUID × String)} (h : Upserted db mid ks)
    (h' : Upserted mid db' ls) : Upserted db db' (ks ++ ls) := by
  refine ⟨h'.invariant,h'.connections.trans h.connections,fun k hk => ?_,fun r hr => ?_,
    fun r hr => ?_⟩
  · rcases List.mem_append.mp hk with hk | hk
    · obtain ⟨r,hr,rfl⟩ := h.covered k hk
      obtain ⟨q,hq,he,_⟩ := h'.kept r hr
      exact ⟨q,hq,he⟩
    · exact h'.covered k hk
  · obtain ⟨q,hq,hkey,hid,hseen⟩ := h.kept r hr
    obtain ⟨p,hp,hkey',hid',hseen'⟩ := h'.kept q hq
    exact ⟨p,hp,hkey'.trans hkey,hid'.trans hid,hseen'.trans hseen⟩
  · rw [List.mem_append,not_or] at hr
    exact (h'.frame r hr.2).trans (h.frame r hr.1)

theorem newRow_key (id : UUID) (vm : VirtualMachine) (t : Timestamp) :
    (newRow id vm t).key = vm.key := rfl

/-- The row of one identifier is put in place, with its identity row, and no other row has its
key. -/
theorem storeInvariant_put (h : StoreInvariant db) (hstorable : r.storable = true)
    (hother : ∀ q ∈ db.virtualMachines.rows, q.resourceId ≠ r.resourceId → q.key ≠ r.key)
    (hmem : ∀ q, q ∈ db'.virtualMachines.rows ↔
      (q ∈ db.virtualMachines.rows ∧ q.resourceId ≠ r.resourceId) ∨ q = r)
    (hidentities : ∀ i, i ∈ db'.resourceIdentities.rows ↔
      (i ∈ db.resourceIdentities.rows ∧ i.resourceId ≠ r.resourceId) ∨ i = identityOf r) :
    StoreInvariant db' := by
  refine ⟨?_,?_,?_⟩
  · intro p hp q hq he
    rcases (hmem p).mp hp with ⟨hp,hpne⟩ | rfl <;> rcases (hmem q).mp hq with ⟨hq,hqne⟩ | rfl
    · exact h.unique p hp q hq he
    · exact absurd he (hother p hp hpne)
    · exact absurd he.symm (hother q hq hqne)
    · rfl
  · intro i
    rw [hidentities]
    constructor
    · rintro (⟨hi,hne⟩ | rfl)
      · obtain ⟨q,hq,rfl⟩ := (h.identities i).mp hi
        exact ⟨q,(hmem q).mpr (.inl ⟨hq,hne⟩),rfl⟩
      · exact ⟨r,(hmem r).mpr (.inr rfl),rfl⟩
    · rintro ⟨q,hq,rfl⟩
      rcases (hmem q).mp hq with ⟨hq,hne⟩ | rfl
      · exact .inl ⟨(h.identities _).mpr ⟨q,hq,rfl⟩,hne⟩
      · exact .inr rfl
  · intro q hq
    rcases (hmem q).mp hq with ⟨hq,_⟩ | rfl
    · exact h.storable q hq
    · exact hstorable

theorem upserted_put (hinvariant : StoreInvariant db') (hconn : db'.connections = db.connections)
    (hmem : ∀ q, q ∈ db'.virtualMachines.rows ↔
      (q ∈ db.virtualMachines.rows ∧ q.resourceId ≠ r.resourceId) ∨ q = r)
    (hbefore : ∀ q ∈ db.virtualMachines.rows, q.resourceId = r.resourceId →
      q.key = r.key ∧ q.firstSeenAt = r.firstSeenAt) : Upserted db db' [r.key] := by
  refine ⟨hinvariant,hconn,fun k hk => ?_,fun q hq => ?_,fun q hq => ?_⟩
  · exact ⟨r,(hmem r).mpr (.inr rfl),(List.mem_singleton.mp hk).symm⟩
  · by_cases he : q.resourceId = r.resourceId
    · obtain ⟨hkey,hseen⟩ := hbefore q hq he
      exact ⟨r,(hmem r).mpr (.inr rfl),hkey.symm,he.symm,hseen.symm⟩
    · exact ⟨q,(hmem q).mpr (.inl ⟨hq,he⟩),rfl,rfl,rfl⟩
  · rw [List.mem_singleton] at hq
    rw [hmem]
    constructor
    · rintro (⟨hq',_⟩ | rfl)
      · exact hq'
      · exact absurd rfl hq
    · exact fun hq' => .inl ⟨hq',fun he => hq (hbefore q hq' he).1⟩

theorem upserted_insert (h : StoreInvariant db) {mid : Database} {id : UUID} {t : Timestamp}
    (hi : insertVm db id vm t = .ok mid)
    (hs : syncIdentities mid id (buildVmIdentityKeys vm) vm.connectionId = .ok db') :
    Upserted db db' [vm.key] := by
  obtain ⟨hid,hstorable,hnew,hrows,hidentities,hconn⟩ := insertVm_ok hi
  obtain ⟨hvms,hconn',hsync⟩ := syncIdentities_ok hs
  have hfresh : ∀ q ∈ db.virtualMachines.rows, q.resourceId ≠ (newRow id vm t).resourceId :=
    fun q hq he => hid (List.mem_map.mpr ⟨q,hq,he⟩)
  have hmem : ∀ q, q ∈ db'.virtualMachines.rows ↔ (q ∈ db.virtualMachines.rows ∧
      q.resourceId ≠ (newRow id vm t).resourceId) ∨ q = newRow id vm t := by
    intro q
    rw [hvms,hrows,List.mem_append,List.mem_singleton]
    exact or_congr_left ⟨fun hq => ⟨hq,hfresh q hq⟩,And.left⟩
  rw [← newRow_key id vm t]
  refine upserted_put ?_ (hconn'.trans hconn) hmem fun q hq he => absurd he (hfresh q hq)
  refine storeInvariant_put h hstorable (fun q hq _ => hnew q hq) hmem fun i => ?_
  rw [hsync,hidentities]
  simp only [buildVmIdentityKeys,List.mem_singleton,exists_eq_left]
  rfl

theorem mergeGuest_key (vm : VirtualMachine) (previous : Option VirtualMachine) :
    (mergeGuest vm previous).key = vm.key := by
  cases previous <;> rfl

theorem refreshed_key (vm : VirtualMachine) (t : Timestamp) (r : VirtualMachineRow) :
    (refreshed vm t r).key = vm.key := rfl

theorem updateVm_ok {t : Timestamp} (hr : r ∈ db.virtualMachines.rows) {changed : Bool × Database}
    (h : updateVm db r.resourceId vm t = .ok changed) :
    (refreshed vm t r).storable = true ∧
      changed.2.resourceIdentities = db.resourceIdentities ∧
      changed.2.connections = db.connections ∧
      ∀ q, q ∈ changed.2.virtualMachines.rows ↔
        (q ∈ db.virtualMachines.rows ∧ q.resourceId ≠ r.resourceId) ∨ q = refreshed vm t r := by
  unfold updateVm at h
  rw [Table.find?_of_mem hr] at h
  obtain ⟨_,hcheck,h⟩ := bind_eq_ok.mp h
  cases h
  refine ⟨(checkRow_ok hcheck).1,rfl,rfl,fun q => ?_⟩
  rw [Table.mem_modify]
  constructor
  · rintro ⟨p,hp,rfl⟩
    by_cases he : p.resourceId = r.resourceId
    · rw [if_pos he,db.virtualMachines.eq_of_key_eq hp hr he]
      exact .inr rfl
    · rw [if_neg he]
      exact .inl ⟨hp,he⟩
  · rintro (⟨hq,hne⟩ | rfl)
    · exact ⟨q,hq,if_neg hne⟩
    · exact ⟨r,hr,if_pos rfl⟩

theorem upserted_update (h : StoreInvariant db) {t : Timestamp} (hr : r ∈ db.virtualMachines.rows)
    (hk : r.key = vm.key) {merged : VirtualMachine} (hm : merged.key = vm.key)
    {changed : Bool × Database} (hu : updateVm db r.resourceId merged t = .ok changed)
    (hs : syncIdentities changed.2 r.resourceId (buildVmIdentityKeys vm) vm.connectionId =
      .ok db') : Upserted db db' [vm.key] := by
  obtain ⟨hstorable,hidentities,hconn,hmem⟩ := updateVm_ok hr hu
  obtain ⟨hvms,hconn',hsync⟩ := syncIdentities_ok hs
  rw [← hvms] at hmem
  have hkey : (refreshed merged t r).key = r.key := by rw [refreshed_key,hm,hk]
  have hidentity : identityOf (refreshed merged t r) = identityRow r.resourceId vm.connectionId
      ⟨.native,nativeKeyValue vm.connectionId vm.nativeId⟩ := by
    have h1 : merged.connectionId = vm.connectionId := congrArg Prod.fst hm
    have h2 : merged.nativeId = vm.nativeId := congrArg Prod.snd hm
    simp [identityOf,refreshed,setColumns,h1,h2]
  have hother : ∀ q ∈ db.virtualMachines.rows, q.resourceId ≠ (refreshed merged t r).resourceId →
      q.key ≠ (refreshed merged t r).key := by
    intro q hq hne he
    have hqr := h.unique q hq r hr (he.trans hkey)
    exact hne (by rw [hqr]; rfl)
  rw [← hk,← hkey]
  refine upserted_put ?_ (hconn'.trans hconn) hmem fun q hq he => ?_
  · refine storeInvariant_put h hstorable hother hmem fun i => ?_
    rw [hsync,hidentities,hidentity]
    simp only [buildVmIdentityKeys,List.mem_singleton,exists_eq_left]
    rfl
  · obtain rfl := db.virtualMachines.eq_of_key_eq hq hr he
    exact ⟨hkey.symm,rfl⟩

end

/-- Whether a key has a machine row. -/
def present (db : Database) (k : UUID × String) : Bool :=
  db.virtualMachines.rows.any fun r => r.key = k

def newKeys (db : Database) (keys : List (UUID × String)) : Finset (UUID × String) :=
  keys.toFinset.filter fun k => present db k = false

/-- The machine has no row yet, and gets one under the next identifier. -/
structure Inserted (uuid4 : ℕ → UUID) (c : UUID) (t : Timestamp) (vm : VirtualMachine)
    (s s' : UpsertState) : Prop where
  missing : findByIdentity s.db (buildVmIdentityKeys vm) = .ok none
  stored : ∃ mid, insertVm s.db (uuid4 s.drawn) vm t = .ok mid ∧
    syncIdentities mid (uuid4 s.drawn) (buildVmIdentityKeys vm) c = .ok s'.db
  drawn : s'.drawn = s.drawn+1
  result : s'.result = { s.result with created := s.result.created+1 }

/-- The row of the match is updated. -/
structure Updated (c : UUID) (t : Timestamp) (vm : VirtualMachine) (s s' : UpsertState)
    (m : IdentityMatch) (changed : Bool × Database) : Prop where
  found : findByIdentity s.db (buildVmIdentityKeys vm) = .ok (some m)
  updated : updateVm s.db m.resourceId (mergeGuest vm (loadVm s.db m.resourceId)) t = .ok changed
  stored : syncIdentities changed.2 m.resourceId (buildVmIdentityKeys vm) c = .ok s'.db
  drawn : s'.drawn = s.drawn
  result : s'.result = if changed.1 then { s.result with updated := s.result.updated+1 }
    else { s.result with unchanged := s.result.unchanged+1 }

section
variable {db db' : Database} {vm : VirtualMachine} {uuid4 : ℕ → UUID} {c : UUID} {t : Timestamp}
  {s s' : UpsertState} {vms : List VirtualMachine}

theorem present_eq_true {k : UUID × String} :
    present db k = true ↔ ∃ r ∈ db.virtualMachines.rows, r.key = k := by
  simp [present]

theorem Upserted.present_iff {keys : List (UUID × String)} (h : Upserted db db' keys)
    (k : UUID × String) : present db' k = true ↔ present db k = true ∨ k ∈ keys := by
  simp only [present_eq_true]
  constructor
  · rintro ⟨r,hr,rfl⟩
    by_cases hk : r.key ∈ keys
    · exact .inr hk
    · exact .inl ⟨r,(h.frame r hk).mp hr,rfl⟩
  · rintro (⟨r,hr,rfl⟩ | hk)
    · obtain ⟨q,hq,he,_⟩ := h.kept r hr
      exact ⟨q,hq,he⟩
    · exact h.covered k hk

theorem newKeys_cons {k : UUID × String} {ks : List (UUID × String)} (h : Upserted db db' [k]) :
    (newKeys db (k::ks)).card = (if present db k then 0 else 1) + (newKeys db' ks).card := by
  have hrest : newKeys db' ks = (newKeys db ks).erase k := by
    ext x
    have hx := h.present_iff x
    simp only [newKeys,Finset.mem_filter,Finset.mem_erase,List.mem_toFinset,List.mem_singleton,
      ← Bool.not_eq_true] at hx ⊢
    rw [hx]
    tauto
  by_cases hp : present db k = true
  · have hk : k ∉ newKeys db ks := by simp [newKeys,hp]
    have hcons : newKeys db (k::ks) = newKeys db ks := by
      simp [newKeys,Finset.filter_insert,hp]
    rw [hcons,hrest,Finset.erase_eq_of_notMem hk,if_pos hp,zero_add]
  · have hcons : newKeys db (k::ks) = insert k ((newKeys db ks).erase k) := by
      ext x
      by_cases hx : x = k <;> simp [newKeys,hx,hp]
    rw [hcons,hrest,Finset.card_insert_of_notMem (Finset.notMem_erase k _),if_neg hp,add_comm]

/-- What one machine of a batch does. -/
theorem upsertOne_cases (hs : upsertOne uuid4 c t s vm = .ok s') :
    Inserted uuid4 c t vm s s' ∨ ∃ m changed, Updated c t vm s s' m changed := by
  obtain ⟨found,hfound,hs⟩ := bind_eq_ok.mp hs
  cases found with
  | none =>
    obtain ⟨mid,hinsert,hs⟩ := bind_eq_ok.mp hs
    obtain ⟨db,hsync,hs⟩ := bind_eq_ok.mp hs
    cases hs
    exact .inl ⟨hfound,⟨mid,hinsert,hsync⟩,rfl,rfl⟩
  | some m =>
    obtain ⟨changed,hupdate,hs⟩ := bind_eq_ok.mp hs
    obtain ⟨db,hsync,hs⟩ := bind_eq_ok.mp hs
    cases hs
    exact .inr ⟨m,changed,hfound,hupdate,hsync,rfl,rfl⟩

theorem Inserted.absent (h : StoreInvariant s.db) (hi : Inserted uuid4 c t vm s s') :
    ∀ r ∈ s.db.virtualMachines.rows, r.key ≠ vm.key := by
  intro r hr hk
  obtain ⟨m,hm,_⟩ := findByIdentity_of_mem h hr hk hi.missing
  cases hm

theorem Updated.row {m : IdentityMatch} {changed : Bool × Database} (h : StoreInvariant s.db)
    (hu : Updated c t vm s s' m changed) :
    ∃ r ∈ s.db.virtualMachines.rows, r.key = vm.key ∧ r.resourceId = m.resourceId := by
  by_contra hno
  have habsent : ∀ r ∈ s.db.virtualMachines.rows, r.key ≠ vm.key := by
    intro r hr hk
    obtain ⟨m',hm,hid⟩ := findByIdentity_of_mem h hr hk hu.found
    cases hm
    exact hno ⟨r,hr,hk,hid.symm⟩
  cases findByIdentity_of_not_mem h habsent hu.found

/-- One machine: its key gets a row, and the counters grow by one. -/
theorem upsertOne_ok (h : StoreInvariant s.db)
    (hs : upsertOne uuid4 vm.connectionId t s vm = .ok s') :
    Upserted s.db s'.db [vm.key] ∧
      s'.result.created = s.result.created + (if present s.db vm.key then 0 else 1) ∧
      s'.result.created+s'.result.updated+s'.result.unchanged =
        s.result.created+s.result.updated+s.result.unchanged+1 := by
  rcases upsertOne_cases hs with hi | ⟨m,changed,hu⟩
  · have hp : ¬ present s.db vm.key = true := by
      rw [present_eq_true]
      exact fun ⟨r,hr,hk⟩ => hi.absent h r hr hk
    obtain ⟨mid,hinsert,hsync⟩ := hi.stored
    refine ⟨upserted_insert h hinsert hsync,?_,?_⟩
    · simp [hp,hi.result]
    · rw [hi.result]
      simp only
      omega
  · obtain ⟨r,hr,hk,hid⟩ := hu.row h
    have hp : present s.db vm.key = true := present_eq_true.mpr ⟨r,hr,hk⟩
    have hupdate := hu.updated
    have hsync := hu.stored
    rw [← hid] at hupdate hsync
    refine ⟨upserted_update h hr hk (mergeGuest_key vm _) hupdate hsync,?_,?_⟩
    · rw [hu.result]
      cases changed.1 <;> simp [hp]
    · rw [hu.result]
      cases changed.1
      · simp only [Bool.false_eq_true,if_false]
        omega
      · simp only [if_true]
        omega

/-- A batch: what one machine preserves, by induction over the machines. -/
theorem upsertAll_ok (h : StoreInvariant s.db) (hc : ∀ vm ∈ vms, vm.connectionId = c)
    (hs : upsertAll uuid4 c t vms s = .ok s') :
    Upserted s.db s'.db (vms.map VirtualMachine.key) ∧
      s'.result.created = s.result.created+(newKeys s.db (vms.map VirtualMachine.key)).card ∧
      s'.result.created+s'.result.updated+s'.result.unchanged =
        s.result.created+s.result.updated+s.result.unchanged+vms.length := by
  induction vms generalizing s with
  | nil =>
    cases hs
    exact ⟨Upserted.refl h,by simp [newKeys],by simp⟩
  | cons vm vms ih =>
    obtain ⟨mid,hone,hrest⟩ := bind_eq_ok.mp hs
    rw [← hc vm List.mem_cons_self] at hone
    obtain ⟨hu,hcreated,hsum⟩ := upsertOne_ok h hone
    obtain ⟨hu',hcreated',hsum'⟩ := ih hu.invariant (fun v hv => hc v (List.mem_cons_of_mem _ hv))
      hrest
    rw [List.map_cons,newKeys_cons hu,List.length_cons]
    exact ⟨hu.trans hu',by omega,by omega⟩

end
end VirtualMachineRepository
end WzonePortal
