import WzonePortal.InventoryScope

/-! Reading the whole listing page by page. Every page is a slice of one sorted list, which
the page size does not enter. -/
namespace WzonePortal

/-- An active machine of an accessible connection that the filter does not exclude. -/
def visible (scope : AccessScope) (connectionId : Option UUID) (r : VirtualMachineRow) : Bool :=
  r.lifecycle = .active && scope.canAccess r.connectionId &&
    connectionId.all fun c => r.connectionId = c

namespace VirtualMachineRepository

/-- Every machine row refers to an existing connection row. -/
def ForeignKey (db : Database) : Prop :=
  ∀ r ∈ db.virtualMachines.rows, (db.connections.find? r.connectionId).isSome

def listing (cmp : Comparison) (db : Database) (scope : AccessScope) (connectionId : Option UUID)
    (column : SortColumn) (sortDesc : Bool) : List VmSummary :=
  (sorted cmp column sortDesc (searchBase db scope connectionId)).map rowToSummary

section
variable {db : Database} {scope : AccessScope} {connectionId : Option UUID} {cmp : Comparison}
  {column : SortColumn} {sortDesc : Bool}

theorem applyScope_eq_canAccess (r : VirtualMachineRow) :
    applyScope scope r = scope.canAccess r.connectionId := by
  cases h : scope.allowedConnectionIds <;>
    simp [applyScope,AccessScope.canAccess,AccessScope.isUnrestricted,h]

theorem searched_eq_visible (scope : AccessScope) (connectionId : Option UUID) :
    searched scope connectionId = visible scope connectionId := by
  funext r
  simp only [searched,visible,applyScope_eq_canAccess]
  cases connectionId <;> rfl

theorem map_filterMap_joinConnection {l : List VirtualMachineRow}
    (h : ∀ r ∈ l, (db.connections.find? r.connectionId).isSome) :
    (l.filterMap (joinConnection db)).map Prod.fst = l := by
  induction l with
  | nil => rfl
  | cons r l ih =>
    obtain ⟨c,hc⟩ := Option.isSome_iff_exists.mp (h r List.mem_cons_self)
    have hj : joinConnection db r = some (r,c.displayName,c.kind) := by
      rw [joinConnection,hc,Option.map_some]
    rw [List.filterMap_cons_some hj,List.map_cons,ih fun q hq => h q (List.mem_cons_of_mem _ hq)]

theorem searchBase_rows (h : ForeignKey db) (scope : AccessScope) (connectionId : Option UUID) :
    (searchBase db scope connectionId).map Prod.fst =
      db.virtualMachines.rows.filter (visible scope connectionId) := by
  rw [searchBase,searched_eq_visible]
  exact map_filterMap_joinConnection fun r hr => h r (List.mem_filter.mp hr).1

theorem searchBase_of_isEmpty (h : scope.isEmpty = true) (db : Database)
    (connectionId : Option UUID) : searchBase db scope connectionId = [] := by
  have hnone : ∀ r ∈ db.virtualMachines.rows, ¬ searched scope connectionId r = true := by
    intro r _ hs
    cases hids : scope.allowedConnectionIds with
    | none => simp [AccessScope.isEmpty,hids] at h
    | some ids =>
      have hmem := searched_mem hids hs
      simp only [AccessScope.isEmpty,hids,decide_eq_true_eq] at h
      simp [h] at hmem
  rw [searchBase,List.filter_eq_nil_iff.mpr hnone,List.filterMap_nil]

/-- A valid page is a slice of the listing, also where the query is skipped. -/
theorem searchVms_eq_slice {page : Page} (hv : page.validate = .ok ())
    (hc : sortColumns page.sortBy = some column) :
    searchVms cmp db scope connectionId page = .ok {
      items := slice page.offset.toNat page.limit.toNat
        (listing cmp db scope connectionId column page.sortDesc)
      total := (searchBase db scope connectionId).length
      page := page } := by
  unfold searchVms
  rw [hv]
  by_cases he : scope.isEmpty = true
  · have hbase := searchBase_of_isEmpty he db connectionId
    have hlisting : listing cmp db scope connectionId column page.sortDesc = [] := by
      rw [listing,hbase]
      rfl
    rw [hbase,hlisting]
    simp [he,slice]
    rfl
  · rw [listing,slice_map]
    simp only [he,hc]
    rfl

theorem listing_resourceIds (h : ForeignKey db) :
    ((listing cmp db scope connectionId column sortDesc).map VmSummary.resourceId).Perm
      ((db.virtualMachines.rows.filter (visible scope connectionId)).map (·.resourceId)) := by
  have hid : VmSummary.resourceId ∘ rowToSummary =
      (VirtualMachineRow.resourceId ∘ Prod.fst : SearchRow → UUID) := by
    funext x
    rfl
  rw [listing,List.map_map,hid,← searchBase_rows h,List.map_map]
  exact (TotalPreorder.orderBy_perm _ _ _ _).map _

theorem listing_summary {s : VmSummary}
    (h : s ∈ listing cmp db scope connectionId column sortDesc) :
    ∃ r ∈ db.virtualMachines.rows, ∃ c, db.connections.find? r.connectionId = some c ∧
      s = rowToSummary (r,c.displayName,c.kind) := by
  obtain ⟨x,hx,rfl⟩ := List.mem_map.mp h
  have hbase := (TotalPreorder.orderBy_perm _ _ _ _).mem_iff.mp hx
  obtain ⟨hr,_,hj⟩ := mem_searchBase.mp hbase
  obtain ⟨c,hc,he⟩ := Option.map_eq_some_iff.mp hj
  exact ⟨x.1,hr,c,hc,by rw [he]⟩

end

/-- Pages of any size, read until an empty one, give each visible machine once, in an order
that is the same for every size; each page reports the number of all of them. -/
theorem pages_partition_listing (cmp : Comparison) (db : Database) (hfk : ForeignKey db)
    (scope : AccessScope) (connectionId : Option UUID) (sortBy : String)
    (hsort : sortBy ∈ Page.allowedSort) (sortDesc : Bool) :
    ∃ order : List VmSummary,
      (order.map VmSummary.resourceId).Perm
        ((db.virtualMachines.rows.filter (visible scope connectionId)).map (·.resourceId)) ∧
      (∀ s ∈ order, ∃ r ∈ db.virtualMachines.rows, ∃ c,
        db.connections.find? r.connectionId = some c ∧
          s = rowToSummary (r,c.displayName,c.kind)) ∧
      ∀ L : ℕ, 1 ≤ L → L ≤ 500 → ∃ results : ℕ → PagedResult VmSummary,
        (∀ k : ℕ, searchVms cmp db scope connectionId
          { offset := k*L, limit := L, sortBy := sortBy, sortDesc := sortDesc } =
            .ok (results k)) ∧
        (∀ k, (results k).total =
          (db.virtualMachines.rows.filter (visible scope connectionId)).length) ∧
        ∃ n, (∀ k < n, (results k).items ≠ []) ∧ (results n).items = [] ∧
          (List.range n).flatMap (fun k => (results k).items) = order := by
  obtain ⟨column,hcolumn⟩ := sortColumns_isSome hsort
  refine ⟨listing cmp db scope connectionId column sortDesc,listing_resourceIds hfk,
    fun s hs => listing_summary hs,fun L hL hmax => ?_⟩
  have htotal : (searchBase db scope connectionId).length =
      (db.virtualMachines.rows.filter (visible scope connectionId)).length := by
    rw [← searchBase_rows hfk,List.length_map]
  refine ⟨fun k => {
    items := slice (k*L) L (listing cmp db scope connectionId column sortDesc)
    total := (searchBase db scope connectionId).length
    page := { offset := k*L, limit := L, sortBy := sortBy, sortDesc := sortDesc } },
    fun k => ?_,fun _ => htotal,exists_first_empty_slice hL _⟩
  have hvalid : Page.validate
      { offset := (k : ℤ)*L, limit := L, sortBy := sortBy, sortDesc := sortDesc } = .ok () := by
    rw [Page.validate_eq_ok,Page.maxLimit]
    have hmin : (1 : ℤ) ≤ L := by exact_mod_cast hL
    have hmax' : (L : ℤ) ≤ 500 := by exact_mod_cast hmax
    exact ⟨by positivity,hmin,hmax',hsort⟩
  have hoffset : ((k : ℤ)*L).toNat = k*L := by
    rw [← Int.natCast_mul,Int.toNat_natCast]
  rw [searchVms_eq_slice hvalid hcolumn]
  simp only [hoffset,Int.toNat_natCast]

/-- Four machines of the first connection, two of them with as many processors and one with no
number, and one machine of the second connection. -/
def tiedMachines : Database :=
  let row (n : ℕ) (c : UUID) (name : String) (vcpuCount : Option ℤ) : VirtualMachineRow :=
    ⟨BitVec.ofNat 128 n,c,name,none,name,.on,.connected,vcpuCount,some 4096,none,.unknown,none,none,
      none,none,none,.active,1000,1000⟩
  { twoConnections with virtualMachines := ⟨[row 21 7 "web" (some 2),row 22 8 "db" (some 8),
      row 23 7 "mail" none,row 24 7 "proxy" (some 2),row 25 7 "build" (some 4)],by decide⟩ }

theorem pages_partition_listing_first : ∃ order : List VmSummary,
    (order.map VmSummary.resourceId).Perm [21,23,24,25] ∧
    ∃ singles pages : ℕ → PagedResult VmSummary,
      (∀ k, (singles k).total = 4) ∧ (∀ k, (pages k).total = 4) ∧
      searchVms .nullsLast tiedMachines viewerOfFirst none
        { offset := 3, limit := 3, sortBy := "vcpu_count", sortDesc := true } = .ok (pages 1) ∧
      ∃ m n, (List.range m).flatMap (fun k => (singles k).items) = order ∧
        (List.range n).flatMap (fun k => (pages k).items) = order := by
  have hfk : ForeignKey tiedMachines := by
    unfold ForeignKey
    decide
  obtain ⟨order,hperm,-,hpages⟩ := pages_partition_listing .nullsLast tiedMachines hfk
    viewerOfFirst none "vcpu_count" (by decide) true
  obtain ⟨singles,-,htotal,m,-,-,hm⟩ := hpages 1 le_rfl (by norm_num)
  obtain ⟨pages,hserved,htotal',n,-,-,hn⟩ := hpages 3 (by norm_num) (by norm_num)
  exact ⟨order,hperm,singles,pages,htotal,htotal',hserved 1,m,n,hm,hn⟩

/-- The machine without a number comes first, and the two with as many follow their identifiers. -/
example : (searchVms .nullsLast tiedMachines viewerOfFirst none
    { offset := 0, limit := 3, sortBy := "vcpu_count", sortDesc := true }).map
      (fun result => result.items.map VmSummary.name) = .ok ["mail","build","web"] := by
  decide

end VirtualMachineRepository
end WzonePortal
