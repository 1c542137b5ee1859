import WzonePortal.InventoryQuery

/-! What a restricted caller can learn from the listing. Two stores that agree on the rows
of the allowed connections answer every request alike. -/
namespace WzonePortal

/-- The stores hold the same machine and connection rows of the connections in `S`. -/
structure AgreeOn (S : Finset UUID) (db db' : Database) : Prop where
  machines : ∀ r : VirtualMachineRow, r.connectionId ∈ S →
    (r ∈ db.virtualMachines.rows ↔ r ∈ db'.virtualMachines.rows)
  connections : ∀ c : ConnectionRow, c.connectionId ∈ S →
    (c ∈ db.connections.rows ↔ c ∈ db'.connections.rows)

/-- The part of a store that belongs to the connections in `S`. -/
def Database.restrictTo (S : Finset UUID) (db : Database) : Database :=
  { db with
    virtualMachines := db.virtualMachines.deleteWhere fun r => r.connectionId ∉ S
    connections := db.connections.deleteWhere fun c => c.connectionId ∉ S }

namespace VirtualMachineRepository

section
variable {S : Finset UUID} {db db' : Database} {scope : AccessScope} {connectionId : Option UUID}
  {cmp : Comparison}

theorem agreeOn_restrictTo (S : Finset UUID) (db : Database) : AgreeOn S db (db.restrictTo S) := by
  constructor
  · intro r hr
    simp [Database.restrictTo,hr]
  · intro c hc
    simp [Database.restrictTo,hc]

theorem searched_mem (hscope : scope.allowedConnectionIds = some S) {r : VirtualMachineRow}
    (h : searched scope connectionId r = true) : r.connectionId ∈ S := by
  simp only [searched,Bool.and_eq_true] at h
  have happly := h.1.2
  simpa [applyScope,AccessScope.isUnrestricted,hscope] using happly

theorem searched_rows_perm (hscope : scope.allowedConnectionIds = some S) (h : AgreeOn S db db') :
    (db.virtualMachines.rows.filter (searched scope connectionId)).Perm
      (db'.virtualMachines.rows.filter (searched scope connectionId)) := by
  rw [List.perm_ext_iff_of_nodup (db.virtualMachines.rows_nodup.filter _)
    (db'.virtualMachines.rows_nodup.filter _)]
  intro r
  simp only [List.mem_filter]
  constructor
  · rintro ⟨hr,hs⟩
    exact ⟨(h.machines r (searched_mem hscope hs)).mp hr,hs⟩
  · rintro ⟨hr,hs⟩
    exact ⟨(h.machines r (searched_mem hscope hs)).mpr hr,hs⟩

theorem joinConnection_eq (h : AgreeOn S db db') {r : VirtualMachineRow}
    (hr : r.connectionId ∈ S) : joinConnection db r = joinConnection db' r := by
  have hfind : db.connections.find? r.connectionId = db'.connections.find? r.connectionId := by
    apply Option.ext
    intro c
    rw [Table.find?_eq_some,Table.find?_eq_some]
    constructor
    · rintro ⟨hc,hid⟩
      exact ⟨(h.connections c (hid ▸ hr)).mp hc,hid⟩
    · rintro ⟨hc,hid⟩
      exact ⟨(h.connections c (hid ▸ hr)).mpr hc,hid⟩
  rw [joinConnection,joinConnection,hfind]

theorem searchBase_perm (hscope : scope.allowedConnectionIds = some S) (h : AgreeOn S db db')
    (connectionId : Option UUID) :
    (searchBase db scope connectionId).Perm (searchBase db' scope connectionId) := by
  have hjoin : (db'.virtualMachines.rows.filter (searched scope connectionId)).filterMap
      (joinConnection db) = searchBase db' scope connectionId := by
    apply List.filterMap_congr
    intro r hr
    exact joinConnection_eq h (searched_mem hscope (List.mem_filter.mp hr).2)
  rw [← hjoin]
  exact (searched_rows_perm hscope h).filterMap _

theorem mem_searchBase {x : SearchRow} : x ∈ searchBase db scope connectionId ↔
    x.1 ∈ db.virtualMachines.rows ∧ searched scope connectionId x.1 = true ∧
      joinConnection db x.1 = some x := by
  simp only [searchBase,List.mem_filterMap,List.mem_filter]
  constructor
  · rintro ⟨r,⟨hr,hs⟩,hj⟩
    have hx : x.1 = r := by
      obtain ⟨c,_,rfl⟩ := Option.map_eq_some_iff.mp hj
      rfl
    subst hx
    exact ⟨hr,hs,hj⟩
  · rintro ⟨hr,hs,hj⟩
    exact ⟨x.1,⟨hr,hs⟩,hj⟩

theorem searchBase_injective {x y : SearchRow} (hx : x ∈ searchBase db scope connectionId)
    (hy : y ∈ searchBase db scope connectionId)
    (h : x.1.resourceId.toNat = y.1.resourceId.toNat) : x = y := by
  obtain ⟨hxr,_,hxj⟩ := mem_searchBase.mp hx
  obtain ⟨hyr,_,hyj⟩ := mem_searchBase.mp hy
  have hrow := db.virtualMachines.eq_of_key_eq hxr hyr (BitVec.eq_of_toNat_eq h)
  rw [hrow] at hxj
  exact Option.some_injective _ (hxj.symm.trans hyj)

theorem sorted_searchBase_eq (hscope : scope.allowedConnectionIds = some S)
    (h : AgreeOn S db db') (column : SortColumn) (sortDesc : Bool) :
    sorted cmp column sortDesc (searchBase db scope connectionId) =
      sorted cmp column sortDesc (searchBase db' scope connectionId) :=
  TotalPreorder.orderBy_eq_of_perm _ _ _ (searchBase_perm hscope h connectionId)
    fun _ hx _ hy => searchBase_injective hx hy

theorem searchVms_eq_of_agreeOn (hscope : scope.allowedConnectionIds = some S)
    (h : AgreeOn S db db') (page : Page) :
    searchVms cmp db scope connectionId page = searchVms cmp db' scope connectionId page := by
  have hlength := (searchBase_perm hscope h connectionId).length_eq
  simp only [searchVms,sorted_searchBase_eq hscope h,hlength]

end

/-- The listing depends on the rows of the allowed connections only, and for a connection
outside the scope on nothing in the store. -/
theorem list_virtual_machines_noninterference (cmp : Comparison) (scope : AccessScope)
    (S : Finset UUID) (hscope : scope.allowedConnectionIds = some S) (db db' : Database)
    (h : AgreeOn S db db') :
    (∀ (connectionId : Option UUID) (page : Page),
      InventoryQueryService.listVirtualMachines cmp db scope connectionId page =
        InventoryQueryService.listVirtualMachines cmp db' scope connectionId page) ∧
    ∀ c ∉ S, ∀ (page : Page) (any any' : Database),
      InventoryQueryService.listVirtualMachines cmp any scope (some c) page =
        InventoryQueryService.listVirtualMachines cmp any' scope (some c) page := by
  constructor
  · intro connectionId page
    simp only [InventoryQueryService.listVirtualMachines,searchVms_eq_of_agreeOn hscope h]
  · intro c hc page any any'
    have hout : (some c).any (fun c => !scope.canAccess c) = true := by
      simp [AccessScope.canAccess,hscope,hc]
    simp only [InventoryQueryService.listVirtualMachines,hout,if_true]

theorem list_virtual_machines_noninterference_viewer :
    InventoryQueryService.listVirtualMachines .nullsLast twoConnections viewerOfFirst none {} =
      InventoryQueryService.listVirtualMachines .nullsLast (twoConnections.restrictTo {7})
        viewerOfFirst none {} ∧
    InventoryQueryService.listVirtualMachines .nullsLast twoConnections viewerOfFirst (some 8) {} =
      InventoryQueryService.listVirtualMachines .nullsLast (twoConnections.restrictTo {7})
        viewerOfFirst (some 8) {} := by
  have h := list_virtual_machines_noninterference .nullsLast viewerOfFirst {7} rfl twoConnections
    (twoConnections.restrictTo {7}) (agreeOn_restrictTo {7} twoConnections)
  exact ⟨h.1 none {},h.2 8 (by decide) {} twoConnections (twoConnections.restrictTo {7})⟩

end VirtualMachineRepository
end WzonePortal
