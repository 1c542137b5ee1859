import Mathlib.Data.String.Basic
import WzonePortal.Paging
import WzonePortal.Schema

/-! The inventory listing: the page request and its checks, the repository's search with the
scope inside the query, and the service in front of it. How the database compares the values
of a sort column is a parameter. -/
namespace WzonePortal

structure Page where
  offset : ℤ := 0
  limit : ℤ := 50
  sortBy : String := "name"
  sortDesc : Bool := false
  deriving DecidableEq, Repr

namespace Page

def maxLimit : ℤ := 500

def allowedSort : List String :=
  ["name","power_state","guest_os_name","vcpu_count","memory_mb","last_seen_at"]

def validate (p : Page) : Except Exc Unit :=
  if p.offset < 0 then
    .error (.validation "offset은 0 이상이어야 합니다." (some "offset") [])
  else if ¬ (1 ≤ p.limit ∧ p.limit ≤ maxLimit) then
    .error (.validation "limit은 1~500 범위여야 합니다." (some "limit") [])
  else if p.sortBy ∉ allowedSort then
    .error (.validation ("정렬할 수 없는 컬럼입니다: " ++ p.sortBy) (some "sort_by") [])
  else .ok ()

theorem validate_eq_ok {p : Page} {u : Unit} : p.validate = .ok u ↔
    0 ≤ p.offset ∧ 1 ≤ p.limit ∧ p.limit ≤ maxLimit ∧ p.sortBy ∈ allowedSort := by
  unfold validate
  by_cases h1 : p.offset < 0
  · rw [if_pos h1]
    simp [h1]
  · rw [if_neg h1]
    by_cases h2 : 1 ≤ p.limit ∧ p.limit ≤ maxLimit
    · rw [if_neg (by simpa using h2)]
      by_cases h3 : p.sortBy ∈ allowedSort
      · simp [h3,h2]
        omega
      · simp [h3]
    · rw [if_pos h2]
      simp only [reduceCtorEq,false_iff]
      tauto

end Page

/-- The default page passes its own check. -/
example : ({} : Page).validate = .ok () := rfl

structure PagedResult (α : Type) where
  items : List α
  total : ℕ
  page : Page
  totalIsEstimate : Bool := false
  deriving DecidableEq, Repr

structure VmSummary where
  resourceId : UUID
  name : String
  nativeId : String
  connectionId : UUID
  connectionName : String
  hypervisor : HypervisorKind
  powerState : PowerState
  vcpuCount : Option ℤ
  memoryMb : Option ℤ
  configuredOs : Option String
  guestAvailability : GuestInfoAvailability
  guestOsName : Option String
  guestOsSource : Option OsSource
  guestHostname : Option String
  guestObservedAt : Option Timestamp
  hostNativeId : Option String
  lifecycle : ResourceLifecycle
  lastSeenAt : Timestamp
  deriving DecidableEq, Repr

/-- The columns of the sort table. -/
inductive SortColumn
  | name | powerState | guestOsName | vcpuCount | memoryMb | lastSeenAt
  deriving DecidableEq, Repr

namespace SortColumn

@[reducible] def Value : SortColumn → Type
  | .name => String
  | .powerState => String
  | .guestOsName => Option String
  | .vcpuCount => Option ℤ
  | .memoryMb => Option ℤ
  | .lastSeenAt => Timestamp

def get : (column : SortColumn) → VirtualMachineRow → column.Value
  | .name, r => r.name
  | .powerState, r => r.powerState.value
  | .guestOsName, r => r.guestOsName
  | .vcpuCount, r => r.vcpuCount
  | .memoryMb, r => r.memoryMb
  | .lastSeenAt, r => r.lastSeenAt

end SortColumn

/-- How the database compares the values of each sort column, NULL included. -/
abbrev Comparison := (column : SortColumn) → TotalPreorder column.Value

/-- Code point order of texts, NULL above every value. -/
def Comparison.nullsLast : Comparison
  | .name => .ofLinearOrder String
  | .powerState => .ofLinearOrder String
  | .guestOsName => TotalPreorder.ofLinearOrder (WithTop String)
  | .vcpuCount => TotalPreorder.ofLinearOrder (WithTop ℤ)
  | .memoryMb => TotalPreorder.ofLinearOrder (WithTop ℤ)
  | .lastSeenAt => .ofLinearOrder ℤ

namespace VirtualMachineRepository

def sortColumns : String → Option SortColumn
  | "name" => some .name
  | "power_state" => some .powerState
  | "guest_os_name" => some .guestOsName
  | "vcpu_count" => some .vcpuCount
  | "memory_mb" => some .memoryMb
  | "last_seen_at" => some .lastSeenAt
  | _ => none

theorem sortColumns_isSome {name : String} (h : name ∈ Page.allowedSort) :
    ∃ column, sortColumns name = some column := by
  simp only [Page.allowedSort,List.mem_cons,List.not_mem_nil,or_false] at h
  rcases h with rfl | rfl | rfl | rfl | rfl | rfl <;> exact ⟨_,rfl⟩

/-- A machine row with the name and kind of its connection. -/
abbrev SearchRow := VirtualMachineRow × String × ConnectionKind

def applyScope (scope : AccessScope) (r : VirtualMachineRow) : Bool :=
  if scope.isUnrestricted then true
  else decide (r.connectionId ∈ scope.allowedConnectionIds.getD ∅)

def searched (scope : AccessScope) (connectionId : Option UUID) (r : VirtualMachineRow) : Bool :=
  r.lifecycle = .active && applyScope scope r &&
    match connectionId with
    | none => true
    | some c => r.connectionId = c

def joinConnection (db : Database) (r : VirtualMachineRow) : Option SearchRow :=
  (db.connections.find? r.connectionId).map fun c => (r,c.displayName,c.kind)

def searchBase (db : Database) (scope : AccessScope) (connectionId : Option UUID) :
    List SearchRow :=
  (db.virtualMachines.rows.filter (searched scope connectionId)).filterMap (joinConnection db)

def rowToSummary : SearchRow → VmSummary
  | (row,connectionName,kind) => {
    resourceId := row.resourceId
    name := row.name
    nativeId := row.nativeId
    connectionId := row.connectionId
    connectionName := connectionName
    hypervisor := if kind.value = "vcenter" then .vcenter else .hyperv
    powerState := row.powerState
    vcpuCount := row.vcpuCount
    memoryMb := row.memoryMb
    configuredOs := row.configuredOs
    guestAvailability := row.guestAvailability
    guestOsName := row.guestOsName
    guestOsSource := row.guestOsSource
    guestHostname := row.guestHostname
    guestObservedAt := row.guestObservedAt
    hostNativeId := row.hostNativeId
    lifecycle := row.lifecycle
    lastSeenAt := row.lastSeenAt }

/-- ORDER BY the column in the page's direction, then the resource identifier ascending. -/
def sorted (cmp : Comparison) (column : SortColumn) (sortDesc : Bool) (rows : List SearchRow) :
    List SearchRow :=
  (if sortDesc then (cmp column).reverse else cmp column).orderBy
    (fun row => column.get row.1) (fun row => row.1.resourceId.toNat) rows

def searchVms (cmp : Comparison) (db : Database) (scope : AccessScope)
    (connectionId : Option UUID) (page : Page) : Except Exc (PagedResult VmSummary) := do
  page.validate
  if scope.isEmpty then .ok { items := [], total := 0, page := page }
  else match sortColumns page.sortBy with
    | none => .error .keyError
    | some column =>
      let base := searchBase db scope connectionId
      let rows := slice page.offset.toNat page.limit.toNat (sorted cmp column page.sortDesc base)
      .ok { items := rows.map rowToSummary, total := base.length, page := page }

end VirtualMachineRepository

/-- A connection outside the scope is answered like one without machines. -/
def InventoryQueryService.listVirtualMachines (cmp : Comparison) (db : Database)
    (scope : AccessScope) (connectionId : Option UUID) (page : Page) :
    Except Exc (PagedResult VmSummary) := do
  scope.require .resourceRead
  page.validate
  if connectionId.any fun c => !scope.canAccess c then
    .ok { items := [], total := 0, page := page }
  else VirtualMachineRepository.searchVms cmp db scope connectionId page

/-- Two connections with one machine each, and a viewer of the first one. -/
def twoConnections : Database where
  connections := ⟨[
    ⟨7,.vcenter,"vc","vc.local",443,"reader","x",true,.https,none,none,.active,none,none,none,0,0⟩,
    ⟨8,.hypervHost,"hv","hv.local",5986,"reader","x",true,.https,some .ntlm,none,.active,none,none,
      none,0,0⟩],by decide⟩
  virtualMachines := ⟨[
    ⟨21,7,"vm-1",none,"web",.on,.connected,some 2,some 4096,none,.unknown,none,none,none,none,none,
      .active,1000,1000⟩,
    ⟨22,8,"vm-9",none,"db",.on,.connected,none,some 8192,none,.unknown,none,none,none,none,none,
      .active,1000,1000⟩],by decide⟩
  resourceIdentities := Table.empty
  users := Table.empty
  userConnectionScopes := Table.empty
  auditEvents := []

def viewerOfFirst : AccessScope := ⟨3,"alice",.viewer,some {7}⟩

example : (InventoryQueryService.listVirtualMachines .nullsLast twoConnections viewerOfFirst none
    {}).map (fun result => (result.items.map VmSummary.name,result.total)) = .ok (["web"],1) := by
  decide

end WzonePortal
