import WzonePortal.InventoryScope
import WzonePortal.ScopeHistory
import WzonePortal.TemporaryPassword

/-! The listing as a route: the dependencies of the caller, the service, and the response with
the text that says why guest information is missing. -/
namespace WzonePortal

def unavailableReason : GuestInfoAvailability → Option String
  | .available => none
  | .toolsNotInstalled => some "게스트 도구 미설치"
  | .toolsNotRunning => some "게스트 도구 미동작"
  | .unknown => some "확인 필요"

structure GuestInfoResponse where
  availability : GuestInfoAvailability
  isCollected : Bool
  unavailableReason : Option String
  osName : Option String
  osSource : Option OsSource
  hostname : Option String
  observedAt : Option Timestamp
  deriving DecidableEq, Repr

structure VmSummaryResponse where
  resourceId : UUID
  name : String
  nativeId : String
  connectionId : UUID
  connectionName : String
  hypervisor : HypervisorKind
  powerState : PowerState
  vcpuCount : Option ℤ
  memoryMb : Option ℤ
  configuredOs : Option String
  guest : GuestInfoResponse
  hostNativeId : Option String
  lifecycle : ResourceLifecycle
  lastSeenAt : Timestamp
  deriving DecidableEq, Repr

def VmSummaryResponse.fromSummary (vm : VmSummary) : VmSummaryResponse where
  resourceId := vm.resourceId
  name := vm.name
  nativeId := vm.nativeId
  connectionId := vm.connectionId
  connectionName := vm.connectionName
  hypervisor := vm.hypervisor
  powerState := vm.powerState
  vcpuCount := vm.vcpuCount
  memoryMb := vm.memoryMb
  configuredOs := vm.configuredOs
  guest := {
    availability := vm.guestAvailability
    isCollected := vm.guestAvailability = .available
    unavailableReason := if vm.guestAvailability = .available then none
      else unavailableReason vm.guestAvailability
    osName := vm.guestOsName
    osSource := vm.guestOsSource
    hostname := vm.guestHostname
    observedAt := vm.guestObservedAt }
  hostNativeId := vm.hostNativeId
  lifecycle := vm.lifecycle
  lastSeenAt := vm.lastSeenAt

structure PagedResponse (α : Type) where
  items : List α
  total : ℕ
  offset : ℤ
  limit : ℤ
  totalIsEstimate : Bool := false
  deriving DecidableEq, Repr

/-- `GET /virtual-machines`. -/
def Routes.listVirtualMachines (dbms : Dbms) (cmp : Comparison) (cookie : Cookie)
    (connectionId : Option UUID) (page : Page) (db : Database) :
    Except Exc (PagedResponse VmSummaryResponse) := do
  let scope ← (serve dbms (Deps.currentScope cookie "/api/v1/virtual-machines") db).1
  let result ← InventoryQueryService.listVirtualMachines cmp db scope connectionId page
  pure {
    items := result.items.map .fromSummary
    total := result.total
    offset := page.offset
    limit := page.limit
    totalIsEstimate := result.totalIsEstimate }

def Deps.scopeOf (cookie : Cookie) (path : String) (db : Database) : Except Exc AccessScope := do
  let current ← Deps.currentUser cookie db
  let user ← Deps.getActiveUser path current
  .ok (Deps.accessScope user db)

theorem serve_currentScope (dbms : Dbms) (cookie : Cookie) (path : String) (db : Database) :
    (serve dbms (Deps.currentScope cookie path) db).1 = Deps.scopeOf cookie path db := by
  rw [serve_of_reads (reads_currentScope cookie path)]
  rfl

end WzonePortal
