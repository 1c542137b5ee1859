import WzonePortal.Schema

/-! The collecting side of the machine repository. A machine is looked up by its identity
keys and not by a conflict of the insert; its identity rows are then written anew. The
session's working copy is passed along, and an exception ends the call. -/
namespace WzonePortal

structure UpsertResult where
  created : ℕ
  updated : ℕ
  unchanged : ℕ
  deriving DecidableEq, Repr

structure IdentityMatch where
  resourceId : UUID
  connectionId : UUID
  rule : IdentityRule
  value : String
  deriving DecidableEq, Repr

def fitsInt32 (n : ℤ) : Bool := -2147483648 ≤ n && n ≤ 2147483647
def fitsInt64 (n : ℤ) : Bool := -9223372036854775808 ≤ n && n ≤ 9223372036854775807

def VirtualMachineRow.storable (r : VirtualMachineRow) : Bool :=
  WzonePortal.storable r.nativeId && WzonePortal.storable r.name &&
    r.biosUuid.all WzonePortal.storable && r.configuredOs.all WzonePortal.storable &&
    r.guestOsName.all WzonePortal.storable && r.guestHostname.all WzonePortal.storable &&
    r.hostNativeId.all WzonePortal.storable && r.vcpuCount.all fitsInt32 &&
    r.memoryMb.all fitsInt64

namespace VirtualMachineRepository

/-- `n or None`. -/
def nonzero (n : ℤ) : Option ℤ := if n = 0 then none else some n

/-- The columns of a machine on top of the columns that a row keeps. -/
def setColumns (row : VirtualMachineRow) (vm : VirtualMachine) : VirtualMachineRow :=
  { row with
    connectionId := vm.connectionId
    nativeId := vm.nativeId
    biosUuid := vm.biosUuid
    name := vm.name
    powerState := vm.powerState
    connectionState := vm.connectionState
    vcpuCount := nonzero vm.cpu.totalVcpu
    memoryMb := nonzero vm.memory.assignedMb
    configuredOs := vm.platform.configuredOs
    guestAvailability := vm.guest.availability
    guestOsName := vm.guest.osName
    guestOsSource := vm.guest.osSource
    guestHostname := vm.guest.hostname
    guestObservedAt := vm.guest.observedAt
    hostNativeId := vm.hostNativeId }

def newRow (resourceId : UUID) (vm : VirtualMachine) (observedAt : Timestamp) :
    VirtualMachineRow where
  resourceId := resourceId
  connectionId := vm.connectionId
  nativeId := vm.nativeId
  biosUuid := vm.biosUuid
  name := vm.name
  powerState := vm.powerState
  connectionState := vm.connectionState
  vcpuCount := nonzero vm.cpu.totalVcpu
  memoryMb := nonzero vm.memory.assignedMb
  configuredOs := vm.platform.configuredOs
  guestAvailability := vm.guest.availability
  guestOsName := vm.guest.osName
  guestOsSource := vm.guest.osSource
  guestHostname := vm.guest.hostname
  guestObservedAt := vm.guest.observedAt
  hostNativeId := vm.hostNativeId
  lifecycle := .active
  firstSeenAt := observedAt
  lastSeenAt := observedAt

def rowToDomain (row : VirtualMachineRow) : VirtualMachine where
  resourceId := row.resourceId
  connectionId := row.connectionId
  nativeId := row.nativeId
  name := row.name
  lifecycle := row.lifecycle
  firstSeenAt := some row.firstSeenAt
  lastSeenAt := some row.lastSeenAt
  biosUuid := row.biosUuid
  powerState := row.powerState
  connectionState := row.connectionState
  cpu := ⟨row.vcpuCount.getD 0,none,none⟩
  memory := ⟨row.memoryMb.getD 0⟩
  platform := { configuredOs := row.configuredOs }
  guest := {
    availability := row.guestAvailability
    osName := row.guestOsName
    osSource := row.guestOsSource
    hostname := row.guestHostname
    observedAt := row.guestObservedAt }
  hostNativeId := row.hostNativeId

def trackedDiffer (r q : VirtualMachineRow) : Bool :=
  r.name ≠ q.name || r.powerState ≠ q.powerState || r.connectionState ≠ q.connectionState ||
    r.vcpuCount ≠ q.vcpuCount || r.memoryMb ≠ q.memoryMb || r.configuredOs ≠ q.configuredOs ||
    r.guestAvailability ≠ q.guestAvailability || r.guestOsName ≠ q.guestOsName ||
    r.guestOsSource ≠ q.guestOsSource || r.guestHostname ≠ q.guestHostname ||
    r.hostNativeId ≠ q.hostNativeId || r.biosUuid ≠ q.biosUuid

def mergeGuest (incoming : VirtualMachine) : Option VirtualMachine → VirtualMachine
  | none => incoming
  | some previous => { incoming with guest := incoming.guest.withFallback (some previous.guest) }

def identityRows (db : Database) (key : IdentityKey) : List ResourceIdentityRow :=
  db.resourceIdentities.rows.filter fun r => r.rule = key.rule.value && r.keyValue = key.value

/-- The first key that names exactly one resource; a key with two or more is skipped. -/
def findFirst (db : Database) : List IdentityKey → Except Exc (Option IdentityMatch)
  | [] => .ok none
  | key::keys =>
    if !storable key.value then .error .dataError
    else match (identityRows db key).take 2 with
      | [row] => .ok (some ⟨row.resourceId,row.connectionId,key.rule,key.value⟩)
      | _ => findFirst db keys

def findByIdentity (db : Database) (keys : List IdentityKey) : Except Exc (Option IdentityMatch) :=
  findFirst db (keys.mergeSort fun a b => a.rule.value ≤ b.rule.value)

/-- The constraints of `virtual_machines` other than its primary key. -/
def checkRow (db : Database) (row : VirtualMachineRow) : Except Exc Unit :=
  if !row.storable then .error .dataError
  else if db.virtualMachines.rows.any (fun r => r.resourceId ≠ row.resourceId &&
      r.connectionId = row.connectionId && r.nativeId = row.nativeId) then .error .integrityError
  else if (db.connections.find? row.connectionId).isNone then .error .integrityError
  else .ok ()

def insertVm (db : Database) (resourceId : UUID) (vm : VirtualMachine) (observedAt : Timestamp) :
    Except Exc Database := do
  checkRow db (newRow resourceId vm observedAt)
  match db.virtualMachines.insert (newRow resourceId vm observedAt) with
  | none => .error .integrityError
  | some virtualMachines => .ok { db with virtualMachines := virtualMachines }

def loadVm (db : Database) (resourceId : UUID) : Option VirtualMachine :=
  (db.virtualMachines.find? resourceId).map rowToDomain

def refreshed (vm : VirtualMachine) (observedAt : Timestamp) (row : VirtualMachineRow) :
    VirtualMachineRow :=
  { setColumns row vm with lastSeenAt := observedAt }

@[simp] theorem refreshed_resourceId (vm : VirtualMachine) (observedAt : Timestamp)
    (row : VirtualMachineRow) : (refreshed vm observedAt row).resourceId = row.resourceId := rfl

/-- Whether a tracked column changed; a missing row changes nothing. -/
def updateVm (db : Database) (resourceId : UUID) (vm : VirtualMachine) (observedAt : Timestamp) :
    Except Exc (Bool × Database) :=
  match db.virtualMachines.find? resourceId with
  | none => .ok (false,db)
  | some row => do
    checkRow db (refreshed vm observedAt row)
    .ok (trackedDiffer row (setColumns row vm),{ db with
      virtualMachines := db.virtualMachines.modify resourceId (refreshed vm observedAt)
        (refreshed_resourceId vm observedAt) })

def identityRow (resourceId connectionId : UUID) (key : IdentityKey) : ResourceIdentityRow :=
  ⟨resourceId,.virtualMachine,connectionId,key.rule.value,key.value⟩

/-- Make the identity rows of one resource those of the current keys. -/
def syncIdentities (db : Database) (resourceId : UUID) (keys : List IdentityKey)
    (connectionId : UUID) : Except Exc Database :=
  let kept := db.resourceIdentities.deleteWhere fun r => r.resourceId = resourceId
  if keys.any fun k => !storable k.value then .error .dataError
  else match kept.insertAll (keys.map (identityRow resourceId connectionId)) with
    | none => .error .integrityError
    | some identities => .ok { db with resourceIdentities := identities }

/-- The working copy, the number of identifiers drawn and the counters. -/
structure UpsertState where
  db : Database
  drawn : ℕ
  result : UpsertResult

/-- One machine of a batch. -/
def upsertOne (uuid4 : ℕ → UUID) (connectionId : UUID) (observedAt : Timestamp)
    (s : UpsertState) (vm : VirtualMachine) : Except Exc UpsertState := do
  let keys := buildVmIdentityKeys vm
  let found ← findByIdentity s.db keys
  match found with
  | none => do
    let db ← insertVm s.db (uuid4 s.drawn) vm observedAt
    let db ← syncIdentities db (uuid4 s.drawn) keys connectionId
    .ok ⟨db,s.drawn+1,{ s.result with created := s.result.created+1 }⟩
  | some m => do
    let merged := mergeGuest vm (loadVm s.db m.resourceId)
    let changed ← updateVm s.db m.resourceId merged observedAt
    let db ← syncIdentities changed.2 m.resourceId keys connectionId
    .ok ⟨db,s.drawn,if changed.1 then { s.result with updated := s.result.updated+1 }
      else { s.result with unchanged := s.result.unchanged+1 }⟩

def upsertAll (uuid4 : ℕ → UUID) (connectionId : UUID) (observedAt : Timestamp) :
    List VirtualMachine → UpsertState → Except Exc UpsertState
  | [], s => .ok s
  | vm::vms, s => do
    let s ← upsertOne uuid4 connectionId observedAt s vm
    upsertAll uuid4 connectionId observedAt vms s

def upsertVirtualMachines (uuid4 : ℕ → UUID) (db : Database) (connectionId : UUID)
    (vms : List VirtualMachine) (observedAt : Timestamp) : Except Exc (UpsertResult × Database) := do
  let s ← upsertAll uuid4 connectionId observedAt vms ⟨db,0,⟨0,0,0⟩⟩
  .ok (s.result,s.db)

end VirtualMachineRepository
end WzonePortal
