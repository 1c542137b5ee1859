import WzonePortal.Domain

/-! The virtual machine entity as the collectors hand it to the store, its guest
information with the fallback rule, and the identity keys built from it. -/
namespace WzonePortal

inductive HypervisorKind
  | vcenter | hyperv
  deriving DecidableEq, Repr

inductive ConnectionKind
  | vcenter | hypervHost | hypervCluster | scvmm
  deriving DecidableEq, Repr

def ConnectionKind.value : ConnectionKind → String
  | .vcenter => "vcenter"
  | .hypervHost => "hyperv-host"
  | .hypervCluster => "hyperv-cluster"
  | .scvmm => "scvmm"

def ConnectionKind.usesWinrm (kind : ConnectionKind) : Bool := kind ≠ .vcenter

inductive WinRmAuth
  | ntlm | kerberos | credssp
  deriving DecidableEq, Repr

inductive Protocol
  | http | https
  deriving DecidableEq, Repr

inductive ConnectionStatus
  | active | inactive | credentialError | permissionError | unreachable | collectionError
  deriving DecidableEq, Repr

inductive PowerState
  | on | off | suspended | unknown
  deriving DecidableEq, Repr

def PowerState.value : PowerState → String
  | .on => "on"
  | .off => "off"
  | .suspended => "suspended"
  | .unknown => "unknown"

inductive ConnectionState
  | connected | disconnected | inaccessible | orphaned | unknown
  deriving DecidableEq, Repr

inductive GuestInfoAvailability
  | available | toolsNotInstalled | toolsNotRunning | unknown
  deriving DecidableEq, Repr

inductive OsSource
  | guestTools | vmConfig
  deriving DecidableEq, Repr

inductive Firmware
  | bios | uefi | unknown
  deriving DecidableEq, Repr

inductive ResourceLifecycle
  | active | missing | retired | disconnected
  deriving DecidableEq, Repr

inductive ResourceType
  | virtualMachine | host | cluster | datastore | network | snapshot
  deriving DecidableEq, Repr

structure GuestInfo where
  availability : GuestInfoAvailability
  osName : Option String := none
  osVersion : Option String := none
  osSource : Option OsSource := none
  hostname : Option String := none
  ipv4Addresses : List String := []
  ipv6Addresses : List String := []
  toolVersion : Option String := none
  observedAt : Option Timestamp := none
  deriving DecidableEq, Repr

namespace GuestInfo

def isCollected (g : GuestInfo) : Bool := g.availability = .available

/-- Keep the previous values when the guest tools gave none this time. -/
def withFallback (g : GuestInfo) (previous : Option GuestInfo) : GuestInfo :=
  if g.isCollected then g
  else match previous with
    | none => g
    | some p => { g with
        osName := p.osName, osVersion := p.osVersion, osSource := p.osSource,
        hostname := p.hostname, ipv4Addresses := p.ipv4Addresses,
        ipv6Addresses := p.ipv6Addresses, toolVersion := p.toolVersion,
        observedAt := p.observedAt }

@[simp] theorem withFallback_availability (g : GuestInfo) (previous : Option GuestInfo) :
    (g.withFallback previous).availability = g.availability := by
  unfold withFallback
  split
  · rfl
  · cases previous <;> rfl

end GuestInfo

structure CpuSpec where
  totalVcpu : ℤ
  socketCount : Option ℤ := none
  coresPerSocket : Option ℤ := none
  deriving DecidableEq, Repr

structure MemorySpec where
  assignedMb : ℤ
  deriving DecidableEq, Repr

structure PlatformSpec where
  hardwareVersion : Option String := none
  firmware : Firmware := .unknown
  configuredOs : Option String := none
  deriving DecidableEq, Repr

structure VirtualMachine where
  resourceId : UUID
  connectionId : UUID
  nativeId : String
  name : String
  lifecycle : ResourceLifecycle := .active
  firstSeenAt : Option Timestamp := none
  lastSeenAt : Option Timestamp := none
  biosUuid : Option String := none
  powerState : PowerState := .unknown
  connectionState : ConnectionState := .unknown
  cpu : CpuSpec := ⟨0,none,none⟩
  memory : MemorySpec := ⟨0⟩
  platform : PlatformSpec := {}
  guest : GuestInfo := { availability := .unknown }
  hostNativeId : Option String := none
  deriving DecidableEq, Repr

inductive IdentityRule
  | native | biosUuid | macAndName
  deriving DecidableEq, Repr

def IdentityRule.value : IdentityRule → ℕ
  | .native => 1
  | .biosUuid => 2
  | .macAndName => 3

structure IdentityKey where
  rule : IdentityRule
  value : String
  deriving DecidableEq, Repr

def nativeKeyValue (connectionId : UUID) (nativeId : String) : String :=
  connectionId.str ++ ":" ++ nativeId

theorem nativeKeyValue_inj {c d : UUID} {m n : String} :
    nativeKeyValue c m = nativeKeyValue d n ↔ c = d ∧ m = n :=
  ⟨compositeKey_injective,fun ⟨hc,hm⟩ => by rw [hc,hm]⟩

/-- One key of the first rule; the other rules are not generated yet. -/
def buildVmIdentityKeys (vm : VirtualMachine) : List IdentityKey :=
  [⟨.native,nativeKeyValue vm.connectionId vm.nativeId⟩]

end WzonePortal
