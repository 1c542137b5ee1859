import WzonePortal.Resource
import Mathlib.Logic.Function.Basic

/-! What vCenter's property collector returns for one machine, and the machine that the mapper
makes of it. A requested property that could not be read is listed as missing. -/
namespace WzonePortal
namespace VCenter

/-- The requested properties, `VM_PROPERTIES_MVP`. -/
inductive VmProperty
  | name | instanceUuid | uuid | configGuestFullName | numCpu | memoryMb | powerState
  | connectionState | host | guestFullName | hostName | toolsStatus | toolsRunningStatus
  deriving DecidableEq, Repr

def VmProperty.path : VmProperty → String
  | .name => "name"
  | .instanceUuid => "config.instanceUuid"
  | .uuid => "config.uuid"
  | .configGuestFullName => "config.guestFullName"
  | .numCpu => "config.hardware.numCPU"
  | .memoryMb => "config.hardware.memoryMB"
  | .powerState => "runtime.powerState"
  | .connectionState => "runtime.connectionState"
  | .host => "runtime.host"
  | .guestFullName => "guest.guestFullName"
  | .hostName => "guest.hostName"
  | .toolsStatus => "guest.toolsStatus"
  | .toolsRunningStatus => "guest.toolsRunningStatus"

/-- A reference and its printed form. -/
structure ManagedObject where
  moId : String
  printed : String
  deriving DecidableEq, Repr

@[reducible] def VmProperty.Val : VmProperty → Type
  | .numCpu => ℤ
  | .memoryMb => ℤ
  | .host => ManagedObject
  | _ => String

structure DynamicProperty where
  property : VmProperty
  val : property.Val

/-- One machine of an answer. -/
structure ObjectContent where
  moId : String
  propSet : List DynamicProperty
  missingSet : List VmProperty

abbrev Props : Type := (p : VmProperty) → Option p.Val

def setProps (props : Props) (propSet : List DynamicProperty) : Props :=
  propSet.foldl (fun props p => Function.update props p.property (some p.val)) props

def clearProps (props : Props) (missingSet : List VmProperty) : Props :=
  missingSet.foldl (fun props miss => Function.update props miss none) props

/-- What is read of a property that is not there is what is read of one that is missing. -/
def propsToDict (content : ObjectContent) : Props :=
  clearProps (setProps (fun _ => none) content.propSet) content.missingSet

def truthy : Option String → Bool
  | some s => s ≠ ""
  | none => false

/-- `value or default`. -/
def textOr (default : String) (value : Option String) : String :=
  if truthy value then value.getD default else default

theorem textOr_some (default s : String) : textOr default (some s) = if s = "" then default else s := by
  by_cases hs : s = "" <;> simp [textOr,truthy,hs]

def powerMap : Option String → PowerState
  | some "poweredOn" => .on
  | some "poweredOff" => .off
  | some "suspended" => .suspended
  | _ => .unknown

def connectionStateMap : Option String → ConnectionState
  | some "connected" => .connected
  | some "disconnected" => .disconnected
  | some "inaccessible" => .inaccessible
  | some "invalid" => .inaccessible
  | some "orphaned" => .orphaned
  | _ => .unknown

def resolveOsName (toolsValue configValue : Option String) : Option String × Option OsSource :=
  if truthy toolsValue then (toolsValue,some .guestTools)
  else if truthy configValue then (configValue,some .vmConfig)
  else (none,none)

/-- The state of the tools is not trusted alone: without values the guest is unknown. -/
def mapGuestInfo (props : Props) (observedAt : Timestamp) : GuestInfo :=
  if props .toolsStatus = some "toolsNotInstalled" then { availability := .toolsNotInstalled }
  else if props .toolsRunningStatus ≠ none ∧
      props .toolsRunningStatus ≠ some "guestToolsRunning" then
    { availability := .toolsNotRunning }
  else if !truthy (props .hostName) && !truthy (props .guestFullName) then
    { availability := .unknown }
  else
    let os := resolveOsName (props .guestFullName) (props .configGuestFullName)
    { availability := .available, osName := os.1, osSource := os.2, hostname := props .hostName,
      observedAt := some observedAt }

def morefOrNone : Option ManagedObject → Option String
  | none => none
  | some o => some (if o.moId = "" then o.printed else o.moId)

/-- The native identifier is the instance UUID if it was read, else the reference. -/
def mapVirtualMachine (resourceId connectionId : UUID) (moid : String) (props : Props)
    (observedAt : Timestamp) : VirtualMachine where
  resourceId := resourceId
  connectionId := connectionId
  nativeId := textOr moid (props .instanceUuid)
  name := textOr moid (props .name)
  biosUuid := props .uuid
  powerState := powerMap (props .powerState)
  connectionState := connectionStateMap (props .connectionState)
  cpu := ⟨(props .numCpu).getD 0,none,none⟩
  memory := ⟨(props .memoryMb).getD 0⟩
  platform := { configuredOs := props .configGuestFullName }
  guest := mapGuestInfo props observedAt
  hostNativeId := morefOrNone (props .host)
  lastSeenAt := some observedAt

section
variable {p : VmProperty}

theorem setProps_append (props : Props) (ps qs : List DynamicProperty) :
    setProps props (ps ++ qs) = setProps (setProps props ps) qs :=
  List.foldl_append

theorem clearProps_apply (props : Props) (missingSet : List VmProperty) :
    clearProps props missingSet p = if p ∈ missingSet then none else props p := by
  induction missingSet generalizing props with
  | nil => rfl
  | cons miss missingSet ih =>
    rw [clearProps,List.foldl_cons]
    refine (ih _).trans ?_
    by_cases hp : p ∈ missingSet
    · rw [if_pos hp,if_pos (List.mem_cons_of_mem _ hp)]
    · by_cases hmiss : p = miss
      · subst hmiss
        rw [if_neg hp,if_pos List.mem_cons_self,Function.update_self]
      · rw [if_neg hp,Function.update_of_ne hmiss,if_neg (by simp [hmiss,hp])]

theorem setProps_apply {v : p.Val} (propSet : List DynamicProperty)
    (hv : ∀ w : p.Val, ⟨p,w⟩ ∈ propSet → w = v) :
    ((∃ w : p.Val, ⟨p,w⟩ ∈ propSet) → setProps (fun _ => none) propSet p = some v) ∧
    ((¬ ∃ w : p.Val, ⟨p,w⟩ ∈ propSet) → setProps (fun _ => none) propSet p = none) := by
  induction propSet using List.reverseRecOn with
  | nil =>
    refine ⟨?_,fun _ => rfl⟩
    rintro ⟨w,hw⟩
    cases hw
  | append_singleton propSet q ih =>
    have hrest := ih fun w hw => hv w (List.mem_append_left _ hw)
    rw [setProps_append]
    change ((_ → Function.update (setProps _ propSet) q.property (some q.val) p = some v) ∧
      (_ → Function.update (setProps _ propSet) q.property (some q.val) p = none))
    obtain ⟨r,x⟩ := q
    by_cases hr : p = r
    · subst hr
      have hx : x = v := hv x (by simp)
      refine ⟨fun _ => by rw [Function.update_self,hx],fun hnone => absurd ⟨x,by simp⟩ hnone⟩
    · rw [Function.update_of_ne hr]
      have hiff : (∃ w : p.Val, ⟨p,w⟩ ∈ propSet ++ [⟨r,x⟩]) ↔ ∃ w : p.Val, ⟨p,w⟩ ∈ propSet := by
        refine exists_congr fun w => ?_
        rw [List.mem_append,List.mem_singleton]
        refine or_iff_left fun he => hr ?_
        exact congrArg DynamicProperty.property he
      rw [hiff]
      exact hrest

end
end VCenter
end WzonePortal
