import Mathlib.Data.Rat.Defs
import WzonePortal.CredentialCipher
import WzonePortal.InventoryReaders

/-! The rows that PowerShell sends as JSON, and the machines that the two Hyper-V mappers make of
them. A row may hold any value under any key; what a mapper cannot use makes the interpreter
raise an exception of its own. -/
namespace WzonePortal

/-- A floating-point number as `json.loads` reads it. -/
inductive JsonFloat
  | finite (value : ℚ)
  | infinite (negative : Bool)
  | nan
  deriving DecidableEq

inductive Json
  | null
  | bool (value : Bool)
  | int (value : ℤ)
  | float (value : JsonFloat)
  | str (text : String)
  | arr (items : List Json)
  | obj (fields : List (String × Json))

/-- A JSON object. -/
abbrev JsonFields : Type := List (String × Json)

structure IpAddress where
  version : ℕ
  text : String
  isLoopback : Bool
  isLinkLocal : Bool
  isUnspecified : Bool
  deriving DecidableEq

/-- What the mappers use of the interpreter's texts: `str`, `str.strip`, `str.lower`, the decimal
digits of `int` and `ip_address`, which accepts a text or does not. -/
structure Interpreter where
  str : Json → String
  strip : String → String
  lower : String → String
  toAscii : Char → Char
  ipAddress : String → Option IpAddress

/-- An exception of the interpreter; its text is left out. -/
def crash {α : Type} (typeName : String) : Except Raised α := .error (.other typeName "")

namespace Json

def truthy : Json → Bool
  | .null => false
  | .bool value => value
  | .int value => value ≠ 0
  | .float (.finite value) => value ≠ 0
  | .float _ => true
  | .str text => text ≠ ""
  | .arr items => !items.isEmpty
  | .obj fields => !fields.isEmpty

/-- `row.get(key)`. -/
def get (row : JsonFields) (key : String) : Json := (row.lookup key).getD .null

/-- `row[key]`. -/
def index (row : JsonFields) (key : String) : Except Raised Json :=
  match row.lookup key with
  | some value => .ok value
  | none => crash "KeyError"

/-- `a or b`. -/
def orElse (a b : Json) : Json := if a.truthy then a else b

def orEmpty (value : Json) : Json := orElse value (.arr [])

def orZero (value : Json) : Json := orElse value (.int 0)

/-- `value == n`. -/
def equalsInt (n : ℤ) : Json → Bool
  | .int value => value = n
  | .bool value => (if value then 1 else 0) = n
  | .float (.finite value) => value = n
  | _ => false

/-- The elements of a `for` loop. -/
def iterate : Json → Except Raised (List Json)
  | .arr items => .ok items
  | .str text => .ok (text.toList.map fun c => .str c.toString)
  | .obj fields => .ok (fields.map fun f => .str f.1)
  | _ => crash "TypeError"

/-- The elements of `a + b`. The sum of two numbers is no more to be iterated than a sum of two
values that cannot be added. -/
def iterateSum : Json → Json → Except Raised (List Json)
  | .arr a, .arr b => .ok (a ++ b)
  | .str a, .str b => iterate (.str (a ++ b))
  | _, _ => crash "TypeError"

/-- An element of a list whose `get` is called. -/
def asFields : Json → Except Raised JsonFields
  | .obj fields => .ok fields
  | _ => crash "AttributeError"

end Json

namespace Hyperv

section
variable (py : Interpreter)

/-- `int(value)`. -/
def toInt : Json → Except Raised ℤ
  | .int value => .ok value
  | .bool value => .ok (if value then 1 else 0)
  | .float (.finite value) => .ok (value.num.tdiv value.den)
  | .float (.infinite _) => crash "OverflowError"
  | .float .nan => crash "ValueError"
  | .str text => match intOfStr py.toAscii text.toList with
    | some value => .ok value
    | none => crash "ValueError"
  | _ => crash "TypeError"

/-- A value that is passed on as it is, by its text; `value or None`. -/
def textOrNone (value : Json) : Option String := if value.truthy then some (py.str value) else none

/-- A value that is passed on as it is, `None` included. -/
def text : Json → Option String
  | .null => none
  | value => some (py.str value)

def mapEnabledState (state : ℤ) : PowerState :=
  if state = 2 then .on
  else if state = 3 then .off
  else if state = 6 ∨ state = 9 then .suspended
  else .unknown

def mapStateName (state : String) : PowerState :=
  if state = "Running" then .on
  else if state = "PowerOff" ∨ state = "Stopped" then .off
  else if state = "Paused" ∨ state = "Saved" then .suspended
  else .unknown

def mapPowerState : Json → PowerState
  | .null => .unknown
  | .bool _ => .unknown
  | .int state => mapEnabledState state
  | state => mapStateName (py.str state)

def isHex (c : Char) : Bool := c.isDigit || ('a' ≤ c && c ≤ 'f')

def isGuid (text : List Char) : Bool :=
  (text.splitOn '-').map List.length = [8,4,4,4,12] && text.all fun c => c = '-' || isHex c

def isBrace (c : Char) : Bool := c = '\x7b' || c = '\x7d'

def cleanGuid (raw : String) : String :=
  py.lower (String.ofList
    (((py.strip raw).toList.dropWhile isBrace).reverse.dropWhile isBrace).reverse)

/-- A helper that asks `if not raw` and then uses `raw` as a text. -/
def ofText {α : Type} (empty : α) (use : String → α) (typeName : String) (raw : Json) :
    Except Raised α :=
  if !raw.truthy then .ok empty
  else match raw with
    | .str text => .ok (use text)
    | _ => crash typeName

def normalizeGuid : Json → Except Raised (Option String) :=
  ofText none (fun raw => if isGuid (cleanGuid py raw).toList then some (cleanGuid py raw) else none)
    "AttributeError"

/-- Bytes to megabytes. -/
def toMb : Json → Except Raised (Option ℤ)
  | .null => .ok none
  | raw => do
    let bytes ← toInt py raw
    pure (some (bytes / 1048576))

/-- The parts between semicolons and commas, without blanks and without empty parts. -/
def splitKvpAddresses : Json → Except Raised (List Json) :=
  ofText [] (fun raw => ((raw.toList.splitOnP fun c => c = ';' || c = ',').map fun p =>
    py.strip (String.ofList p)).filter (· ≠ "") |>.map Json.str) "TypeError"

def normalizeIp : Json → Except Raised (Option String) :=
  ofText none (fun raw => (py.ipAddress (py.strip raw)).map (·.text)) "AttributeError"

def isReportableIp (ip : IpAddress) : Bool :=
  !(ip.isLoopback || ip.isLinkLocal || ip.isUnspecified)

/-- The addresses by version, normalised and with doubles, in their order. -/
def sortAddresses : List Json → Except Raised (List String × List String)
  | [] => .ok ([],[])
  | raw::rest => do
    let norm ← normalizeIp py raw
    let (v4,v6) ← sortAddresses rest
    match norm.bind fun norm => (py.ipAddress norm).map fun ip => (norm,ip) with
    | none => pure (v4,v6)
    | some (norm,ip) =>
      if !isReportableIp ip then pure (v4,v6)
      else if ip.version = 4 then pure (norm::v4,v6)
      else pure (v4,norm::v6)

def splitIpFamilies (addrs : List Json) : Except Raised (List String × List String) := do
  let (v4,v6) ← sortAddresses py addrs
  pure (v4.eraseDups,v6.eraseDups)

/-- The addresses of the adapters, in the order of the adapters. -/
def addressesOfAll (addressesOf : JsonFields → Except Raised (List Json)) :
    List Json → Except Raised (List Json)
  | [] => .ok []
  | ad::ads => do
    let ad ← Json.asFields ad
    let addresses ← addressesOf ad
    let rest ← addressesOfAll addressesOf ads
    pure (addresses ++ rest)

def firmwareOf (generation : Json) : Firmware :=
  if generation.equalsInt 2 then .uefi
  else if generation.equalsInt 1 then .bios
  else .unknown

end
end Hyperv

namespace HostMapper

open Hyperv Json

section
variable (py : Interpreter)

def adapterAddresses (ad : JsonFields) : Except Raised (List Json) :=
  iterate (orEmpty (get ad "IPAddresses"))

def mapGuestInfo (row : JsonFields) (observedAt : Timestamp) : Except Raised GuestInfo :=
  if !(get row "IntegrationOk").truthy then .ok { availability := .toolsNotInstalled }
  else do
    let v4Raw ← splitKvpAddresses py (get row "KvpIPv4")
    let v6Raw ← splitKvpAddresses py (get row "KvpIPv6")
    let adapters ← iterate (orEmpty (get row "Adapters"))
    let addresses ← addressesOfAll adapterAddresses adapters
    let (v4,v6) ← splitIpFamilies py (v4Raw ++ addresses ++ v6Raw)
    let fqdn := textOrNone py (get row "KvpFQDN")
    let osName := textOrNone py (get row "KvpOSName")
    if fqdn.isNone && osName.isNone && v4.isEmpty && v6.isEmpty then
      pure { availability := .toolsNotRunning }
    else
      pure { availability := .available, osName := osName,
             osVersion := textOrNone py (get row "KvpOSVersion"),
             osSource := if osName.isSome then some .guestTools else none, hostname := fqdn,
             ipv4Addresses := v4, ipv6Addresses := v6, observedAt := some observedAt }

def mapVirtualMachine (uuid4 connectionId : UUID) (row : JsonFields) (observedAt : Timestamp) :
    Except Raised VirtualMachine := do
  let id ← index row "Id"
  let nativeId := py.str id
  let biosUuid ← normalizeGuid py (get row "BiosGuid")
  let totalVcpu ← toInt py (orZero (get row "ProcessorCount"))
  let assignedMb ← toMb py (orElse (get row "MemoryAssigned") (get row "MemoryStartup"))
  let guest ← mapGuestInfo py row observedAt
  pure
    { resourceId := uuid4
      connectionId := connectionId
      nativeId := nativeId
      name := (textOrNone py (get row "Name")).getD nativeId
      biosUuid := biosUuid
      powerState := mapPowerState py (get row "State")
      connectionState := .connected
      cpu := ⟨totalVcpu,none,none⟩
      memory := ⟨assignedMb.getD 0⟩
      platform := ⟨text py (get row "Version"),firmwareOf (get row "Generation"),none⟩
      guest := guest
      hostNativeId := textOrNone py (get row "ComputerName")
      lastSeenAt := some observedAt }

end
end HostMapper

namespace ScvmmMapper

open Hyperv Json

section
variable (py : Interpreter)

def adapterAddresses (ad : JsonFields) : Except Raised (List Json) :=
  iterateSum (orEmpty (get ad "IPv4")) (orEmpty (get ad "IPv6"))

def mapScvmmGuest (row : JsonFields) (observedAt : Timestamp) : Except Raised GuestInfo := do
  let adapters ← iterate (orEmpty (get row "Adapters"))
  let addresses ← addressesOfAll adapterAddresses adapters
  let (v4,v6) ← splitIpFamilies py addresses
  let osName := textOrNone py (get row "OperatingSystem")
  if v4.isEmpty && v6.isEmpty && osName.isNone then pure { availability := .toolsNotInstalled }
  else
    pure { availability := .available, osName := osName,
           osSource := if osName.isSome then some .vmConfig else none,
           ipv4Addresses := v4, ipv6Addresses := v6, observedAt := some observedAt }

def mapScvmmVm (uuid4 connectionId : UUID) (row : JsonFields) (observedAt : Timestamp) :
    Except Raised VirtualMachine := do
  let id ← index row "Id"
  let nativeId := py.str id
  let totalVcpu ← toInt py (orZero (get row "ProcessorCount"))
  let assignedMb ← toInt py (orZero (get row "MemoryMB"))
  let guest ← mapScvmmGuest py row observedAt
  pure
    { resourceId := uuid4
      connectionId := connectionId
      nativeId := nativeId
      name := (textOrNone py (get row "Name")).getD nativeId
      powerState := mapPowerState py (get row "State")
      connectionState := .connected
      cpu := ⟨totalVcpu,none,none⟩
      memory := ⟨assignedMb⟩
      platform := ⟨text py (get row "Version"),firmwareOf (get row "Generation"),
        textOrNone py (get row "OperatingSystem")⟩
      guest := guest
      hostNativeId := textOrNone py (get row "HostName")
      lastSeenAt := some observedAt }

end
end ScvmmMapper
end WzonePortal
