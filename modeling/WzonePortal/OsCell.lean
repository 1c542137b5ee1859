import WzonePortal.GuestConsistency
import WzonePortal.InventoryRoute

/-! The cell of the table that names a machine's operating system. A missing value has several
reasons, and the cell has to keep them apart: nothing is known, the guest is out of reach, or
the name is that of the configuration and not the guest's own. -/
namespace WzonePortal

inductive FieldKind
  | value | unavailable | na | empty
  deriving DecidableEq, Repr

structure Field where
  kind : FieldKind
  text : String
  icon : String
  sub : String
  mono : Bool := false
  deriving DecidableEq, Repr

structure FieldOptions where
  notSupported : Bool := false
  unavailableReason : Option String := none
  mono : Bool := false
  suffix : String := ""
  last : Option String := none
  lastAgo : Option String := none

def filled (value : Option String) : Option String := value.filter (· ≠ "")

def fieldOf (value : Option String) (opts : FieldOptions) : Field :=
  if opts.notSupported then ⟨.na,"해당 없음","◌","",false⟩
  else match filled opts.unavailableReason with
  | some reason => {
    kind := .unavailable
    text := "수집 불가 — " ++ reason
    icon := "⚠"
    sub := match filled opts.last with
      | some last => "마지막 확인: " ++ last ++
        match filled opts.lastAgo with
        | some lastAgo => " (" ++ lastAgo ++ ")"
        | none => ""
      | none => "" }
  | none => match filled value with
    | none => ⟨.empty,"—","","",false⟩
    | some value => ⟨.value,value ++ opts.suffix,"","",opts.mono⟩

/-- The clock of the browser counts milliseconds; `Date.parse` drops what is finer. -/
def Timestamp.milliseconds (t : Timestamp) : ℤ := t / 1000

def minutesSince (now : ℤ) (iso : Option Timestamp) : Option ℤ :=
  iso.map fun t => max 0 ((now-t.milliseconds) / 60000)

def agoText : Option ℤ → String
  | none => "—"
  | some minutes =>
    if minutes < 1 then "방금"
    else if minutes < 60 then toString minutes ++ "분 전"
    else if minutes / 60 < 24 then toString (minutes / 60) ++ "시간 전"
    else toString (minutes / 60 / 24) ++ "일 전"

/-- `g.unavailable_reason || '확인 필요'`. -/
def GuestInfoResponse.reasonText (g : GuestInfoResponse) : String :=
  (filled g.unavailableReason).getD "확인 필요"

def osField (now : ℤ) (vm : VmSummaryResponse) : Field :=
  if vm.guest.isCollected then
    fieldOf vm.guest.osName
      { suffix := if vm.guest.osSource = some .vmConfig then " (구성값)" else "" }
  else match filled vm.guest.osName with
  | some os => fieldOf none {
    unavailableReason := some vm.guest.reasonText
    last := some os
    lastAgo := some (agoText (minutesSince now vm.guest.observedAt)) }
  | none => match filled vm.configuredOs with
    | some os => { fieldOf (some os) { suffix := " (구성값)" } with sub := vm.guest.reasonText }
    | none => fieldOf none { unavailableReason := some vm.guest.reasonText }

/-- What can be known of the system of a machine. -/
inductive OsKnowledge
  | reported (os : String)
  | configured (os : String)
  | nameless
  | lastKnown (availability : GuestInfoAvailability) (os : String) (at_ : Timestamp)
  | configuredOnly (availability : GuestInfoAvailability) (os : String)
  | nothing (availability : GuestInfoAvailability)
  deriving DecidableEq, Repr

def OsKnowledge.ofConfiguration (availability : GuestInfoAvailability)
    (configuredOs : Option String) : OsKnowledge :=
  match filled configuredOs with
  | some os => .configuredOnly availability os
  | none => .nothing availability

def reasonOf (availability : GuestInfoAvailability) : String :=
  (unavailableReason availability).getD "확인 필요"

/-- How each of them looks. -/
def OsKnowledge.shown (now : ℤ) : OsKnowledge → Field
  | .reported os => ⟨.value,os,"","",false⟩
  | .configured os => ⟨.value,os ++ " (구성값)","","",false⟩
  | .nameless => ⟨.empty,"—","","",false⟩
  | .lastKnown availability os at_ => ⟨.unavailable,"수집 불가 — " ++ reasonOf availability,"⚠",
    "마지막 확인: " ++ os ++ (" (" ++ agoText (minutesSince now (some at_)) ++ ")"),false⟩
  | .configuredOnly availability os => ⟨.value,os ++ " (구성값)","",reasonOf availability,false⟩
  | .nothing availability => ⟨.unavailable,"수집 불가 — " ++ reasonOf availability,"⚠","",false⟩

section
variable {value : Option String} {text : String} {availability : GuestInfoAvailability}
  {vm : VmSummary} {now : ℤ} {at_ : Timestamp}

@[simp] theorem filled_none : filled none = none := rfl

theorem filled_eq_some : filled value = some text ↔ value = some text ∧ text ≠ "" := by
  rw [filled,Option.filter_eq_some_iff]
  simp

theorem filled_eq_none : filled value = none ↔ ¬ Filled value := by
  rw [filled,Option.filter_eq_none_iff]
  constructor
  · rintro h ⟨text,rfl,hne⟩
    exact h text rfl (by simpa using hne)
  · intro h text htext hne
    exact h ⟨text,htext,by simpa using hne⟩

theorem filled_some (h : text ≠ "") : filled (some text) = some text :=
  filled_eq_some.mpr ⟨rfl,h⟩

theorem agoText_ne_empty (minutes : Option ℤ) : agoText minutes ≠ "" := by
  have hunit : ∀ number unit : String, unit ≠ "" → number ++ unit ≠ "" := by
    intro number unit hunit h
    have hlength := congrArg String.length h
    rw [String.length_append] at hlength
    have hpos : unit.length ≠ 0 := by simpa using hunit
    simp at hlength
    exact hpos (by simp [hlength.2])
  rcases minutes with _ | minutes
  · decide
  · simp only [agoText]
    split_ifs
    · decide
    · exact hunit _ _ (by decide)
    · exact hunit _ _ (by decide)
    · exact hunit _ _ (by decide)

theorem reasonOf_ne_empty (availability : GuestInfoAvailability) : reasonOf availability ≠ "" := by
  cases availability <;> decide

theorem reasonText_fromSummary (h : vm.guestAvailability ≠ .available) :
    (VmSummaryResponse.fromSummary vm).guest.reasonText = reasonOf vm.guestAvailability := by
  simp only [VmSummaryResponse.fromSummary,GuestInfoResponse.reasonText,if_neg h]
  cases hv : vm.guestAvailability with
  | available => exact absurd hv h
  | toolsNotInstalled => rfl
  | toolsNotRunning => rfl
  | unknown => rfl

/-! The cell, by the columns of the row. -/

theorem osField_collected (h : vm.guestAvailability = .available) :
    osField now (.fromSummary vm) = match filled vm.guestOsName with
      | some os => ⟨.value,os ++ if vm.guestOsSource = some .vmConfig then " (구성값)" else "",
        "","",false⟩
      | none => ⟨.empty,"—","","",false⟩ := by
  simp only [osField,VmSummaryResponse.fromSummary,h,decide_true,if_true,fieldOf,filled_none]
  cases filled vm.guestOsName <;> rfl

theorem osField_lastKnown {os : String} (h : vm.guestAvailability ≠ .available)
    (hos : filled vm.guestOsName = some os) (hat : vm.guestObservedAt = some at_) :
    osField now (.fromSummary vm) =
      (OsKnowledge.lastKnown vm.guestAvailability os at_).shown now := by
  have hreason := reasonText_fromSummary h
  have hne := (filled_eq_some.mp hos).2
  unfold osField
  rw [if_neg (by simpa [VmSummaryResponse.fromSummary] using h),hreason]
  simp only [VmSummaryResponse.fromSummary,hos,fieldOf,filled_some (reasonOf_ne_empty _),
    filled_some hne,filled_some (agoText_ne_empty _),hat,OsKnowledge.shown]
  rfl

theorem osField_ofConfiguration (h : vm.guestAvailability ≠ .available)
    (hname : filled vm.guestOsName = none) :
    osField now (.fromSummary vm) =
      (OsKnowledge.ofConfiguration vm.guestAvailability vm.configuredOs).shown now := by
  have hreason := reasonText_fromSummary h
  unfold osField OsKnowledge.ofConfiguration
  rw [if_neg (by simpa [VmSummaryResponse.fromSummary] using h),hreason]
  simp only [VmSummaryResponse.fromSummary,hname]
  cases hos : filled vm.configuredOs with
  | some os =>
    simp only [fieldOf,filled_none,filled_some (filled_eq_some.mp hos).2,OsKnowledge.shown]
    rfl
  | none =>
    simp only [fieldOf,filled_none,filled_some (reasonOf_ne_empty _),OsKnowledge.shown]
    rfl

end
end WzonePortal
