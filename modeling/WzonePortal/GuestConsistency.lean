import WzonePortal.ReaderContainment
import WzonePortal.VCenterMapper

/-! What the guest of a machine is known by, whichever hypervisor it runs on. The three mappers
look at different fields to say whether the guest is available; what they fill in then has to
agree with what they say, or a collection overwrites known values with nothing. -/
namespace WzonePortal

open InventoryReaders Hyperv Json

/-- A text with something in it. -/
def Filled (value : Option String) : Prop := ∃ text, value = some text ∧ text ≠ ""

/-- The guest of one observation, from the name that the guest reports of its system and the name
that the configuration gives it. -/
structure GuestInfo.Consistent (fromGuest configured : Option String) (observedAt : Timestamp)
    (g : GuestInfo) : Prop where
  observed : g.availability = .available → g.observedAt = some observedAt
  known : g.availability = .available → Filled g.osName ∨ Filled g.hostname ∨
    g.ipv4Addresses ≠ [] ∨ g.ipv6Addresses ≠ []
  source : g.availability = .available → (g.osSource ≠ none ↔ g.osName ≠ none)
  guestTools : g.availability = .available →
    (g.osSource = some .guestTools ↔ Filled fromGuest ∧ g.osName = fromGuest)
  vmConfig : g.availability = .available →
    (g.osSource = some .vmConfig ↔ ¬ Filled fromGuest ∧ Filled configured ∧ g.osName = configured)
  empty : g.availability ≠ .available → g.osName = none ∧ g.osSource = none ∧
    g.hostname = none ∧ g.ipv4Addresses = [] ∧ g.ipv6Addresses = [] ∧ g.observedAt = none

namespace Json

/-- A text that may be missing. -/
def OptionalText (value : Json) : Prop := value = .null ∨ ∃ text, value = .str text

/-- A list of such elements that may be missing. -/
def OptionalList (good : Json → Prop) (value : Json) : Prop :=
  value = .null ∨ ∃ items, value = .arr items ∧ ∀ item ∈ items, good item

def asText : Json → Option String
  | .str text => some text
  | _ => none

end Json

/-- The types of the fields of a host's row that the guest is read from. -/
structure HostGuestRow (row : JsonFields) : Prop where
  ipv4 : (get row "KvpIPv4").OptionalText
  ipv6 : (get row "KvpIPv6").OptionalText
  fqdn : (get row "KvpFQDN").OptionalText
  osName : (get row "KvpOSName").OptionalText
  osVersion : (get row "KvpOSVersion").OptionalText
  adapters : (get row "Adapters").OptionalList
    (IsObject fun ad => (get ad "IPAddresses").OptionalList OptionalText)

/-- Those of a row of SCVMM. -/
structure ScvmmGuestRow (row : JsonFields) : Prop where
  operatingSystem : (get row "OperatingSystem").OptionalText
  adapters : (get row "Adapters").OptionalList (IsObject fun ad =>
    (get ad "IPv4").OptionalList OptionalText ∧ (get ad "IPv6").OptionalList OptionalText)

section
variable {py : Interpreter} {value : Json} {good good' : Json → Prop} {observedAt : Timestamp}

theorem filled_iff_truthy (value : Option String) : Filled value ↔ VCenter.truthy value = true := by
  cases value <;> simp [Filled,VCenter.truthy]

theorem emptyOrText_of_optional (h : value.OptionalText) : value.EmptyOrText := by
  obtain rfl | ⟨text,rfl⟩ := h
  · exact nofun
  · exact fun _ => trivial

theorem emptyOrList_of_optional (h : value.OptionalList good)
    (hgood : ∀ item, good item → good' item) : value.EmptyOrList good' := by
  obtain rfl | ⟨items,rfl,hitems⟩ := h
  · exact nofun
  · exact fun _ => ⟨items,rfl,fun item hitem => hgood item (hitems item hitem)⟩

theorem addressesOk_of_optional (h : value.OptionalList OptionalText) : value.AddressesOk := by
  obtain rfl | ⟨items,rfl,hitems⟩ := h
  · exact nofun
  · exact fun item hitem => emptyOrText_of_optional (hitems item hitem)

theorem orEmpty_of_optional (h : value.OptionalList OptionalText) :
    ∃ items, orEmpty value = .arr items ∧ ∀ item ∈ items, item.EmptyOrText := by
  obtain rfl | ⟨items,rfl,hitems⟩ := h
  · exact ⟨[],rfl,fun item hitem => absurd hitem List.not_mem_nil⟩
  · refine ⟨items,?_,fun item hitem => emptyOrText_of_optional (hitems item hitem)⟩
    cases items <;> rfl

theorem isObject_mono {p q : JsonFields → Prop} (hpq : ∀ fields, p fields → q fields)
    (h : value.IsObject p) : value.IsObject q := by
  cases value with
  | obj fields => exact hpq fields h
  | _ => exact h.elim

variable {fromGuest configured osName : Option String}

theorem consistent_unavailable {a : GuestInfoAvailability} (h : a ≠ .available) :
    GuestInfo.Consistent fromGuest configured observedAt { availability := a } where
  observed ha := absurd ha h
  known ha := absurd ha h
  source ha := absurd ha h
  guestTools ha := absurd ha h
  vmConfig ha := absurd ha h
  empty _ := ⟨rfl,rfl,rfl,rfl,rfl,rfl⟩

theorem not_filled_none : ¬ Filled none := by
  rintro ⟨_,h,_⟩
  cases h

theorem Filled.ne_none {value : Option String} (h : Filled value) : value ≠ none := by
  rintro rfl
  exact not_filled_none h

theorem resolveOsName_cases (fromGuest configured : Option String) :
    (Filled fromGuest ∧
      VCenter.resolveOsName fromGuest configured = (fromGuest,some .guestTools)) ∨
    (¬ Filled fromGuest ∧ Filled configured ∧
      VCenter.resolveOsName fromGuest configured = (configured,some .vmConfig)) ∨
    (¬ Filled fromGuest ∧ ¬ Filled configured ∧
      VCenter.resolveOsName fromGuest configured = (none,none)) := by
  rw [filled_iff_truthy,filled_iff_truthy,VCenter.resolveOsName]
  by_cases hguest : VCenter.truthy fromGuest = true
  · exact .inl ⟨hguest,if_pos hguest⟩
  · rw [if_neg hguest]
    by_cases hconfig : VCenter.truthy configured = true
    · exact .inr (.inl ⟨hguest,hconfig,if_pos hconfig⟩)
    · exact .inr (.inr ⟨hguest,hconfig,if_neg hconfig⟩)

theorem consistent_available {g : GuestInfo} (hobserved : g.observedAt = some observedAt)
    (havailable : g.availability = .available)
    (hos : (g.osName,g.osSource) = VCenter.resolveOsName fromGuest configured)
    (hknown : Filled g.osName ∨ Filled g.hostname ∨ g.ipv4Addresses ≠ [] ∨ g.ipv6Addresses ≠ []) :
    g.Consistent fromGuest configured observedAt := by
  rcases resolveOsName_cases fromGuest configured with ⟨hguest,h⟩ | ⟨hguest,hconfig,h⟩ |
    ⟨hguest,hconfig,h⟩
  · obtain ⟨hname,hsource⟩ := Prod.mk.inj (hos.trans h)
    refine ⟨fun _ => hobserved,fun _ => hknown,fun _ => ?_,fun _ => ?_,fun _ => ?_,
      fun h => absurd havailable h⟩
    · simp [hname,hsource,hguest.ne_none]
    · simp [hname,hsource,hguest]
    · simp [hsource,hguest]
  · obtain ⟨hname,hsource⟩ := Prod.mk.inj (hos.trans h)
    refine ⟨fun _ => hobserved,fun _ => hknown,fun _ => ?_,fun _ => ?_,fun _ => ?_,
      fun h => absurd havailable h⟩
    · simp [hname,hsource,hconfig.ne_none]
    · simp [hsource,hguest]
    · simp [hname,hsource,hguest,hconfig]
  · obtain ⟨hname,hsource⟩ := Prod.mk.inj (hos.trans h)
    refine ⟨fun _ => hobserved,fun _ => hknown,fun _ => ?_,fun _ => ?_,fun _ => ?_,
      fun h => absurd havailable h⟩
    · simp [hname,hsource]
    · simp [hsource,hguest]
    · simp [hsource,hconfig]

theorem consistent_vcenter (props : VCenter.Props) (observedAt : Timestamp) :
    (VCenter.mapGuestInfo props observedAt).Consistent (props .guestFullName)
      (props .configGuestFullName) observedAt := by
  unfold VCenter.mapGuestInfo
  split_ifs with hinstalled hrunning hvalues
  · exact consistent_unavailable (by decide)
  · exact consistent_unavailable (by decide)
  · exact consistent_unavailable (by decide)
  · refine consistent_available rfl rfl rfl ?_
    dsimp only
    by_cases hhost : Filled (props .hostName)
    · exact .inr (.inl hhost)
    · have hguest : Filled (props .guestFullName) := by
        rw [filled_iff_truthy] at hhost ⊢
        simpa [hhost] using hvalues
      rcases resolveOsName_cases (props .guestFullName) (props .configGuestFullName) with
        ⟨_,h⟩ | ⟨hempty,_⟩ | ⟨hempty,_⟩
      · rw [h]
        exact .inl hguest
      · exact absurd hguest hempty
      · exact absurd hguest hempty

theorem textOrNone_of_optional (hstr : ∀ text, py.str (.str text) = text)
    (h : value.OptionalText) :
    (¬ Filled value.asText ∧ textOrNone py value = none) ∨
      (Filled value.asText ∧ textOrNone py value = value.asText) := by
  obtain rfl | ⟨text,rfl⟩ := h
  · exact .inl ⟨not_filled_none,rfl⟩
  · by_cases htext : text = ""
    · subst htext
      exact .inl ⟨by rintro ⟨_,h,hne⟩; cases h; exact hne rfl,rfl⟩
    · refine .inr ⟨⟨text,rfl,htext⟩,?_⟩
      simp [textOrNone,truthy,htext,hstr,asText]

theorem isNone_of_not_filled (hstr : ∀ text, py.str (.str text) = text) (h : value.OptionalText)
    (hempty : ¬ Filled (textOrNone py value)) : (textOrNone py value).isNone = true := by
  rcases textOrNone_of_optional hstr h with ⟨_,hnone⟩ | ⟨hfilled,heq⟩
  · rw [hnone]
    rfl
  · rw [heq] at hempty
    exact absurd hfilled hempty

theorem resolve_textOrNone (hstr : ∀ text, py.str (.str text) = text) (h : value.OptionalText) :
    (textOrNone py value,if (textOrNone py value).isSome then some OsSource.guestTools else none) =
        VCenter.resolveOsName value.asText none ∧
      (textOrNone py value,if (textOrNone py value).isSome then some OsSource.vmConfig else none) =
        VCenter.resolveOsName none value.asText := by
  have hnothing : VCenter.truthy none = false := rfl
  rcases textOrNone_of_optional hstr h with ⟨hempty,hnone⟩ | ⟨hfilled,heq⟩
  · rw [filled_iff_truthy] at hempty
    simp [hnone,VCenter.resolveOsName,hempty,hnothing]
  · obtain ⟨text,htext,_⟩ := id hfilled
    rw [filled_iff_truthy] at hfilled
    rw [htext] at hfilled
    simp [VCenter.resolveOsName,heq,hnothing,htext,hfilled]

theorem ok_of_bind {α β : Type} {x : Except Raised α} {f : α → Except Raised β} {b : β}
    (h : (x >>= f) = .ok b) : ∃ a, f a = .ok b := by
  cases x with
  | ok a => exact ⟨a,h⟩
  | error e => cases h

theorem hostGuestRow_usable {row : JsonFields} (h : HostGuestRow row) :
    ∃ g, HostMapper.mapGuestInfo py row observedAt = .ok g :=
  (decides_mapGuestInfo row observedAt).succeeds fun _ =>
    ⟨emptyOrText_of_optional h.ipv4,emptyOrText_of_optional h.ipv6,
      emptyOrList_of_optional h.adapters fun _ =>
        isObject_mono fun _ => addressesOk_of_optional⟩

theorem scvmmGuestRow_usable {row : JsonFields} (h : ScvmmGuestRow row) :
    ∃ g, ScvmmMapper.mapScvmmGuest py row observedAt = .ok g := by
  refine (decides_mapScvmmGuest row observedAt).succeeds ?_
  refine emptyOrList_of_optional h.adapters fun _ => isObject_mono fun fields hfields => ?_
  obtain ⟨v4,hv4,htexts4⟩ := orEmpty_of_optional hfields.1
  obtain ⟨v6,hv6,htexts6⟩ := orEmpty_of_optional hfields.2
  rw [hv4,hv6]
  exact List.forall_mem_append.mpr ⟨htexts4,htexts6⟩

theorem consistent_host {row : JsonFields} {g : GuestInfo}
    (hstr : ∀ text, py.str (.str text) = text) (hrow : HostGuestRow row)
    (h : HostMapper.mapGuestInfo py row observedAt = .ok g) :
    g.Consistent (get row "KvpOSName").asText none observedAt := by
  unfold HostMapper.mapGuestInfo at h
  by_cases hoff : (!(get row "IntegrationOk").truthy) = true
  · rw [if_pos hoff] at h
    cases h
    exact consistent_unavailable (by decide)
  · rw [if_neg hoff] at h
    obtain ⟨v4Raw,h⟩ := ok_of_bind h
    obtain ⟨v6Raw,h⟩ := ok_of_bind h
    obtain ⟨adapters,h⟩ := ok_of_bind h
    obtain ⟨addresses,h⟩ := ok_of_bind h
    obtain ⟨⟨v4,v6⟩,h⟩ := ok_of_bind h
    dsimp only at h
    by_cases hnothing : ((textOrNone py (get row "KvpFQDN")).isNone &&
        (textOrNone py (get row "KvpOSName")).isNone && v4.isEmpty && v6.isEmpty) = true
    · rw [if_pos hnothing] at h
      cases h
      exact consistent_unavailable (by decide)
    · rw [if_neg hnothing] at h
      cases h
      refine consistent_available rfl rfl (resolve_textOrNone hstr hrow.osName).1 ?_
      by_contra hunknown
      simp only [not_or,not_not] at hunknown
      obtain ⟨hname,hhost,rfl,rfl⟩ := hunknown
      exact hnothing (by simp [isNone_of_not_filled hstr hrow.osName hname,
        isNone_of_not_filled hstr hrow.fqdn hhost])

theorem consistent_scvmm {row : JsonFields} {g : GuestInfo}
    (hstr : ∀ text, py.str (.str text) = text) (hrow : ScvmmGuestRow row)
    (h : ScvmmMapper.mapScvmmGuest py row observedAt = .ok g) :
    g.Consistent none (get row "OperatingSystem").asText observedAt := by
  unfold ScvmmMapper.mapScvmmGuest at h
  obtain ⟨adapters,h⟩ := ok_of_bind h
  obtain ⟨addresses,h⟩ := ok_of_bind h
  obtain ⟨⟨v4,v6⟩,h⟩ := ok_of_bind h
  dsimp only at h
  by_cases hnothing : (v4.isEmpty && v6.isEmpty &&
      (textOrNone py (get row "OperatingSystem")).isNone) = true
  · rw [if_pos hnothing] at h
    cases h
    exact consistent_unavailable (by decide)
  · rw [if_neg hnothing] at h
    cases h
    refine consistent_available rfl rfl (resolve_textOrNone hstr hrow.operatingSystem).2 ?_
    by_contra hunknown
    simp only [not_or,not_not] at hunknown
    obtain ⟨hname,_,rfl,rfl⟩ := hunknown
    exact hnothing (by simp [isNone_of_not_filled hstr hrow.operatingSystem hname])

end

/-- All three mappers give a guest that agrees with itself, and the two for Hyper-V do give one
for every row of the right types. -/
theorem guest_info_consistent (py : Interpreter) (hstr : ∀ text, py.str (.str text) = text)
    (observedAt : Timestamp) :
    (∀ props : VCenter.Props, (VCenter.mapGuestInfo props observedAt).Consistent
      (props .guestFullName) (props .configGuestFullName) observedAt) ∧
    (∀ row, HostGuestRow row → ∃ g, HostMapper.mapGuestInfo py row observedAt = .ok g ∧
      g.Consistent (get row "KvpOSName").asText none observedAt) ∧
    (∀ row, ScvmmGuestRow row → ∃ g, ScvmmMapper.mapScvmmGuest py row observedAt = .ok g ∧
      g.Consistent none (get row "OperatingSystem").asText observedAt) := by
  refine ⟨fun props => consistent_vcenter props observedAt,fun row hrow => ?_,fun row hrow => ?_⟩
  · obtain ⟨g,hg⟩ := hostGuestRow_usable hrow
    exact ⟨g,hg,consistent_host hstr hrow hg⟩
  · obtain ⟨g,hg⟩ := scvmmGuestRow_usable hrow
    exact ⟨g,hg,consistent_scvmm hstr hrow hg⟩

def oneAddress : Interpreter :=
  { plainInterpreter with
    ipAddress := fun text =>
      if text = "10.0.0.7" then some ⟨4,"10.0.0.7",false,false,false⟩ else none }

def blankNameRow : JsonFields :=
  [("IntegrationOk",.bool true),("KvpOSName",.str ""),
    ("Adapters",.arr [.obj [("IPAddresses",.arr [.str "10.0.0.7"])]])]

def databaseNameRow : JsonFields := [("OperatingSystem",.str "Ubuntu Linux 22.04")]

theorem blankNameRow_typed : HostGuestRow blankNameRow := by
  refine ⟨.inl rfl,.inl rfl,.inl rfl,.inr ⟨"",rfl⟩,.inl rfl,.inr ⟨_,rfl,?_⟩⟩
  intro item hitem
  rw [List.mem_singleton.mp hitem]
  refine .inr ⟨_,rfl,?_⟩
  intro address haddress
  rw [List.mem_singleton.mp haddress]
  exact .inr ⟨_,rfl⟩

theorem guest_info_consistent_rows :
    (∃ g, HostMapper.mapGuestInfo oneAddress blankNameRow 20 = .ok g ∧
      g.Consistent (some "") none 20) ∧
    ∃ g, ScvmmMapper.mapScvmmGuest oneAddress databaseNameRow 20 = .ok g ∧
      g.Consistent none (some "Ubuntu Linux 22.04") 20 :=
  ⟨(guest_info_consistent oneAddress (fun _ => rfl) 20).2.1 blankNameRow blankNameRow_typed,
    (guest_info_consistent oneAddress (fun _ => rfl) 20).2.2 databaseNameRow
      ⟨.inr ⟨_,rfl⟩,.inl rfl⟩⟩

end WzonePortal
