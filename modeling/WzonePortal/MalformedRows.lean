import WzonePortal.ErrorTranslation
import WzonePortal.HypervMapper

/-! What escapes from the Hyper-V readers. The errors of a session and of a query are translated
and caught; the rows are mapped behind the handlers, so a row that the mapper cannot use raises
through the reader. -/
namespace WzonePortal

open InventoryReaders Hyperv Json

/-- The computation succeeds exactly if `P` holds; otherwise the interpreter raises. -/
structure Decides {α : Type} (x : Except Raised α) (P : Prop) : Prop where
  succeeds : P → ∃ a, x = .ok a
  crashes : ¬ P → ∃ typeName, x = .error (.other typeName "")

namespace Decides

variable {α β : Type} {x : Except Raised α} {f : α → Except Raised β} {P Q : Prop}

theorem ok (a : α) : Decides (.ok a : Except Raised α) True :=
  ⟨fun _ => ⟨a,rfl⟩,fun h => absurd trivial h⟩

theorem crash (typeName : String) : Decides (WzonePortal.crash typeName : Except Raised α) False :=
  ⟨fun h => h.elim,fun _ => ⟨typeName,rfl⟩⟩

theorem congr (h : Decides x P) (hPQ : P ↔ Q) : Decides x Q :=
  ⟨fun hQ => h.succeeds (hPQ.mpr hQ),fun hQ => h.crashes fun hP => hQ (hPQ.mp hP)⟩

theorem bind (hx : Decides x P) (hf : ∀ a, x = .ok a → Decides (f a) Q) :
    Decides (x >>= f) (P ∧ Q) := by
  constructor
  · rintro ⟨hP,hQ⟩
    obtain ⟨a,ha⟩ := hx.succeeds hP
    obtain ⟨b,hb⟩ := (hf a ha).succeeds hQ
    exact ⟨b,by rw [ha]; exact hb⟩
  · intro hPQ
    by_cases hP : P
    · obtain ⟨a,ha⟩ := hx.succeeds hP
      obtain ⟨typeName,he⟩ := (hf a ha).crashes fun hQ => hPQ ⟨hP,hQ⟩
      exact ⟨typeName,by rw [ha]; exact he⟩
    · obtain ⟨typeName,he⟩ := hx.crashes hP
      exact ⟨typeName,by rw [he]; rfl⟩

theorem andThen (hx : Decides x P) (hf : ∀ a, ∃ b, f a = .ok b) : Decides (x >>= f) P := by
  refine (hx.bind (Q:=True) fun a _ => ?_).congr (by simp)
  obtain ⟨b,hb⟩ := hf a
  rw [hb]
  exact .ok b

end Decides

namespace Json

def IsText : Json → Prop
  | .str _ => True
  | _ => False

/-- Nothing, or a text. -/
def EmptyOrText (value : Json) : Prop := value.truthy = true → value.IsText

def Iterable : Json → Prop
  | .arr _ => True
  | .str _ => True
  | .obj _ => True
  | _ => False

/-- `int` accepts the value. -/
def IsInt (toAscii : Char → Char) : Json → Prop
  | .int _ => True
  | .bool _ => True
  | .float (.finite _) => True
  | .str text => (intOfStr toAscii text.toList).isSome = true
  | _ => False

/-- Nothing, or a list all of whose elements are good. -/
def EmptyOrList (good : Json → Prop) (value : Json) : Prop :=
  value.truthy = true → ∃ items, value = .arr items ∧ ∀ item ∈ items, good item

/-- The addresses of an adapter of a host: nothing, a text or an object, whose characters or keys
count as addresses, or a list of texts. -/
def AddressesOk : Json → Prop
  | .arr items => ∀ item ∈ items, item.EmptyOrText
  | value => value.truthy = true → value.Iterable

/-- The addresses of an adapter of SCVMM: two lists of texts, or two texts. -/
def SumOk : Json → Json → Prop
  | .arr a, .arr b => ∀ item ∈ a ++ b, item.EmptyOrText
  | .str _, .str _ => True
  | _, _ => False

def IsObject (good : JsonFields → Prop) : Json → Prop
  | .obj fields => good fields
  | _ => False

end Json

/-- A row that the mapper of the hosts can use. -/
structure HostRow (toAscii : Char → Char) (row : JsonFields) : Prop where
  id : (row.lookup "Id").isSome = true
  biosGuid : (get row "BiosGuid").EmptyOrText
  processorCount : (orZero (get row "ProcessorCount")).IsInt toAscii
  memory : (orElse (get row "MemoryAssigned") (get row "MemoryStartup")) = .null ∨
    (orElse (get row "MemoryAssigned") (get row "MemoryStartup")).IsInt toAscii
  guest : (get row "IntegrationOk").truthy = true → (get row "KvpIPv4").EmptyOrText ∧
    (get row "KvpIPv6").EmptyOrText ∧
    (get row "Adapters").EmptyOrList (IsObject fun ad => (get ad "IPAddresses").AddressesOk)

/-- A row that the mapper of SCVMM can use. -/
structure ScvmmRow (toAscii : Char → Char) (row : JsonFields) : Prop where
  id : (row.lookup "Id").isSome = true
  processorCount : (orZero (get row "ProcessorCount")).IsInt toAscii
  memory : (orZero (get row "MemoryMB")).IsInt toAscii
  adapters : (get row "Adapters").EmptyOrList
    (IsObject fun ad => SumOk (orEmpty (get ad "IPv4")) (orEmpty (get ad "IPv6")))

section
variable {py : Interpreter} {value : Json}

theorem decides_asFields : Decides (asFields value) (value.IsObject fun _ => True) := by
  cases value with
  | obj fields => exact .ok fields
  | _ => exact .crash _

theorem decides_iterate : Decides (iterate value) value.Iterable := by
  cases value with
  | arr items => exact .ok _
  | str text => exact .ok _
  | obj fields => exact .ok _
  | _ => exact .crash _

theorem decides_toInt : Decides (toInt py value) (value.IsInt py.toAscii) := by
  cases value with
  | int n => exact .ok _
  | bool b => exact .ok _
  | float x =>
    cases x with
    | finite q => exact .ok _
    | _ => exact .crash _
  | str text =>
    simp only [toInt,IsInt]
    cases intOfStr py.toAscii text.toList with
    | none => exact (Decides.crash _).congr (by simp)
    | some n => exact (Decides.ok _).congr (by simp)
  | _ => exact .crash _

theorem decides_toMb : Decides (toMb py value) (value = .null ∨ value.IsInt py.toAscii) := by
  have hint : value ≠ .null → Decides (toInt py value >>= fun bytes => pure (some (bytes / 1048576)))
      (value = .null ∨ value.IsInt py.toAscii) := fun hne =>
    (decides_toInt.andThen fun bytes => ⟨_,rfl⟩).congr (by simp [hne])
  cases value with
  | null => exact (Decides.ok _).congr (by simp)
  | _ => exact hint (by simp)

theorem decides_index (row : JsonFields) (key : String) :
    Decides (index row key) ((row.lookup key).isSome = true) := by
  unfold index
  cases row.lookup key with
  | none => exact (Decides.crash _).congr (by simp)
  | some value => exact (Decides.ok _).congr (by simp)

theorem decides_ofText {α : Type} {empty : α} {use : String → α} {typeName : String} :
    Decides (ofText empty use typeName value) value.EmptyOrText := by
  unfold ofText
  by_cases htruthy : value.truthy = true
  · simp only [htruthy,Bool.not_true,Bool.false_eq_true,if_false]
    cases value with
    | str text => exact (Decides.ok _).congr (by simp [EmptyOrText,IsText])
    | _ => exact (Decides.crash _).congr (by simpa [EmptyOrText,IsText] using htruthy)
  · simp only [Bool.not_eq_true] at htruthy
    simp only [htruthy,Bool.not_false,if_true]
    exact (Decides.ok _).congr (by simp [EmptyOrText,htruthy])

theorem decides_normalizeGuid : Decides (normalizeGuid py value) value.EmptyOrText := decides_ofText

theorem decides_normalizeIp : Decides (normalizeIp py value) value.EmptyOrText := decides_ofText

theorem decides_splitKvpAddresses : Decides (splitKvpAddresses py value) value.EmptyOrText :=
  decides_ofText

theorem decides_sortAddresses (addrs : List Json) :
    Decides (sortAddresses py addrs) (∀ a ∈ addrs, a.EmptyOrText) := by
  induction addrs with
  | nil => exact (Decides.ok _).congr (by simp)
  | cons raw rest ih =>
    refine (decides_normalizeIp.bind fun norm _ => ih.andThen fun families => ?_).congr
      List.forall_mem_cons.symm
    obtain ⟨v4,v6⟩ := families
    dsimp only
    split
    · exact ⟨_,rfl⟩
    · split
      · exact ⟨_,rfl⟩
      · split <;> exact ⟨_,rfl⟩

theorem decides_splitIpFamilies (addrs : List Json) :
    Decides (splitIpFamilies py addrs) (∀ a ∈ addrs, a.EmptyOrText) :=
  (decides_sortAddresses addrs).andThen fun _ => ⟨_,rfl⟩

theorem texts_map_str {α : Type} (f : α → String) (items : List α) :
    ∀ a ∈ items.map fun item => Json.str (f item), a.EmptyOrText := by
  intro a ha
  obtain ⟨item,_,rfl⟩ := List.mem_map.mp ha
  exact fun _ => trivial

theorem splitKvpAddresses_texts {addresses : List Json}
    (h : splitKvpAddresses py value = .ok addresses) : ∀ a ∈ addresses, a.EmptyOrText := by
  unfold splitKvpAddresses ofText at h
  split at h
  · cases h
    simp
  · split at h
    · cases h
      exact texts_map_str id _
    · cases h

section
variable {addressesOf : JsonFields → Except Raised (List Json)} {usable good : JsonFields → Prop}

theorem decides_addressesOfAll (hof : ∀ ad, Decides (addressesOf ad) (usable ad)) (ads : List Json) :
    Decides (addressesOfAll addressesOf ads) (∀ ad ∈ ads, ad.IsObject usable) := by
  induction ads with
  | nil => exact (Decides.ok _).congr (by simp)
  | cons ad ads ih =>
    cases ad with
    | obj fields =>
      refine (((hof fields).bind fun _ _ => ih.andThen fun _ => ⟨_,rfl⟩)).congr ?_
      rw [List.forall_mem_cons]
      rfl
    | _ => exact (Decides.crash _).congr (by simp [IsObject])

theorem addressesOfAll_texts {ads addresses : List Json}
    (hgood : ∀ ad items, addressesOf ad = .ok items → ((∀ a ∈ items, a.EmptyOrText) ↔ good ad))
    (h : addressesOfAll addressesOf ads = .ok addresses) :
    (∀ a ∈ addresses, a.EmptyOrText) ↔ ∀ ad ∈ ads, ad.IsObject good := by
  induction ads generalizing addresses with
  | nil =>
    cases h
    simp
  | cons ad ads ih =>
    cases ad with
    | obj fields =>
      unfold addressesOfAll at h
      cases hfst : addressesOf fields with
      | error e => simp only [asFields,hfst,bind,Except.bind] at h; cases h
      | ok items =>
        cases hrest : addressesOfAll addressesOf ads with
        | error e => simp only [asFields,hfst,hrest,bind,Except.bind] at h; cases h
        | ok rest =>
          simp only [asFields,hfst,hrest,bind,Except.bind] at h
          cases h
          rw [List.forall_mem_append,List.forall_mem_cons,hgood fields items hfst,ih hrest]
          rfl
    | _ => cases h

theorem iterate_objects {ads : List Json} (h : iterate (orEmpty value) = .ok ads) :
    (∀ ad ∈ ads, ad.IsObject good) ↔ value.EmptyOrList (IsObject good) := by
  by_cases htruthy : value.truthy = true
  · rw [orEmpty,orElse,if_pos htruthy] at h
    unfold EmptyOrList
    cases value with
    | arr items =>
      cases h
      simp [htruthy]
    | str text =>
      cases h
      have hne : text.toList ≠ [] := by
        intro hnil
        have hempty : text = "" := String.toList_eq_nil_iff.mp hnil
        simp [truthy,hempty] at htruthy
      obtain ⟨c,hc⟩ := List.exists_mem_of_ne_nil _ hne
      refine iff_of_false (fun hall => ?_) (by simp [htruthy])
      exact hall _ (List.mem_map.mpr ⟨c,hc,rfl⟩)
    | obj fields =>
      cases h
      have hne : fields ≠ [] := by
        rintro rfl
        cases htruthy
      obtain ⟨f,hf⟩ := List.exists_mem_of_ne_nil _ hne
      refine iff_of_false (fun hall => ?_) (by simp [htruthy])
      exact hall _ (List.mem_map.mpr ⟨f,hf,rfl⟩)
    | _ => cases h
  · rw [orEmpty,orElse,if_neg htruthy] at h
    cases h
    simp [EmptyOrList,htruthy]

theorem iterable_of_emptyOrList (h : value.EmptyOrList (IsObject good)) :
    (orEmpty value).Iterable := by
  unfold orEmpty orElse
  split
  · rename_i htruthy
    obtain ⟨items,rfl,_⟩ := h htruthy
    trivial
  · trivial

theorem decides_adapters {α : Type} (hof : ∀ ad, Decides (addressesOf ad) (usable ad))
    (hgood : ∀ ad items, addressesOf ad = .ok items → ((∀ a ∈ items, a.EmptyOrText) ↔ good ad))
    (himp : ∀ ad, good ad → usable ad) {k : List Json → Except Raised α}
    (hk : ∀ addresses, Decides (k addresses) (∀ a ∈ addresses, a.EmptyOrText)) :
    Decides (iterate (orEmpty value) >>= fun ads => addressesOfAll addressesOf ads >>= k)
      (value.EmptyOrList (IsObject good)) := by
  have himp' : ∀ ad : Json, ad.IsObject good → ad.IsObject usable := by
    intro ad h
    cases ad with
    | obj fields => exact himp fields h
    | _ => exact h
  refine (decides_iterate.bind (Q:=value.EmptyOrList (IsObject good)) fun ads hads => ?_).congr
    ⟨And.right,fun h => ⟨iterable_of_emptyOrList h,h⟩⟩
  refine ((decides_addressesOfAll hof ads).bind (Q:=∀ ad ∈ ads, ad.IsObject good)
    fun addresses haddresses => ?_).congr ?_
  · exact (hk addresses).congr (addressesOfAll_texts hgood haddresses)
  · rw [← iterate_objects hads]
    exact ⟨And.right,fun h => ⟨fun ad had => himp' ad (h ad had),h⟩⟩

theorem decides_hostAddresses (ad : JsonFields) :
    Decides (HostMapper.adapterAddresses ad) (orEmpty (get ad "IPAddresses")).Iterable :=
  decides_iterate

theorem decides_scvmmAddresses (ad : JsonFields) :
    Decides (ScvmmMapper.adapterAddresses ad)
      (∃ items, ScvmmMapper.adapterAddresses ad = .ok items) := by
  unfold ScvmmMapper.adapterAddresses
  generalize orEmpty (get ad "IPv4") = v4
  generalize orEmpty (get ad "IPv6") = v6
  cases h : iterateSum v4 v6 with
  | ok items => exact (Decides.ok _).congr (by simp)
  | error e =>
    refine ⟨fun hex => hex,fun _ => ?_⟩
    unfold iterateSum at h
    split at h
    · cases h
    · cases h
    · cases h
      exact ⟨_,rfl⟩

theorem texts_of_iterate {items : List Json} (h : iterate (orEmpty value) = .ok items) :
    (∀ a ∈ items, a.EmptyOrText) ↔ value.AddressesOk := by
  by_cases htruthy : value.truthy = true
  · rw [orEmpty,orElse,if_pos htruthy] at h
    cases value with
    | arr _ =>
      cases h
      exact Iff.rfl
    | str _ | obj _ =>
      cases h
      exact iff_of_true (texts_map_str _ _) (fun _ => trivial)
    | _ => cases h
  · rw [orEmpty,orElse,if_neg htruthy] at h
    cases h
    refine iff_of_true (by simp) ?_
    cases value with
    | arr items =>
      have hnil : items = [] := by simpa [truthy] using htruthy
      subst hnil
      simp [AddressesOk]
    | _ => exact fun h => absurd h htruthy

theorem iterable_of_addressesOk (h : value.AddressesOk) : (orEmpty value).Iterable := by
  unfold orEmpty orElse
  split
  · rename_i htruthy
    cases value with
    | arr _ => trivial
    | _ => exact h htruthy
  · trivial

theorem texts_of_iterateSum {a b : Json} {items : List Json} (h : iterateSum a b = .ok items) :
    (∀ item ∈ items, item.EmptyOrText) ↔ SumOk a b := by
  unfold iterateSum at h
  split at h
  · cases h
    exact Iff.rfl
  · cases h
    exact iff_of_true (texts_map_str _ _) trivial
  · cases h

theorem iterateSum_of_sumOk {a b : Json} (h : SumOk a b) : ∃ items, iterateSum a b = .ok items := by
  unfold SumOk at h
  split at h
  · exact ⟨_,rfl⟩
  · exact ⟨_,rfl⟩
  · exact h.elim

end

theorem decides_mapGuestInfo (row : JsonFields) (observedAt : Timestamp) :
    Decides (HostMapper.mapGuestInfo py row observedAt)
      ((get row "IntegrationOk").truthy = true → (get row "KvpIPv4").EmptyOrText ∧
        (get row "KvpIPv6").EmptyOrText ∧
        (get row "Adapters").EmptyOrList (IsObject fun ad => (get ad "IPAddresses").AddressesOk)) := by
  unfold HostMapper.mapGuestInfo
  by_cases hok : (get row "IntegrationOk").truthy = true
  · simp only [hok,Bool.not_true,Bool.false_eq_true,if_false,forall_const]
    refine decides_splitKvpAddresses.bind fun v4Raw hv4 => ?_
    refine decides_splitKvpAddresses.bind fun v6Raw hv6 => ?_
    refine decides_adapters decides_hostAddresses (fun ad items => texts_of_iterate)
      (fun ad => iterable_of_addressesOk) fun addresses => ?_
    refine ((decides_splitIpFamilies _).andThen fun families => ?_).congr ?_
    · obtain ⟨v4,v6⟩ := families
      dsimp only
      split <;> exact ⟨_,rfl⟩
    · rw [List.forall_mem_append,List.forall_mem_append]
      exact ⟨fun h => h.1.2,
        fun h => ⟨⟨splitKvpAddresses_texts hv4,h⟩,splitKvpAddresses_texts hv6⟩⟩
  · simp only [hok,Bool.not_false,if_true]
    exact (Decides.ok _).congr (by simp)

theorem decides_mapVirtualMachine (uuid4 connectionId : UUID) (row : JsonFields)
    (observedAt : Timestamp) :
    Decides (HostMapper.mapVirtualMachine py uuid4 connectionId row observedAt)
      (HostRow py.toAscii row) := by
  refine ((decides_index row "Id").bind fun id _ => decides_normalizeGuid.bind fun biosUuid _ =>
    decides_toInt.bind fun totalVcpu _ => decides_toMb.bind fun assignedMb _ =>
    (decides_mapGuestInfo row observedAt).andThen fun guest => ⟨_,rfl⟩).congr ?_
  exact ⟨fun ⟨h₁,h₂,h₃,h₄,h₅⟩ => ⟨h₁,h₂,h₃,h₄,h₅⟩,fun ⟨h₁,h₂,h₃,h₄,h₅⟩ => ⟨h₁,h₂,h₃,h₄,h₅⟩⟩

theorem decides_mapScvmmGuest (row : JsonFields) (observedAt : Timestamp) :
    Decides (ScvmmMapper.mapScvmmGuest py row observedAt) ((get row "Adapters").EmptyOrList
      (IsObject fun ad => SumOk (orEmpty (get ad "IPv4")) (orEmpty (get ad "IPv6")))) := by
  unfold ScvmmMapper.mapScvmmGuest
  refine decides_adapters decides_scvmmAddresses (fun ad items => texts_of_iterateSum)
    (fun ad => iterateSum_of_sumOk) fun addresses => ?_
  refine (decides_splitIpFamilies addresses).andThen fun families => ?_
  obtain ⟨v4,v6⟩ := families
  dsimp only
  split <;> exact ⟨_,rfl⟩

theorem decides_mapScvmmVm (uuid4 connectionId : UUID) (row : JsonFields) (observedAt : Timestamp) :
    Decides (ScvmmMapper.mapScvmmVm py uuid4 connectionId row observedAt)
      (ScvmmRow py.toAscii row) := by
  refine ((decides_index row "Id").bind fun id _ => decides_toInt.bind fun totalVcpu _ =>
    decides_toInt.bind fun assignedMb _ =>
    (decides_mapScvmmGuest row observedAt).andThen fun guest => ⟨_,rfl⟩).congr ?_
  exact ⟨fun ⟨h₁,h₂,h₃,h₄⟩ => ⟨h₁,h₂,h₃,h₄⟩,fun ⟨h₁,h₂,h₃,h₄⟩ => ⟨h₁,h₂,h₃,h₄⟩⟩

end
end WzonePortal
