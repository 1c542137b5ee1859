import WzonePortal.ReaderContainment

/-! Network failures in the translation of errors and in a cluster listing. The words of a message
are looked for before the type of the exception, so that a name or a number in the message of a
timeout can make it an error of the sign-in, which ends the whole listing. -/
namespace WzonePortal

open InventoryReaders Hyperv ClusterListing

/-- The exceptions whose type marks a failure of the network. -/
inductive NetworkFailure
  | timeoutError
  | gaierror
  | connectionRefusedError

def NetworkFailure.exceptionType : NetworkFailure → HypervErrors.ExceptionType
  | .timeoutError => .timeout
  | .gaierror => .transport
  | .connectionRefusedError => .transport

namespace HypervReader

variable (reader : HypervReader)

def TakenForSignIn (message : List Char) : Prop :=
  (HypervErrors.mentioned reader.lower message).unauthorized = true

def TakenForPermission (message : List Char) : Prop :=
  (HypervErrors.mentioned reader.lower message).accessDenied = true

variable {reader}

theorem typeName_of_network (f : NetworkFailure) (message : List Char) :
    (reader.TakenForSignIn message ∧
      (reader.translateError f.exceptionType message).typeName = "AuthenticationError") ∨
    (¬ reader.TakenForSignIn message ∧ reader.TakenForPermission message ∧
      (reader.translateError f.exceptionType message).typeName = "PermissionError") ∨
    (¬ reader.TakenForSignIn message ∧ ¬ reader.TakenForPermission message ∧
      (reader.translateError f.exceptionType message).typeName = "UnreachableError") := by
  unfold TakenForSignIn TakenForPermission translateError HypervErrors.translateError
  by_cases hsign : (HypervErrors.mentioned reader.lower message).unauthorized = true
  · cases f <;> simp [NetworkFailure.exceptionType,hsign,translated]
  · by_cases haccess : (HypervErrors.mentioned reader.lower message).accessDenied = true
    · cases f <;> simp [NetworkFailure.exceptionType,hsign,haccess,translated]
    · cases f <;> simp [NetworkFailure.exceptionType,hsign,haccess,translated]

theorem unreachable_iff (f : NetworkFailure) (message : List Char) :
    (reader.translateError f.exceptionType message).typeName = "UnreachableError" ↔
      ¬ reader.TakenForSignIn message ∧ ¬ reader.TakenForPermission message := by
  rcases reader.typeName_of_network f message with ⟨hsign,h⟩ | ⟨_,haccess,h⟩ | ⟨hsign,haccess,h⟩
  · rw [h]
    exact iff_of_false (by decide) fun hnot => hnot.1 hsign
  · rw [h]
    exact iff_of_false (by decide) fun hnot => hnot.2 haccess
  · rw [h]
    exact iff_of_true rfl ⟨hsign,haccess⟩

theorem rejected_iff (f : NetworkFailure) (message : List Char) :
    (QueryAnswer.failed f.exceptionType message).Rejected reader ↔ reader.TakenForSignIn message := by
  change (reader.translateError f.exceptionType message).typeName = "AuthenticationError" ↔ _
  rcases reader.typeName_of_network f message with ⟨hsign,h⟩ | ⟨hsign,_,h⟩ | ⟨hsign,_,h⟩
  · rw [h]
    exact iff_of_true rfl hsign
  · rw [h]
    exact iff_of_false (by decide) hsign
  · rw [h]
    exact iff_of_false (by decide) hsign

end HypervReader

section
variable {reader : HypervReader} {responses : ℕ → String → QueryAnswer}
  {nodes failedNodes : List (String × String)} {vms : List VirtualMachine} {i : ℕ}

/-- Whatever a node that is up answers to the queries from the `i`-th node on. -/
def EveryUp (P : QueryAnswer → Prop) (responses : ℕ → String → QueryAnswer) (i : ℕ)
    (nodes : List (String × String)) : Prop :=
  ∀ j node state, nodes[j]? = some (node,state) → state.toLower = "up" → P (responses (i+j) node)

theorem everyUp_cons {P : QueryAnswer → Prop} {node state : String} :
    EveryUp P responses i ((node,state)::nodes) ↔
      (state.toLower = "up" → P (responses i node)) ∧ EveryUp P responses (i+1) nodes := by
  constructor
  · intro h
    refine ⟨fun hup => h 0 node state rfl hup,fun j name st hj hup => ?_⟩
    have hp := h (j+1) name st hj hup
    rwa [← Nat.add_assoc,Nat.add_right_comm] at hp
  · rintro ⟨hfirst,hrest⟩ j name st hj hup
    cases j with
    | zero =>
      cases hj
      exact hfirst hup
    | succ j =>
      have hp := hrest j name st hj hup
      rwa [Nat.add_right_comm,Nat.add_assoc] at hp

theorem visitNodes_goes_on (h : EveryUp (fun response =>
      response.Readable (HostRow reader.py.toAscii) ∧ ¬ response.Rejected reader) responses i nodes) :
    (HyperVHost.visitNodes (reader.nodeAnswer responses) i nodes vms failedNodes).ending = none ∧
      Served (reader.nodeAnswer responses) i nodes
        (HyperVHost.visitNodes (reader.nodeAnswer responses) i nodes vms failedNodes) := by
  induction nodes generalizing i vms failedNodes with
  | nil => exact ⟨rfl,fun j node state hj => by cases hj⟩
  | cons n nodes ih =>
    obtain ⟨node,state⟩ := n
    obtain ⟨hfirst,hrest⟩ := everyUp_cons.mp h
    obtain ⟨a,ha⟩ : ∃ a : NodeAnswer,
        state.toLower = "up" → reader.nodeAnswer responses i node = a.toHostAnswer := by
      by_cases hup : state.toLower = "up"
      · rcases hostAnswer_of_readable i (hfirst hup).1 with ⟨hrejected,_⟩ | ⟨_,a,ha⟩
        · exact absurd hrejected (hfirst hup).2
        · exact ⟨a,fun _ => ha⟩
      · exact ⟨.rows [],fun h => absurd h hup⟩
    rw [visitNodes_step a ha]
    refine ⟨(ih hrest).1,served_cons ha ?_ ?_ (ih hrest).2⟩
    · exact List.Subset.trans (List.subset_append_right _ _) visitNodes_grows.1
    · exact List.Subset.trans (List.subset_append_right _ _) visitNodes_grows.2

/-- A visit that comes to its end has met no rejected sign-in. -/
theorem not_rejected_of_ending (h : (HyperVHost.visitNodes (reader.nodeAnswer responses) i nodes vms
      failedNodes).ending = none) :
    EveryUp (fun response => ¬ response.Rejected reader) responses i nodes := by
  induction nodes generalizing i vms failedNodes with
  | nil => exact fun j node state hj => by cases hj
  | cons n nodes ih =>
    obtain ⟨node,state⟩ := n
    unfold HyperVHost.visitNodes at h
    rw [everyUp_cons]
    by_cases hup : state.toLower = "up"
    · rw [if_neg (not_not.mpr hup)] at h
      constructor
      · intro _ hrejected
        have hreadable : (responses i node).Readable (HostRow reader.py.toAscii) := by
          cases hresponse : responses i node with
          | failed exc message => trivial
          | _ => rw [hresponse] at hrejected; exact hrejected.elim
        rcases hostAnswer_of_readable i hreadable with ⟨_,message,he⟩ | ⟨hnot,_⟩
        · rw [HypervReader.nodeAnswer,he] at h
          cases h
        · exact hnot hrejected
      · split at h
        · exact ih h
        · exact ih h
        · cases h
        · split at h
          · exact ih h
          · cases h
    · rw [if_pos hup] at h
      exact ⟨fun hu => absurd hu hup,ih h⟩

end

/-- The listing comes to its end and lists the machines of every node that is up. -/
def GoesOn (reader : HypervReader) (nodes : QueryAnswer) (responses : ℕ → String → QueryAnswer)
    (named : List (String × String)) : Prop :=
  (reader.listCluster nodes responses).listing.ending = none ∧
    ∀ (j : ℕ) (node state : String) (vms : List VirtualMachine),
      named[j]? = some (node,state) → state.toLower = "up" →
      reader.nodeAnswer responses j node = .ok (vms.map .ok) →
      vms ⊆ (reader.listCluster nodes responses).listing.vms

/-- A failure of the network, or anything else that does not end a listing. -/
def NetworkFailedOrPasses (reader : HypervReader) (response : QueryAnswer) : Prop :=
  (∃ f : NetworkFailure, ∃ message, response = .failed f.exceptionType message) ∨
    (response.Readable (HostRow reader.py.toAscii) ∧ ¬ response.Rejected reader)

/-- A network failure is unreachability unless its message has the words of a rejected sign-in or of
a missing permission, and a cluster listing goes on past the network failures of its nodes unless
one of their messages has the words of a rejected sign-in. -/
theorem network_failures_iff (reader : HypervReader) :
    (∀ (f : NetworkFailure) (message : List Char),
      (reader.translateError f.exceptionType message).typeName = "UnreachableError" ↔
        ¬ reader.TakenForSignIn message ∧ ¬ reader.TakenForPermission message) ∧
    ∀ (nodes : QueryAnswer) (responses : ℕ → String → QueryAnswer) (named : List (String × String)),
      HyperVHost.resolveNodes (reader.clusterNodes nodes) = .ok named →
      EveryUp (NetworkFailedOrPasses reader) responses 0 named →
      (GoesOn reader nodes responses named ↔ EveryUp (fun response =>
        ∀ (f : NetworkFailure) message, response = .failed f.exceptionType message →
          ¬ reader.TakenForSignIn message) responses 0 named) := by
  refine ⟨HypervReader.unreachable_iff,fun nodes responses named hnamed hup => ?_⟩
  have hlist : reader.listCluster nodes responses = HyperVHost.listCluster
      (reader.clusterNodes nodes) (reader.nodeAnswer responses) := rfl
  rw [HyperVHost.listCluster,hnamed] at hlist
  dsimp only at hlist
  constructor
  · rintro ⟨hending,-⟩ j node state hj hu f message hresponse hsign
    have hnone : (HyperVHost.visitNodes (reader.nodeAnswer responses) 0 named [] []).ending = none := by
      cases he : (HyperVHost.visitNodes (reader.nodeAnswer responses) 0 named [] []).ending with
      | none => rfl
      | some e =>
        rw [hlist,he] at hending
        cases hending
    refine not_rejected_of_ending hnone j node state hj hu ?_
    rw [hresponse]
    exact (HypervReader.rejected_iff f message).mpr hsign
  · intro hplain
    have hpasses : EveryUp (fun response => response.Readable (HostRow reader.py.toAscii) ∧
        ¬ response.Rejected reader) responses 0 named := by
      intro j node state hj hu
      rcases hup j node state hj hu with ⟨f,message,hresponse⟩ | hpasses
      · have hsign := hplain j node state hj hu f message hresponse
        rw [hresponse]
        exact ⟨trivial,fun h => hsign ((HypervReader.rejected_iff f message).mp h)⟩
      · exact hpasses
    obtain ⟨hending,hserved⟩ := @visitNodes_goes_on reader responses named [] [] 0 hpasses
    rw [hending] at hlist
    refine ⟨by rw [hlist]; rfl,fun j node state vms hj hu hrows => ?_⟩
    rw [hlist]
    refine (hserved j node state hj hu).1 vms ?_
    rwa [Nat.zero_add]

def firstTimesOut (message : String) (i : ℕ) (_ : String) : QueryAnswer :=
  if i = 0 then .failed NetworkFailure.timeoutError.exceptionType message.toList
  else .decoded (.obj [("Id",.str "vm-2"),("ProcessorCount",.int 4)])

theorem hostRow_second : HostRow plainReader.py.toAscii
    [("Id",.str "vm-2"),("ProcessorCount",.int 4)] := by
  by_contra h
  obtain ⟨typeName,he⟩ := (decides_mapVirtualMachine (plainReader.uuid4 1 0)
    plainReader.connectionId _ plainReader.observedAt).crashes h
  cases he

theorem network_failures_sample : GoesOn plainReader twoNodes (firstTimesOut "timed out: hv402")
    [("n1","Up"),("n2","Up")] := by
  have hplain : ¬ plainReader.TakenForSignIn "timed out: hv402".toList := by
    unfold HypervReader.TakenForSignIn
    decide +kernel
  have hsecond : QueryAnswer.Readable (HostRow plainReader.py.toAscii)
      (.decoded (.obj [("Id",.str "vm-2"),("ProcessorCount",.int 4)])) := fun row hrow => by
    rw [List.mem_singleton.mp hrow]
    exact hostRow_second
  refine ((network_failures_iff plainReader).2 _ _ _ (by decide +kernel) ?_).mpr ?_
  · rw [everyUp_cons,everyUp_cons]
    exact ⟨fun _ => .inl ⟨.timeoutError,_,rfl⟩,fun _ => .inr ⟨hsecond,id⟩,
      fun j node state hj => by cases hj⟩
  · rw [everyUp_cons,everyUp_cons]
    refine ⟨fun _ f message hmessage => ?_,fun _ f message hmessage => ?_,
      fun j node state hj => by cases hj⟩
    · cases f <;> cases hmessage
      exact hplain
    · cases hmessage

/-- In a message of a timeout `401` may be part of a name or of a port, and "access is denied" part
of what the system says; the machine of the second node is not listed. -/
theorem timeouts_are_sign_ins :
    (∀ f : NetworkFailure, (plainReader.translateError f.exceptionType
      "hv401.corp:5986 timed out".toList).typeName = "AuthenticationError") ∧
    (∀ f : NetworkFailure, (plainReader.translateError f.exceptionType
      "accessdenied.corp: no answer".toList).typeName = "PermissionError") ∧
    (plainReader.listCluster twoNodes (firstTimesOut "hv401.corp:5986 timed out")).listing =
      ⟨[],some (.authentication "인증에 실패했습니다. 계정, 비밀번호, 인증 방식을 확인하세요.")⟩ ∧
    ¬ GoesOn plainReader twoNodes (firstTimesOut "hv401.corp:5986 timed out")
      [("n1","Up"),("n2","Up")] := by
  have hlisting : (plainReader.listCluster twoNodes
      (firstTimesOut "hv401.corp:5986 timed out")).listing = ⟨[],some (.authentication
        "인증에 실패했습니다. 계정, 비밀번호, 인증 방식을 확인하세요.")⟩ := by decide +kernel
  refine ⟨fun f => ?_,fun f => ?_,hlisting,fun h => ?_⟩
  · cases f <;> decide +kernel
  · cases f <;> decide +kernel
  · have hending := h.1
    rw [hlisting] at hending
    cases hending

end WzonePortal
