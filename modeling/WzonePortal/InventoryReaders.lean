import WzonePortal.CollectService

/-! The three inventory readers: from what the hypervisor answers to the machines that the
generator yields and to the outcome that it leaves behind. A listing that ends with an
exception leaves no outcome. -/
namespace WzonePortal
namespace InventoryReaders

/-- A row of an answer as the mapper sees it: a machine, or an exception. -/
abbrev Mapped : Type := Except Raised VirtualMachine

def takeMapped : List Mapped → List VirtualMachine × Option Raised
  | [] => ([],none)
  | .ok vm::rows => (vm::(takeMapped rows).1,(takeMapped rows).2)
  | .error e::_ => ([],some e)

def record (count : ℕ) (failed : Bool) (error : Option String) : CollectionOutcome where
  resourceType := .virtualMachine
  collectedCount := count
  failed := failed
  error := error

structure Report where
  listing : Listing
  outcomes : List CollectionOutcome
  deriving DecidableEq, Repr

def Report.raised (vms : List VirtualMachine) (e : Raised) : Report := ⟨⟨vms,some e⟩,[]⟩

def Report.ended (vms : List VirtualMachine) (outcome : CollectionOutcome) : Report :=
  ⟨⟨vms,none⟩,[outcome]⟩

/-- `except AuthenticationError: raise`, `except PortalError: record and return`. -/
def refused (vms : List VirtualMachine) : Raised → Report
  | .permission message => .ended vms (record 0 true (some message))
  | .portal _ message => .ended vms (record 0 true (some message))
  | e => .raised vms e

namespace VCenter

/-- Every exception is translated; all but a rejected sign-in go into the outcome. -/
def listVirtualMachines (translateError : Raised → Raised) (rows : List Mapped)
    (broken : Option Raised) : Report :=
  let (vms,unmapped) := takeMapped rows
  let count := vms.length + (if unmapped.isSome then 1 else 0)
  match unmapped.or broken with
  | none => .ended vms (record count false none)
  | some (.authentication message) => .raised vms (.authentication message)
  | some e => match translateError e with
    | .authentication message => .raised vms (.authentication message)
    | error => .ended vms (record count true (some error.text))

end VCenter

namespace HyperVHost

/-- The answer of one host, which is the whole answer of a host connection. -/
abbrev HostAnswer : Type := Except Raised (List Mapped)

/-- The rows of one answer; a row that cannot be mapped ends the listing. -/
def yieldRows (rows : List Mapped) : Report :=
  match takeMapped rows with
  | (vms,none) => .ended vms (record vms.length false none)
  | (vms,some e) => .raised vms e

def listHost (answer : HostAnswer) : Report :=
  match answer with
  | .error e => refused [] e
  | .ok rows => yieldRows rows

/-- Names and states; a node without a name is left out, one without a state is unknown. -/
def namedNodes (nodes : List (Option String × Option String)) : List (String × String) :=
  nodes.filterMap fun n => match n.1 with
    | none => none
    | some name => if name = "" then none
      else some (name,if n.2.getD "" = "" then "Unknown" else n.2.getD "")

def resolveNodes (nodes : Except Raised (List (Option String × Option String))) :
    Except Raised (List (String × String)) :=
  match nodes with
  | .error e => .error e
  | .ok nodes =>
    if namedNodes nodes = [] then
      .error (.portal "CollectionError" "클러스터 노드 목록을 얻지 못했습니다.")
    else .ok (namedNodes nodes)

structure Visited where
  vms : List VirtualMachine
  failedNodes : List (String × String)
  ending : Option Raised
  deriving DecidableEq, Repr

/-- One node after the other; `answer` is asked by position, for a name may occur twice. -/
def visitNodes (answer : ℕ → String → HostAnswer) : ℕ → List (String × String) →
    List VirtualMachine → List (String × String) → Visited
  | _, [], vms, failedNodes => ⟨vms,failedNodes,none⟩
  | i, (node,state)::nodes, vms, failedNodes =>
    if state.toLower ≠ "up" then
      visitNodes answer (i+1) nodes vms (failedNodes ++ [(node,"노드 상태 " ++ state)])
    else match answer i node with
      | .error (.permission message) =>
        visitNodes answer (i+1) nodes vms (failedNodes ++ [(node,message)])
      | .error (.portal _ message) =>
        visitNodes answer (i+1) nodes vms (failedNodes ++ [(node,message)])
      | .error e => ⟨vms,failedNodes,some e⟩
      | .ok rows => match takeMapped rows with
        | (mapped,none) => visitNodes answer (i+1) nodes (vms ++ mapped) failedNodes
        | (mapped,some e) => ⟨vms ++ mapped,failedNodes,some e⟩

def failedNodesText (failedNodes : List (String × String)) : String :=
  toString failedNodes.length ++ "개 노드 수집 실패: " ++
    String.intercalate ", " (failedNodes.map fun n => n.1 ++ " (" ++ n.2 ++ ")")

/-- Failed only if a node failed and no machine came from any node. -/
def listCluster (nodes : Except Raised (List (Option String × Option String)))
    (answer : ℕ → String → HostAnswer) : Report :=
  match resolveNodes nodes with
  | .error e => refused [] e
  | .ok nodes =>
    let visited := visitNodes answer 0 nodes [] []
    match visited.ending with
    | some e => .raised visited.vms e
    | none => .ended visited.vms (record visited.vms.length
        (visited.failedNodes ≠ [] && visited.vms.length = 0)
        (if visited.failedNodes = [] then none else some (failedNodesText visited.failedNodes)))

end HyperVHost

namespace Scvmm

def yieldRows : List (Option Mapped) → List VirtualMachine × ℕ × Option Raised
  | [] => ([],0,none)
  | none::rows => ((yieldRows rows).1,(yieldRows rows).2.1 + 1,(yieldRows rows).2.2)
  | some (.ok vm)::rows => (vm::(yieldRows rows).1,(yieldRows rows).2)
  | some (.error e)::_ => ([],0,some e)

def excludedText (excluded : ℕ) : String :=
  "VM GUID(VMId)가 없는 VM " ++ toString excluded ++ "건 제외"

def listVirtualMachines (answer : Except Raised (List (Option Mapped))) : Report :=
  match answer with
  | .error e => refused [] e
  | .ok rows => match yieldRows rows with
    | (vms,_,some e) => .raised vms e
    | (vms,excluded,none) => .ended vms (record vms.length false
        (if excluded = 0 then none else some (excludedText excluded)))

end Scvmm

/-- What the hypervisor side of one run answers, by the kind of the connection. -/
inductive Answers
  | vcenter (rows : List Mapped) (broken : Option Raised)
  | host (answer : HyperVHost.HostAnswer)
  | cluster (nodes : Except Raised (List (Option String × Option String)))
      (answer : ℕ → String → HyperVHost.HostAnswer)
  | scvmm (answer : Except Raised (List (Option Mapped)))

def Answers.report (translateError : Raised → Raised) : Answers → Report
  | .vcenter rows broken => VCenter.listVirtualMachines translateError rows broken
  | .host answer => HyperVHost.listHost answer
  | .cluster nodes answer => HyperVHost.listCluster nodes answer
  | .scvmm answer => Scvmm.listVirtualMachines answer

/-- A node of the cluster has answered with a machine. -/
def SomeMachine (answer : ℕ → String → HyperVHost.HostAnswer) (i : ℕ)
    (nodes : List (String × String)) : Prop :=
  ∃ j node state rows, nodes[j]? = some (node,state) ∧ state.toLower = "up" ∧
    answer (i+j) node = .ok rows ∧ rows ≠ []

/-- The answers of which an error makes the whole collection a failure: all of a vCenter or of
a host; of a cluster, those without a machine from any node; of SCVMM, a refused query. -/
def Answers.FailsWhole : Answers → Prop
  | .vcenter _ _ => True
  | .host _ => True
  | .cluster nodes answer => ∀ named, HyperVHost.resolveNodes nodes = .ok named →
      ¬ SomeMachine answer 0 named
  | .scvmm answer => ∃ e, answer = .error e

theorem takeMapped_nil_iff {rows : List Mapped} (h : (takeMapped rows).2 = none) :
    (takeMapped rows).1 = [] ↔ rows = [] := by
  cases rows with
  | nil => simp [takeMapped]
  | cons row rows =>
    cases row with
    | ok vm => simp [takeMapped]
    | error e => cases h

theorem someMachine_cons {answer : ℕ → String → HyperVHost.HostAnswer} {i : ℕ}
    {node state : String} {nodes : List (String × String)} :
    SomeMachine answer i ((node,state)::nodes) ↔
      (state.toLower = "up" ∧ ∃ rows, answer i node = .ok rows ∧ rows ≠ []) ∨
        SomeMachine answer (i+1) nodes := by
  constructor
  · rintro ⟨j,name,st,rows,hj,hup,hrows,hne⟩
    cases j with
    | zero =>
      cases hj
      exact .inl ⟨hup,rows,hrows,hne⟩
    | succ j =>
      refine .inr ⟨j,name,st,rows,hj,hup,?_,hne⟩
      rw [← hrows]
      congr 1
      omega
  · rintro (⟨hup,rows,hrows,hne⟩ | ⟨j,name,st,rows,hj,hup,hrows,hne⟩)
    · exact ⟨0,node,state,rows,rfl,hup,hrows,hne⟩
    · refine ⟨j+1,name,st,rows,hj,hup,?_,hne⟩
      rw [← hrows]
      congr 1
      omega

theorem visitNodes_vms {answer : ℕ → String → HyperVHost.HostAnswer} {i : ℕ}
    {nodes failedNodes : List (String × String)} {vms : List VirtualMachine}
    (h : (HyperVHost.visitNodes answer i nodes vms failedNodes).ending = none) :
    (HyperVHost.visitNodes answer i nodes vms failedNodes).vms = [] ↔
      vms = [] ∧ ¬ SomeMachine answer i nodes := by
  induction nodes generalizing i vms failedNodes with
  | nil => simp [HyperVHost.visitNodes,SomeMachine]
  | cons n nodes ih =>
    obtain ⟨node,state⟩ := n
    rw [someMachine_cons]
    unfold HyperVHost.visitNodes at h ⊢
    by_cases hup : state.toLower = "up"
    · rw [if_neg (not_not.mpr hup)] at h ⊢
      cases hanswer : answer i node with
      | error e =>
        rw [hanswer] at h
        cases e with
        | authentication message => cases h
        | other typeName text => cases h
        | permission message => simpa [hup] using ih h
        | portal typeName message => simpa [hup] using ih h
      | ok rows =>
        rw [hanswer] at h
        rcases hmapped : takeMapped rows with ⟨mapped,unmapped⟩
        cases unmapped with
        | some e =>
          simp only [hmapped] at h
          cases h
        | none =>
          have hnil := @takeMapped_nil_iff rows (by rw [hmapped])
          rw [hmapped] at hnil
          simp only [hmapped] at h ⊢
          rw [ih h]
          simp only [List.append_eq_nil_iff,hnil,hup,true_and,Except.ok.injEq,not_or]
          constructor
          · rintro ⟨⟨hvms,hrows⟩,hrest⟩
            exact ⟨hvms,fun ⟨r,hr,hne⟩ => hne (hr ▸ hrows),hrest⟩
          · rintro ⟨hvms,hrows,hrest⟩
            exact ⟨⟨hvms,by by_contra hne; exact hrows ⟨rows,rfl,hne⟩⟩,hrest⟩
    · rw [if_pos hup] at h ⊢
      simpa [hup] using ih h

section
variable {outcome : CollectionOutcome} {message : String}

theorem refused_outcome {vms : List VirtualMachine} {e : Raised}
    (h : (refused vms e).outcomes = [outcome]) :
    (refused vms e).listing.ending = none ∧ outcome.failed = true := by
  cases e with
  | authentication m => cases h
  | other typeName text => cases h
  | permission m =>
    cases h
    exact ⟨rfl,rfl⟩
  | portal typeName m =>
    cases h
    exact ⟨rfl,rfl⟩

theorem vcenter_outcome {translateError : Raised → Raised} {rows : List Mapped}
    {broken : Option Raised}
    (h : (VCenter.listVirtualMachines translateError rows broken).outcomes = [outcome]) :
    (VCenter.listVirtualMachines translateError rows broken).listing.ending = none ∧
      (outcome.error = some message → outcome.failed = true) := by
  simp only [VCenter.listVirtualMachines] at h ⊢
  split at h
  · cases h
    refine ⟨rfl,fun hm => ?_⟩
    cases hm
  · cases h
  · split at h
    · cases h
    · cases h
      exact ⟨rfl,fun _ => rfl⟩

theorem host_outcome {answer : HyperVHost.HostAnswer}
    (h : (HyperVHost.listHost answer).outcomes = [outcome]) :
    (HyperVHost.listHost answer).listing.ending = none ∧
      (outcome.error = some message → outcome.failed = true) := by
  unfold HyperVHost.listHost at h ⊢
  cases answer with
  | error e => exact ⟨(refused_outcome h).1,fun _ => (refused_outcome h).2⟩
  | ok rows =>
    simp only [HyperVHost.yieldRows] at h ⊢
    split at h
    · cases h
      refine ⟨rfl,fun hm => ?_⟩
      cases hm
    · cases h

theorem cluster_outcome {nodes : Except Raised (List (Option String × Option String))}
    {answer : ℕ → String → HyperVHost.HostAnswer}
    (h : (HyperVHost.listCluster nodes answer).outcomes = [outcome]) :
    (HyperVHost.listCluster nodes answer).listing.ending = none ∧
      (outcome.error = some message → (outcome.failed = true ↔
        ∀ named, HyperVHost.resolveNodes nodes = .ok named → ¬ SomeMachine answer 0 named)) := by
  unfold HyperVHost.listCluster at h ⊢
  cases hnodes : HyperVHost.resolveNodes nodes with
  | error e =>
    rw [hnodes] at h
    refine ⟨(refused_outcome h).1,fun _ => ⟨fun _ named hnamed => ?_,fun _ => (refused_outcome h).2⟩⟩
    cases hnamed
  | ok named =>
    simp only [hnodes] at h ⊢
    cases hending : (HyperVHost.visitNodes answer 0 named [] []).ending with
    | some e =>
      rw [hending] at h
      cases h
    | none =>
      rw [hending] at h
      cases h
      refine ⟨rfl,fun hm => ?_⟩
      have hfailed : (HyperVHost.visitNodes answer 0 named [] []).failedNodes ≠ [] := by
        intro hnil
        rw [record,if_pos hnil] at hm
        cases hm
      have hvms := visitNodes_vms hending
      simp only [record,hfailed,ne_eq,not_false_eq_true,decide_true,Bool.true_and,
        decide_eq_true_eq,List.length_eq_zero_iff,hvms,true_and,Except.ok.injEq,forall_eq']

theorem scvmm_outcome {answer : Except Raised (List (Option Mapped))}
    (h : (Scvmm.listVirtualMachines answer).outcomes = [outcome]) :
    (Scvmm.listVirtualMachines answer).listing.ending = none ∧
      (outcome.failed = true ↔ ∃ e, answer = .error e) := by
  unfold Scvmm.listVirtualMachines at h ⊢
  cases answer with
  | error e => exact ⟨(refused_outcome h).1,fun _ => ⟨e,rfl⟩,fun _ => (refused_outcome h).2⟩
  | ok rows =>
    simp only at h ⊢
    split at h
    · cases h
    · cases h
      simp [Report.ended,record]

theorem report_outcome {translateError : Raised → Raised} {answers : Answers}
    (h : (answers.report translateError).outcomes = [outcome])
    (hm : outcome.error = some message) :
    (answers.report translateError).listing.ending = none ∧
      (outcome.failed = true ↔ answers.FailsWhole) := by
  cases answers with
  | vcenter rows broken =>
    have hv := @vcenter_outcome outcome message translateError rows broken h
    exact ⟨hv.1,fun _ => trivial,fun _ => hv.2 hm⟩
  | host answer =>
    have hv := @host_outcome outcome message answer h
    exact ⟨hv.1,fun _ => trivial,fun _ => hv.2 hm⟩
  | cluster nodes answer =>
    have hv := @cluster_outcome outcome message nodes answer h
    exact ⟨hv.1,hv.2 hm⟩
  | scvmm answer => exact scvmm_outcome h

end
end InventoryReaders
end WzonePortal
