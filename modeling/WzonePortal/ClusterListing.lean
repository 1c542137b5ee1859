import WzonePortal.InventoryReaders

/-! The outcome of a cluster listing, node by node. The reader counts machines where it means
nodes: nodes that have answered and host no machine do not keep it from reporting a failure. -/
namespace WzonePortal
namespace InventoryReaders

/-- What a node answers when the sign-in is accepted and every row is well formed. -/
inductive NodeAnswer
  | permission (message : String)
  | portal (typeName message : String)
  | rows (vms : List VirtualMachine)

def NodeAnswer.toHostAnswer : NodeAnswer → HyperVHost.HostAnswer
  | .permission message => .error (.permission message)
  | .portal typeName message => .error (.portal typeName message)
  | .rows vms => .ok (vms.map .ok)

namespace ClusterListing

/-- The machines of a node that was listed, or the reason why it was not. -/
abbrev NodeResult : Type := Except String (List VirtualMachine)

def nodeResult (state : String) (answer : NodeAnswer) : NodeResult :=
  if state.toLower ≠ "up" then .error ("노드 상태 " ++ state)
  else match answer with
    | .permission message => .error message
    | .portal _ message => .error message
    | .rows vms => .ok vms

/-- The names of the nodes from the `i`-th on with their results. -/
def nodeResults (answer : ℕ → String → NodeAnswer) :
    ℕ → List (String × String) → List (String × NodeResult)
  | _, [] => []
  | i, (node,state)::nodes =>
    (node,nodeResult state (answer i node))::nodeResults answer (i+1) nodes

def failure (r : String × NodeResult) : Option (String × String) :=
  match r.2 with
  | .error reason => some (r.1,reason)
  | .ok _ => none

def machinesOf (r : String × NodeResult) : List VirtualMachine :=
  match r.2 with
  | .error _ => []
  | .ok vms => vms

def failures (results : List (String × NodeResult)) : List (String × String) :=
  results.filterMap failure

def machines (results : List (String × NodeResult)) : List VirtualMachine :=
  results.flatMap machinesOf

def NoneListed (results : List (String × NodeResult)) : Prop := ∀ r ∈ results, ∀ vms, r.2 ≠ .ok vms

/-- Some node is not listed, some node is, and those that are host no machine. -/
def SurvivorsEmpty (results : List (String × NodeResult)) : Prop :=
  (∃ r ∈ results, ∃ reason, r.2 = .error reason) ∧ (∃ r ∈ results, r.2 = .ok []) ∧
    ∀ r ∈ results, ∀ vms, r.2 = .ok vms → vms = []

section
variable {results : List (String × NodeResult)}

theorem failures_eq_nil_iff :
    failures results = [] ↔ ∀ r ∈ results, ∀ reason, r.2 ≠ .error reason := by
  unfold failures
  rw [List.filterMap_eq_nil_iff]
  refine forall₂_congr fun r _ => ?_
  cases h : r.2 <;> simp [failure,h]

theorem machines_eq_nil_iff :
    machines results = [] ↔ ∀ r ∈ results, ∀ vms, r.2 = .ok vms → vms = [] := by
  unfold machines
  rw [List.flatMap_eq_nil_iff]
  refine forall₂_congr fun r _ => ?_
  cases h : r.2 <;> simp [machinesOf,h]

/-- The counters tell that no node was listed, unless the survivors host no machine. -/
theorem counters_right_iff (hne : results ≠ []) :
    ((failures results ≠ [] ∧ machines results = []) ↔ NoneListed results) ↔
      ¬ SurvivorsEmpty results := by
  rw [ne_eq,failures_eq_nil_iff,machines_eq_nil_iff]
  by_cases hnone : NoneListed results
  · obtain ⟨r,hr⟩ := List.exists_mem_of_ne_nil results hne
    have hfailed : ¬ ∀ r ∈ results, ∀ reason, r.2 ≠ .error reason := fun h => by
      cases hr2 : r.2 with
      | error reason => exact h r hr reason hr2
      | ok vms => exact hnone r hr vms hr2
    have hempty : ∀ r ∈ results, ∀ vms, r.2 = .ok vms → vms = [] := fun r hr vms h =>
      absurd h (hnone r hr vms)
    have hsurvivors : ¬ SurvivorsEmpty results := fun ⟨_,⟨r,hr,h⟩,_⟩ => hnone r hr [] h
    exact iff_of_true (iff_of_true ⟨hfailed,hempty⟩ hnone) hsurvivors
  · have hlisted : ∃ r ∈ results, ∃ vms, r.2 = .ok vms := by
      unfold NoneListed at hnone
      push Not at hnone
      exact hnone
    obtain ⟨r,hr,vms,hvms⟩ := hlisted
    rw [iff_false_right hnone]
    refine not_congr ⟨fun ⟨hfailed,hempty⟩ => ⟨?_,⟨r,hr,?_⟩,hempty⟩,fun ⟨hfailed,_,hempty⟩ => ⟨?_,hempty⟩⟩
    · by_contra hnever
      exact hfailed fun r hr reason h => hnever ⟨r,hr,reason,h⟩
    · rw [hvms,hempty r hr vms hvms]
    · obtain ⟨r,hr,reason,h⟩ := hfailed
      exact fun hnever => hnever r hr reason h

end

theorem takeMapped_map_ok (vms : List VirtualMachine) :
    takeMapped (vms.map .ok) = (vms,none) := by
  induction vms with
  | nil => rfl
  | cons vm vms ih => rw [List.map_cons,takeMapped,ih]

theorem failures_cons (r : String × NodeResult) (results : List (String × NodeResult)) :
    failures (r::results) = (failure r).toList ++ failures results := by
  unfold failures
  rw [List.filterMap_cons]
  cases failure r <;> rfl

theorem machines_cons (r : String × NodeResult) (results : List (String × NodeResult)) :
    machines (r::results) = machinesOf r ++ machines results := rfl

theorem visitNodes_step {ask : ℕ → String → HyperVHost.HostAnswer} {i : ℕ} {node state : String}
    {nodes failedNodes : List (String × String)} {vms : List VirtualMachine} (answer : NodeAnswer)
    (h : state.toLower = "up" → ask i node = answer.toHostAnswer) :
    HyperVHost.visitNodes ask i ((node,state)::nodes) vms failedNodes =
      HyperVHost.visitNodes ask (i+1) nodes (vms ++ machinesOf (node,nodeResult state answer))
        (failedNodes ++ (failure (node,nodeResult state answer)).toList) := by
  conv_lhs => unfold HyperVHost.visitNodes
  unfold nodeResult
  by_cases hup : state.toLower = "up"
  · rw [if_neg (not_not.mpr hup),if_neg (not_not.mpr hup),h hup]
    cases answer with
    | permission message => simp [NodeAnswer.toHostAnswer,machinesOf,failure]
    | portal typeName message => simp [NodeAnswer.toHostAnswer,machinesOf,failure]
    | rows mapped => simp [NodeAnswer.toHostAnswer,takeMapped_map_ok,machinesOf,failure]
  · rw [if_pos hup,if_pos hup]
    simp [machinesOf,failure]

theorem visitNodes_eq {answer : ℕ → String → NodeAnswer}
    {ask : ℕ → String → HyperVHost.HostAnswer}
    (hask : ∀ i node, ask i node = (answer i node).toHostAnswer) (i : ℕ)
    (nodes : List (String × String)) (vms : List VirtualMachine)
    (failedNodes : List (String × String)) :
    HyperVHost.visitNodes ask i nodes vms failedNodes =
      ⟨vms ++ machines (nodeResults answer i nodes),
        failedNodes ++ failures (nodeResults answer i nodes),none⟩ := by
  induction nodes generalizing i vms failedNodes with
  | nil => simp [HyperVHost.visitNodes,nodeResults,machines,failures]
  | cons n nodes ih =>
    obtain ⟨node,state⟩ := n
    rw [visitNodes_step (answer i node) fun _ => hask i node,ih,nodeResults,machines_cons,
      failures_cons,List.append_assoc,List.append_assoc]

theorem nodeResults_ne_nil {answer : ℕ → String → NodeAnswer} {i : ℕ}
    {nodes : List (String × String)} (h : nodes ≠ []) : nodeResults answer i nodes ≠ [] := by
  cases nodes with
  | nil => exact absurd rfl h
  | cons n nodes => simp [nodeResults]

end ClusterListing
end InventoryReaders

open InventoryReaders ClusterListing

/-- A cluster listing yields the machines of the listed nodes in order and names the other nodes.
Its outcome is a failure for want of a listed node alone, unless some nodes are not listed and the
listed ones host no machine. -/
theorem cluster_outcome_right_iff (nodes : List (Option String × Option String))
    (hnamed : HyperVHost.namedNodes nodes ≠ []) (answer : ℕ → String → NodeAnswer) :
    let results := nodeResults answer 0 (HyperVHost.namedNodes nodes)
    ∃ outcome, HyperVHost.listCluster (.ok nodes) (fun i node => (answer i node).toHostAnswer) =
        .ended (machines results) outcome ∧
      outcome.collectedCount = (machines results).length ∧
      outcome.error = (if failures results = [] then none else
        some (HyperVHost.failedNodesText (failures results))) ∧
      ((outcome.failed = true ↔ NoneListed results) ↔ ¬ SurvivorsEmpty results) := by
  intro results
  have hvisited : HyperVHost.visitNodes (fun i node => (answer i node).toHostAnswer) 0
      (HyperVHost.namedNodes nodes) [] [] = ⟨machines results,failures results,none⟩ :=
    visitNodes_eq (fun _ _ => rfl) 0 _ [] []
  have hlisted : HyperVHost.listCluster (.ok nodes) (fun i node => (answer i node).toHostAnswer) =
      .ended (machines results) (record (machines results).length
        (failures results ≠ [] && (machines results).length = 0)
        (if failures results = [] then none else
          some (HyperVHost.failedNodesText (failures results)))) := by
    simp only [HyperVHost.listCluster,HyperVHost.resolveNodes,if_neg hnamed,hvisited]
  refine ⟨_,hlisted,rfl,rfl,?_⟩
  rw [← counters_right_iff (nodeResults_ne_nil hnamed)]
  simp [record,results]

def clusterMachine : VirtualMachine where
  resourceId := 1
  connectionId := 7
  nativeId := "8a54b0f1-0000-0000-0000-000000000001"
  name := "vm1"

def threeNodes : List (Option String × Option String) :=
  [(some "n1",some "Up"),(some "n2",some "Up"),(some "n3",some "Down")]

/-- The first node hosts these machines, and the second cannot be reached. -/
def firstHosts (vms : List VirtualMachine) (i : ℕ) (_ : String) : NodeAnswer :=
  if i = 0 then .rows vms else .portal "UnreachableError" "노드 접속 불가"

theorem namedNodes_threeNodes : HyperVHost.namedNodes threeNodes =
    [("n1","Up"),("n2","Up"),("n3","Down")] := by decide +kernel

theorem cluster_outcome_right_sample : ∃ outcome,
    HyperVHost.listCluster (.ok threeNodes)
        (fun i node => (firstHosts [clusterMachine] i node).toHostAnswer) =
      .ended [clusterMachine] outcome ∧ outcome.failed = false := by
  have hnamed : HyperVHost.namedNodes threeNodes ≠ [] := by
    rw [namedNodes_threeNodes]
    exact List.cons_ne_nil _ _
  have hresults : nodeResults (firstHosts [clusterMachine]) 0 (HyperVHost.namedNodes threeNodes) =
      [("n1",.ok [clusterMachine]),("n2",.error "노드 접속 불가"),("n3",.error "노드 상태 Down")] := by
    rw [namedNodes_threeNodes]
    decide +kernel
  obtain ⟨outcome,hlisted,_,_,hright⟩ :=
    cluster_outcome_right_iff threeNodes hnamed (firstHosts [clusterMachine])
  rw [hresults] at hlisted hright
  have hlives : ¬ SurvivorsEmpty [("n1",.ok [clusterMachine]),("n2",.error "노드 접속 불가"),
      ("n3",.error "노드 상태 Down")] := fun h => by
    cases h.2.2 _ List.mem_cons_self _ rfl
  refine ⟨outcome,hlisted,Bool.eq_false_iff.mpr fun hfailed => ?_⟩
  exact (hright.mpr hlives).mp hfailed _ List.mem_cons_self _ rfl

/-- One of three nodes is listed and hosts no machine; the outcome is a failure all the same. -/
theorem empty_survivor_fails :
    (HyperVHost.listCluster (.ok threeNodes) (fun i node => (firstHosts [] i node).toHostAnswer) =
      .ended [] (record 0 true (some "2개 노드 수집 실패: n2 (노드 접속 불가), n3 (노드 상태 Down)"))) ∧
    ¬ NoneListed (nodeResults (firstHosts []) 0 (HyperVHost.namedNodes threeNodes)) := by
  refine ⟨by decide +kernel,fun h => ?_⟩
  rw [namedNodes_threeNodes] at h
  exact h _ List.mem_cons_self [] (by decide +kernel)

end WzonePortal
