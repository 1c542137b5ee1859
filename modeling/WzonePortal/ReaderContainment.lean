import WzonePortal.ClusterListing
import WzonePortal.MalformedRows

/-! What escapes from the Hyper-V readers. The errors of a session and of a query are translated
and caught; the rows are mapped behind the handlers, so a row that the mapper cannot use raises
through the reader, whatever other nodes still have to tell. -/
namespace WzonePortal

open InventoryReaders Hyperv Json

/-- What comes of one query: an exception of the session or of the query, or the text that the
script has written. `json.loads` finds that it is no JSON, or fails in another way, as it does
for an integer of too many digits and for values that are nested too deeply. -/
inductive QueryAnswer
  | failed (exc : HypervErrors.ExceptionType) (message : List Char)
  | blank
  | undecodable (text : String)
  | unreadable (typeName : String)
  | decoded (data : Json)

def raisedOf (e : TranslatedError) : Raised :=
  if e.typeName = "AuthenticationError" then .authentication (String.ofList e.message)
  else if e.typeName = "PermissionError" then .permission (String.ofList e.message)
  else .portal e.typeName (String.ofList e.message)

def asObject : Json → Option JsonFields
  | .obj fields => some fields
  | _ => none

def rowsOf : Json → List JsonFields
  | .obj fields => [fields]
  | .arr items => items.filterMap asObject
  | _ => []

structure HypervReader where
  py : Interpreter
  isWord : Char → Bool
  lower : List Char → List Char
  secrets : List (List Char)
  connectionId : UUID
  /-- The identifiers that are drawn, by node and row. -/
  uuid4 : ℕ → ℕ → UUID
  observedAt : Timestamp

namespace HypervReader

section
variable (reader : HypervReader)

def translateError (exc : HypervErrors.ExceptionType) (message : List Char) : TranslatedError :=
  HypervErrors.translateError reader.isWord reader.lower exc message reader.secrets

def invokeJson : QueryAnswer → Except Raised (List JsonFields)
  | .failed exc message => .error (raisedOf (reader.translateError exc message))
  | .blank => .ok []
  | .undecodable text => .error (.portal "CollectionError" ("PowerShell JSON 파싱 실패: " ++ text))
  | .unreadable typeName => crash typeName
  | .decoded data => .ok (rowsOf data)

def mapHostRow (i j : ℕ) (row : JsonFields) : Mapped :=
  HostMapper.mapVirtualMachine reader.py (reader.uuid4 i j) reader.connectionId row reader.observedAt

def mapScvmmRow (j : ℕ) (row : JsonFields) : Mapped :=
  ScvmmMapper.mapScvmmVm reader.py (reader.uuid4 0 j) reader.connectionId row reader.observedAt

def hostAnswer (i : ℕ) (response : QueryAnswer) : HyperVHost.HostAnswer := do
  let rows ← reader.invokeJson response
  pure (rows.mapIdx (reader.mapHostRow i))

def scvmmAnswer (response : QueryAnswer) : Except Raised (List (Option Mapped)) := do
  let rows ← reader.invokeJson response
  pure (rows.mapIdx fun j row =>
    if (get row "Id").truthy then some (reader.mapScvmmRow j row) else none)

def nodeOf (n : JsonFields) : Option String × Option String :=
  (textOrNone reader.py (get n "Name"),textOrNone reader.py (get n "State"))

def nodesOfAll : List Json → Except Raised (List (Option String × Option String))
  | [] => .ok []
  | n::ns => do
    let n ← asFields n
    let rest ← nodesOfAll ns
    pure (reader.nodeOf n::rest)

def clusterNodes (response : QueryAnswer) : Except Raised (List (Option String × Option String)) := do
  let rows ← reader.invokeJson response
  let ns ← iterate (orEmpty (get (rows.head?.getD []) "Nodes"))
  reader.nodesOfAll ns

def listHost (response : QueryAnswer) : Report := HyperVHost.listHost (reader.hostAnswer 0 response)

def listScvmm (response : QueryAnswer) : Report :=
  Scvmm.listVirtualMachines (reader.scvmmAnswer response)

def nodeAnswer (responses : ℕ → String → QueryAnswer) (i : ℕ) (node : String) :
    HyperVHost.HostAnswer :=
  reader.hostAnswer i (responses i node)

def listCluster (nodes : QueryAnswer) (responses : ℕ → String → QueryAnswer) : Report :=
  HyperVHost.listCluster (reader.clusterNodes nodes) (reader.nodeAnswer responses)

end
end HypervReader

/-- The listing comes to its end with one outcome, or the sign-in has been rejected. -/
def Contained (report : Report) (reported : CollectionOutcome → Prop) : Prop :=
  (report.listing.ending = none ∧ ∃ outcome, report.outcomes = [outcome] ∧ reported outcome) ∨
    ∃ message, report.listing.ending = some (.authentication message)

/-- The outcome tells of the error. -/
def ReportsError {α : Type} (answer : Except Raised α) (outcome : CollectionOutcome) : Prop :=
  ∀ e, answer = .error e → outcome.failed = true ∧ outcome.error = some e.text

/-- The outcome tells of the error of every node that is up. -/
def ReportsNodes (answer : ℕ → String → HyperVHost.HostAnswer) (nodes : List (String × String))
    (outcome : CollectionOutcome) : Prop :=
  ∀ j node state e, nodes[j]? = some (node,state) → state.toLower = "up" →
    answer j node = .error e → ∃ failedNodes,
      outcome.error = some (HyperVHost.failedNodesText failedNodes) ∧ (node,e.text) ∈ failedNodes

/-- Unless the sign-in is rejected, the machines of every node that is up and whose rows can be
mapped are yielded. -/
def Isolated (answer : ℕ → String → HyperVHost.HostAnswer) (nodes : List (String × String))
    (report : Report) : Prop :=
  (∀ message, report.listing.ending ≠ some (.authentication message)) →
    ∀ j node state vms, nodes[j]? = some (node,state) → state.toLower = "up" →
      answer j node = .ok (vms.map .ok) → vms ⊆ report.listing.vms

namespace QueryAnswer

/-- Every row of the answer can be mapped. -/
def Readable (good : JsonFields → Prop) : QueryAnswer → Prop
  | .unreadable _ => False
  | .decoded data => ∀ row ∈ rowsOf data, good row
  | _ => True

/-- The nodes are objects in a list, or there are none. -/
def NodesReadable : QueryAnswer → Prop
  | .unreadable _ => False
  | .decoded data =>
    (get ((rowsOf data).head?.getD []) "Nodes").EmptyOrList (IsObject fun _ => True)
  | _ => True

def nodeObjects : QueryAnswer → List JsonFields
  | .decoded data => match get ((rowsOf data).head?.getD []) "Nodes" with
    | .arr ns => ns.filterMap asObject
    | _ => []
  | _ => []

def namedNodes (reader : HypervReader) (response : QueryAnswer) : List (String × String) :=
  HyperVHost.namedNodes (response.nodeObjects.map reader.nodeOf)

/-- The session or the query fails with an error that is taken for a rejected sign-in. -/
def Rejected (reader : HypervReader) : QueryAnswer → Prop
  | .failed exc message => (reader.translateError exc message).typeName = "AuthenticationError"
  | _ => False

end QueryAnswer

/-- The rows of the nodes that are up can be mapped, up to the first that rejects the sign-in. -/
def ReachedReadable (reader : HypervReader) (responses : ℕ → String → QueryAnswer) :
    ℕ → List (String × String) → Prop
  | _, [] => True
  | i, (node,state)::nodes =>
    if state.toLower = "up" then
      (responses i node).Readable (HostRow reader.py.toAscii) ∧
        ((responses i node).Rejected reader ∨ ReachedReadable reader responses (i+1) nodes)
    else ReachedReadable reader responses (i+1) nodes

section
variable {rows : List JsonFields} {good : JsonFields → Prop}

theorem takeMapped_mapIdx {f : ℕ → JsonFields → Mapped} (hf : ∀ j row, Decides (f j row) (good row)) :
    ((∀ row ∈ rows, good row) → ∃ vms : List VirtualMachine, rows.mapIdx f = vms.map .ok) ∧
      ((¬ ∀ row ∈ rows, good row) →
        ∃ vms typeName, takeMapped (rows.mapIdx f) = (vms,some (.other typeName ""))) := by
  induction rows generalizing f with
  | nil => exact ⟨fun _ => ⟨[],rfl⟩,fun h => absurd (by simp) h⟩
  | cons row rows ih =>
    rw [List.mapIdx_cons,List.forall_mem_cons]
    obtain ⟨hmapped,hbroken⟩ := ih fun j => hf (j+1)
    constructor
    · rintro ⟨hrow,hrows⟩
      obtain ⟨vm,hvm⟩ := (hf 0 row).succeeds hrow
      obtain ⟨vms,hvms⟩ := hmapped hrows
      exact ⟨vm::vms,by rw [hvm,hvms]; rfl⟩
    · intro h
      by_cases hrow : good row
      · obtain ⟨vm,hvm⟩ := (hf 0 row).succeeds hrow
        obtain ⟨vms,typeName,hvms⟩ := hbroken fun hrows => h ⟨hrow,hrows⟩
        exact ⟨vm::vms,typeName,by rw [hvm,takeMapped,hvms]⟩
      · obtain ⟨typeName,he⟩ := (hf 0 row).crashes hrow
        exact ⟨[],typeName,by rw [he]; rfl⟩

theorem yieldRows_mapIdx {f : ℕ → JsonFields → Mapped} (kept : JsonFields → Bool)
    (hf : ∀ j row, Decides (f j row) (good row)) :
    ((∀ row ∈ rows, kept row = true → good row) → ∃ vms excluded,
        Scvmm.yieldRows (rows.mapIdx fun j row => if kept row then some (f j row) else none) =
          (vms,excluded,none)) ∧
      ((¬ ∀ row ∈ rows, kept row = true → good row) → ∃ vms excluded typeName,
        Scvmm.yieldRows (rows.mapIdx fun j row => if kept row then some (f j row) else none) =
          (vms,excluded,some (.other typeName ""))) := by
  induction rows generalizing f with
  | nil => exact ⟨fun _ => ⟨[],0,rfl⟩,fun h => absurd (by simp) h⟩
  | cons row rows ih =>
    rw [List.mapIdx_cons,List.forall_mem_cons]
    obtain ⟨hmapped,hbroken⟩ := ih fun j => hf (j+1)
    by_cases hkept : kept row = true
    · rw [if_pos hkept]
      constructor
      · rintro ⟨hrow,hrows⟩
        obtain ⟨vm,hvm⟩ := (hf 0 row).succeeds (hrow hkept)
        obtain ⟨vms,excluded,hvms⟩ := hmapped hrows
        exact ⟨vm::vms,excluded,by rw [hvm,Scvmm.yieldRows,hvms]⟩
      · intro h
        by_cases hrow : good row
        · obtain ⟨vm,hvm⟩ := (hf 0 row).succeeds hrow
          obtain ⟨vms,excluded,typeName,hvms⟩ := hbroken fun hrows => h ⟨fun _ => hrow,hrows⟩
          exact ⟨vm::vms,excluded,typeName,by rw [hvm,Scvmm.yieldRows,hvms]⟩
        · obtain ⟨typeName,he⟩ := (hf 0 row).crashes hrow
          exact ⟨[],0,typeName,by rw [he]; rfl⟩
    · rw [if_neg hkept]
      constructor
      · rintro ⟨_,hrows⟩
        obtain ⟨vms,excluded,hvms⟩ := hmapped hrows
        exact ⟨vms,excluded+1,by rw [Scvmm.yieldRows,hvms]⟩
      · intro h
        obtain ⟨vms,excluded,typeName,hvms⟩ := hbroken fun hrows =>
          h ⟨fun hk => absurd hk hkept,hrows⟩
        exact ⟨vms,excluded+1,typeName,by rw [Scvmm.yieldRows,hvms]⟩

end

/-- The answer ends the listing with an exception of the interpreter. -/
def Breaks (answer : HyperVHost.HostAnswer) : Prop :=
  (∃ typeName, answer = .error (.other typeName "")) ∨
    ∃ rows vms typeName, answer = .ok rows ∧ takeMapped rows = (vms,some (.other typeName ""))

section
variable {reader : HypervReader} {response : QueryAnswer}

theorem raisedOf_cases (e : TranslatedError) :
    (e.typeName = "AuthenticationError" ∧ ∃ message, raisedOf e = .authentication message) ∨
      (e.typeName ≠ "AuthenticationError" ∧ ((∃ message, raisedOf e = .permission message) ∨
        ∃ message, raisedOf e = .portal e.typeName message)) := by
  unfold raisedOf
  by_cases hauth : e.typeName = "AuthenticationError"
  · exact .inl ⟨hauth,_,if_pos hauth⟩
  · rw [if_neg hauth]
    refine .inr ⟨hauth,?_⟩
    split
    · exact .inl ⟨_,rfl⟩
    · exact .inr ⟨_,rfl⟩

/-- A node whose rows can be mapped rejects the sign-in, fails with another error of the domain,
or has machines. -/
theorem hostAnswer_of_readable (i : ℕ) (h : response.Readable (HostRow reader.py.toAscii)) :
    (response.Rejected reader ∧
        ∃ message, reader.hostAnswer i response = .error (.authentication message)) ∨
      (¬ response.Rejected reader ∧
        ∃ answer : NodeAnswer, reader.hostAnswer i response = answer.toHostAnswer) := by
  cases response with
  | failed exc message =>
    simp only [QueryAnswer.Rejected,HypervReader.hostAnswer,HypervReader.invokeJson]
    rcases raisedOf_cases (reader.translateError exc message) with
      ⟨hauth,m,he⟩ | ⟨hauth,⟨m,he⟩ | ⟨m,he⟩⟩
    · exact .inl ⟨hauth,m,by rw [he]; rfl⟩
    · exact .inr ⟨hauth,.permission m,by rw [he]; rfl⟩
    · exact .inr ⟨hauth,.portal _ m,by rw [he]; rfl⟩
  | blank => exact .inr ⟨id,.rows [],rfl⟩
  | undecodable text => exact .inr ⟨id,.portal _ _,rfl⟩
  | unreadable typeName => exact h.elim
  | decoded data =>
    obtain ⟨vms,hvms⟩ := (takeMapped_mapIdx (f:=reader.mapHostRow i) fun j row =>
      decides_mapVirtualMachine _ _ row _).1 h
    exact .inr ⟨id,.rows vms,congrArg Except.ok hvms⟩

theorem hostAnswer_breaks (i : ℕ) (h : ¬ response.Readable (HostRow reader.py.toAscii)) :
    Breaks (reader.hostAnswer i response) := by
  cases response with
  | unreadable typeName => exact .inl ⟨typeName,rfl⟩
  | decoded data =>
    obtain ⟨vms,typeName,hvms⟩ := (takeMapped_mapIdx (f:=reader.mapHostRow i) fun j row =>
      decides_mapVirtualMachine _ _ row _).2 h
    exact .inr ⟨_,vms,typeName,rfl,hvms⟩
  | _ => exact absurd trivial h

end

open ClusterListing

section
variable {answer : ℕ → String → HyperVHost.HostAnswer} {i : ℕ} {node state : String}
  {nodes failedNodes : List (String × String)} {vms : List VirtualMachine}

theorem visitNodes_grows : vms ⊆ (HyperVHost.visitNodes answer i nodes vms failedNodes).vms ∧
    failedNodes ⊆ (HyperVHost.visitNodes answer i nodes vms failedNodes).failedNodes := by
  induction nodes generalizing i vms failedNodes with
  | nil => exact ⟨List.Subset.refl _,List.Subset.refl _⟩
  | cons n nodes ih =>
    obtain ⟨node,state⟩ := n
    have hfailed : ∀ f : String × String, failedNodes ⊆
        (HyperVHost.visitNodes answer (i+1) nodes vms (failedNodes ++ [f])).failedNodes :=
      fun f => List.Subset.trans (List.subset_append_left _ _) ih.2
    unfold HyperVHost.visitNodes
    split
    · exact ⟨ih.1,hfailed _⟩
    · split
      · exact ⟨ih.1,hfailed _⟩
      · exact ⟨ih.1,hfailed _⟩
      · exact ⟨List.Subset.refl _,List.Subset.refl _⟩
      · split
        · exact ⟨List.Subset.trans (List.subset_append_left _ _) ih.1,ih.2⟩
        · exact ⟨List.subset_append_left _ _,List.Subset.refl _⟩

/-- Every node that is up has its machines among those of the visit, or its error among the
failures. -/
def Served (answer : ℕ → String → HyperVHost.HostAnswer) (i : ℕ) (nodes : List (String × String))
    (visited : HyperVHost.Visited) : Prop :=
  ∀ j node state, nodes[j]? = some (node,state) → state.toLower = "up" →
    (∀ vms : List VirtualMachine, answer (i+j) node = .ok (vms.map .ok) → vms ⊆ visited.vms) ∧
      ∀ e, answer (i+j) node = .error e → (node,e.text) ∈ visited.failedNodes

/-- The sign-in has been rejected, or the visit has served every node. -/
def Visits (answer : ℕ → String → HyperVHost.HostAnswer) (i : ℕ) (nodes : List (String × String))
    (visited : HyperVHost.Visited) : Prop :=
  (∃ message, visited.ending = some (.authentication message)) ∨
    (visited.ending = none ∧ Served answer i nodes visited)

theorem served_cons {a : NodeAnswer} {visited : HyperVHost.Visited}
    (ha : state.toLower = "up" → answer i node = a.toHostAnswer)
    (hvms : machinesOf (node,nodeResult state a) ⊆ visited.vms)
    (hfailed : (ClusterListing.failure (node,nodeResult state a)).toList ⊆ visited.failedNodes)
    (h : Served answer (i+1) nodes visited) : Served answer i ((node,state)::nodes) visited := by
  intro j name st hj hup
  cases j with
  | zero =>
    cases hj
    rw [Nat.add_zero,ha hup]
    unfold nodeResult at hvms hfailed
    rw [if_neg (not_not.mpr hup)] at hvms hfailed
    cases a with
    | rows vms' =>
      refine ⟨fun vms heq => ?_,fun e he => by cases he⟩
      have hinj : Function.Injective (Except.ok : VirtualMachine → Mapped) := fun _ _ => Except.ok.inj
      rw [← List.map_injective_iff.mpr hinj (Except.ok.inj heq)]
      exact hvms
    | _ =>
      refine ⟨fun vms heq => (by cases heq),fun e he => ?_⟩
      cases he
      exact hfailed (by simp [ClusterListing.failure,Raised.text])
  | succ j =>
    have hserved := h j name st hj hup
    rwa [Nat.add_right_comm,Nat.add_assoc] at hserved

end

section
variable {reader : HypervReader} {responses : ℕ → String → QueryAnswer} {i : ℕ}
  {nodes failedNodes : List (String × String)} {vms : List VirtualMachine}

theorem visitNodes_readable (h : ReachedReadable reader responses i nodes) :
    Visits (reader.nodeAnswer responses) i nodes
      (HyperVHost.visitNodes (reader.nodeAnswer responses) i nodes vms failedNodes) := by
  induction nodes generalizing i vms failedNodes with
  | nil => exact .inr ⟨rfl,fun j node state hj => by cases hj⟩
  | cons n nodes ih =>
    obtain ⟨node,state⟩ := n
    have hpassed : ∀ a : NodeAnswer,
        (state.toLower = "up" → reader.nodeAnswer responses i node = a.toHostAnswer) →
        ReachedReadable reader responses (i+1) nodes →
        Visits (reader.nodeAnswer responses) i ((node,state)::nodes) (HyperVHost.visitNodes
          (reader.nodeAnswer responses) i ((node,state)::nodes) vms failedNodes) := by
      intro a ha hrest
      rw [visitNodes_step a ha]
      refine (ih hrest).imp_right fun ⟨hending,hserved⟩ => ⟨hending,?_⟩
      exact served_cons ha (List.Subset.trans (List.subset_append_right _ _) visitNodes_grows.1)
        (List.Subset.trans (List.subset_append_right _ _) visitNodes_grows.2) hserved
    unfold ReachedReadable at h
    by_cases hup : state.toLower = "up"
    · rw [if_pos hup] at h
      obtain ⟨hreadable,hrest⟩ := h
      rcases hostAnswer_of_readable i hreadable with ⟨_,message,he⟩ | ⟨hnot,a,ha⟩
      · left
        refine ⟨message,?_⟩
        unfold HyperVHost.visitNodes
        rw [if_neg (not_not.mpr hup),HypervReader.nodeAnswer,he]
      · exact hpassed a (fun _ => ha) (hrest.resolve_left hnot)
    · rw [if_neg hup] at h
      exact hpassed (.rows []) (fun hu => absurd hu hup) h

theorem visitNodes_breaks (vms : List VirtualMachine) (failedNodes : List (String × String))
    (h : ¬ ReachedReadable reader responses i nodes) :
    ∃ typeName, (HyperVHost.visitNodes (reader.nodeAnswer responses) i nodes vms failedNodes).ending =
      some (.other typeName "") := by
  induction nodes generalizing i vms failedNodes with
  | nil => exact absurd trivial h
  | cons n nodes ih =>
    obtain ⟨node,state⟩ := n
    unfold ReachedReadable at h
    by_cases hup : state.toLower = "up"
    · rw [if_pos hup] at h
      by_cases hreadable : (responses i node).Readable (HostRow reader.py.toAscii)
      · have hrest : ¬ ReachedReadable reader responses (i+1) nodes := fun hr => h ⟨hreadable,.inr hr⟩
        rcases hostAnswer_of_readable i hreadable with ⟨hrejected,_⟩ | ⟨_,a,ha⟩
        · exact absurd ⟨hreadable,.inl hrejected⟩ h
        · rw [visitNodes_step a fun _ => ha]
          exact ih _ _ hrest
      · unfold HyperVHost.visitNodes
        rw [if_neg (not_not.mpr hup)]
        unfold HypervReader.nodeAnswer
        rcases hostAnswer_breaks i hreadable with ⟨typeName,he⟩ | ⟨rows,mapped,typeName,hrows,hmapped⟩
        · rw [he]
          exact ⟨typeName,rfl⟩
        · rw [hrows]
          dsimp only
          rw [hmapped]
          exact ⟨typeName,rfl⟩
    · rw [if_neg hup] at h
      rw [visitNodes_step (.rows []) fun hu => absurd hu hup]
      exact ih _ _ h

end

section
variable {reader : HypervReader} {response : QueryAnswer}

theorem raisedOf_ne_other (e : TranslatedError) (typeName text : String) :
    raisedOf e ≠ .other typeName text := by
  intro h
  rcases raisedOf_cases e with ⟨_,m,he⟩ | ⟨_,⟨m,he⟩ | ⟨m,he⟩⟩ <;> cases he.symm.trans h

theorem decides_nodesOfAll (ns : List Json) :
    Decides (reader.nodesOfAll ns) (∀ n ∈ ns, n.IsObject fun _ => True) := by
  induction ns with
  | nil => exact (Decides.ok _).congr (by simp)
  | cons n ns ih =>
    exact (decides_asFields.bind fun _ _ => ih.andThen fun _ => ⟨_,rfl⟩).congr
      List.forall_mem_cons.symm

theorem nodesOfAll_eq {ns : List Json} (h : ∀ n ∈ ns, n.IsObject fun _ => True) :
    reader.nodesOfAll ns = .ok ((ns.filterMap asObject).map reader.nodeOf) := by
  induction ns with
  | nil => rfl
  | cons n ns ih =>
    rw [List.forall_mem_cons] at h
    cases n with
    | obj fields =>
      rw [HypervReader.nodesOfAll,ih h.2]
      rfl
    | _ => exact h.1.elim

/-- An answer whose nodes can be read fails with an error of the domain or names its nodes. -/
theorem clusterNodes_of_readable (reader : HypervReader) (h : response.NodesReadable) :
    (∃ e, reader.clusterNodes response = .error e ∧ response.nodeObjects = [] ∧
        ∀ typeName text, e ≠ .other typeName text) ∨
      reader.clusterNodes response = .ok (response.nodeObjects.map reader.nodeOf) := by
  cases response with
  | failed exc message => exact .inl ⟨_,rfl,rfl,raisedOf_ne_other _⟩
  | blank => exact .inr rfl
  | undecodable text => exact .inl ⟨_,rfl,rfl,fun _ _ => by simp⟩
  | unreadable typeName => exact h.elim
  | decoded data =>
    right
    simp only [QueryAnswer.NodesReadable] at h
    simp only [HypervReader.clusterNodes,HypervReader.invokeJson,QueryAnswer.nodeObjects,bind,
      Except.bind]
    generalize get ((rowsOf data).head?.getD []) "Nodes" = value at h ⊢
    by_cases htruthy : value.truthy = true
    · obtain ⟨ns,rfl,hns⟩ := h htruthy
      rw [orEmpty,orElse,if_pos htruthy]
      exact nodesOfAll_eq hns
    · rw [orEmpty,orElse,if_neg htruthy]
      cases value with
      | arr ns =>
        have hnil : ns = [] := by simpa [truthy] using htruthy
        subst hnil
        rfl
      | _ => rfl

theorem clusterNodes_breaks (reader : HypervReader) (h : ¬ response.NodesReadable) :
    ∃ typeName, reader.clusterNodes response = .error (.other typeName "") := by
  cases response with
  | unreadable typeName => exact ⟨typeName,rfl⟩
  | decoded data =>
    have hdecides : Decides (reader.clusterNodes (.decoded data))
        (QueryAnswer.decoded data).NodesReadable := by
      refine (decides_iterate.bind (Q:=(QueryAnswer.decoded data).NodesReadable) fun ns hns =>
        (decides_nodesOfAll ns).congr (iterate_objects hns)).congr ?_
      exact ⟨And.right,fun h => ⟨iterable_of_emptyOrList h,h⟩⟩
    exact hdecides.crashes h
  | _ => exact absurd trivial h

end

theorem contained_refused {e : Raised} {reported : CollectionOutcome → Prop}
    (he : ∀ typeName text, e ≠ .other typeName text)
    (hreported : reported (record 0 true (some e.text))) : Contained (refused [] e) reported := by
  cases e with
  | authentication message => exact .inr ⟨message,rfl⟩
  | permission message => exact .inl ⟨rfl,_,rfl,hreported⟩
  | portal typeName message => exact .inl ⟨rfl,_,rfl,hreported⟩
  | other typeName text => exact absurd rfl (he typeName text)

theorem not_contained_of_other {report : Report} {reported : CollectionOutcome → Prop}
    (h : ∃ typeName, report.listing.ending = some (.other typeName "")) :
    ¬ Contained report reported := by
  obtain ⟨typeName,h⟩ := h
  rintro (⟨hnone,_⟩ | ⟨message,hauth⟩)
  · cases hnone.symm.trans h
  · cases hauth.symm.trans h

section
variable (reader : HypervReader)

theorem host_contained_iff (response : QueryAnswer) :
    Contained (reader.listHost response) (ReportsError (reader.hostAnswer 0 response)) ↔
      response.Readable (HostRow reader.py.toAscii) := by
  constructor
  · intro hcontained
    by_contra hnot
    rcases hostAnswer_breaks 0 hnot with ⟨typeName,he⟩ | ⟨rows,vms,typeName,hrows,hmapped⟩
    · refine not_contained_of_other ⟨typeName,?_⟩ hcontained
      rw [HypervReader.listHost,he]
      rfl
    · refine not_contained_of_other ⟨typeName,?_⟩ hcontained
      rw [HypervReader.listHost,hrows,HyperVHost.listHost,HyperVHost.yieldRows,hmapped]
      rfl
  · intro h
    unfold HypervReader.listHost
    rcases hostAnswer_of_readable 0 h with ⟨_,message,he⟩ | ⟨_,a,ha⟩
    · rw [he]
      exact .inr ⟨message,rfl⟩
    · rw [ha]
      cases a with
      | rows vms =>
        rw [NodeAnswer.toHostAnswer,HyperVHost.listHost,HyperVHost.yieldRows,takeMapped_map_ok]
        exact .inl ⟨rfl,_,rfl,fun e he => by cases he⟩
      | permission message =>
        refine contained_refused (fun _ _ => by simp) fun e he => ?_
        cases he
        exact ⟨rfl,rfl⟩
      | portal typeName message =>
        refine contained_refused (fun _ _ => by simp) fun e he => ?_
        cases he
        exact ⟨rfl,rfl⟩

/-- Of the rows of SCVMM, those with an identifier are mapped. -/
theorem scvmm_contained_iff (response : QueryAnswer) :
    Contained (reader.listScvmm response) (ReportsError (reader.scvmmAnswer response)) ↔
      response.Readable fun row => (get row "Id").truthy = true → ScvmmRow reader.py.toAscii row := by
  have hrefused : ∀ e, (∀ typeName text, e ≠ .other typeName text) →
      Contained (Scvmm.listVirtualMachines (.error e))
        (ReportsError (.error e : Except Raised (List (Option Mapped)))) := fun e he =>
    contained_refused he fun e' he' => by
      cases he'
      exact ⟨rfl,rfl⟩
  have hrows : ∀ rows : List JsonFields, reader.invokeJson response = .ok rows →
      (Contained (reader.listScvmm response) (ReportsError (reader.scvmmAnswer response)) ↔
        ∀ row ∈ rows, (get row "Id").truthy = true → ScvmmRow reader.py.toAscii row) := by
    intro rows h
    have hyield := @yieldRows_mapIdx rows (ScvmmRow reader.py.toAscii) reader.mapScvmmRow
      (fun row => (get row "Id").truthy) fun j row => decides_mapScvmmVm _ _ row _
    unfold HypervReader.listScvmm HypervReader.scvmmAnswer
    simp only [h,bind,Except.bind,pure,Except.pure,Scvmm.listVirtualMachines]
    constructor
    · intro hcontained
      by_contra hnot
      obtain ⟨vms,excluded,typeName,hy⟩ := hyield.2 hnot
      rw [hy] at hcontained
      exact not_contained_of_other ⟨typeName,rfl⟩ hcontained
    · intro hall
      obtain ⟨vms,excluded,hy⟩ := hyield.1 hall
      rw [hy]
      exact .inl ⟨rfl,_,rfl,fun e he => by cases he⟩
  cases response with
  | failed exc message => exact iff_of_true (hrefused _ (raisedOf_ne_other _)) trivial
  | blank => exact (hrows [] rfl).trans (by simp [QueryAnswer.Readable])
  | undecodable text => exact iff_of_true (hrefused _ fun _ _ => by simp) trivial
  | unreadable typeName => exact iff_of_false (not_contained_of_other ⟨typeName,rfl⟩) id
  | decoded data => exact hrows (rowsOf data) rfl

/-- What a cluster listing has to keep: it is contained, and no node costs another its machines. -/
structure ClusterContained (nodes : QueryAnswer) (responses : ℕ → String → QueryAnswer) : Prop where
  contained : Contained (reader.listCluster nodes responses) fun outcome =>
    ReportsError (HyperVHost.resolveNodes (reader.clusterNodes nodes)) outcome ∧
      ReportsNodes (reader.nodeAnswer responses) (nodes.namedNodes reader) outcome
  isolated : Isolated (reader.nodeAnswer responses) (nodes.namedNodes reader)
    (reader.listCluster nodes responses)

variable {reader} {nodes : QueryAnswer} {responses : ℕ → String → QueryAnswer}

theorem clusterContained_of_unresolved {e : Raised}
    (he : ∀ typeName text, e ≠ .other typeName text)
    (hresolve : HyperVHost.resolveNodes (reader.clusterNodes nodes) = .error e)
    (hnone : nodes.namedNodes reader = []) : ClusterContained reader nodes responses := by
  have hlist : reader.listCluster nodes responses = refused [] e := by
    rw [HypervReader.listCluster,HyperVHost.listCluster,hresolve]
  constructor
  · rw [hlist,hresolve,hnone]
    refine contained_refused he ⟨fun e' he' => ?_,fun j node state e' hj => by cases hj⟩
    cases he'
    exact ⟨rfl,rfl⟩
  · rw [hnone]
    intro _ j node state vms hj
    cases hj

theorem clusterContained_of_visits (hnodes : reader.clusterNodes nodes =
      .ok (nodes.nodeObjects.map reader.nodeOf)) (hsome : nodes.namedNodes reader ≠ [])
    (h : Visits (reader.nodeAnswer responses) 0 (nodes.namedNodes reader)
      (HyperVHost.visitNodes (reader.nodeAnswer responses) 0 (nodes.namedNodes reader) [] [])) :
    ClusterContained reader nodes responses := by
  have hresolve : HyperVHost.resolveNodes (reader.clusterNodes nodes) =
      .ok (nodes.namedNodes reader) := by
    rw [hnodes]
    exact if_neg hsome
  have hlist : reader.listCluster nodes responses = HyperVHost.listCluster
      (reader.clusterNodes nodes) (reader.nodeAnswer responses) := rfl
  rw [HyperVHost.listCluster,hresolve] at hlist
  dsimp only at hlist
  generalize HyperVHost.visitNodes (reader.nodeAnswer responses) 0 (nodes.namedNodes reader) [] [] =
    visited at h hlist
  rcases h with ⟨message,hending⟩ | ⟨hending,hserved⟩
  · rw [hending] at hlist
    constructor
    · rw [hlist]
      exact .inr ⟨message,rfl⟩
    · rw [hlist]
      exact fun hnever => absurd rfl (hnever message)
  · rw [hending] at hlist
    constructor
    · rw [hlist,hresolve]
      refine .inl ⟨rfl,_,rfl,fun e he => (by cases he),?_⟩
      intro j node state e hj hup he
      have hfailed := (hserved j node state hj hup).2 e (by rwa [Nat.zero_add])
      refine ⟨visited.failedNodes,?_,hfailed⟩
      rw [record,if_neg (List.ne_nil_of_mem hfailed)]
    · rw [hlist]
      intro _ j node state vms hj hup hvms
      exact (hserved j node state hj hup).1 vms (by rwa [Nat.zero_add])

theorem cluster_contained_iff : ClusterContained reader nodes responses ↔
    nodes.NodesReadable ∧ ReachedReadable reader responses 0 (nodes.namedNodes reader) := by
  constructor
  · intro h
    by_cases hreadable : nodes.NodesReadable
    · refine ⟨hreadable,?_⟩
      by_contra hnot
      obtain ⟨typeName,hending⟩ := visitNodes_breaks [] [] hnot
      have hsome : nodes.namedNodes reader ≠ [] := by
        intro hnil
        rw [hnil] at hnot
        exact hnot trivial
      rcases clusterNodes_of_readable reader hreadable with ⟨e,_,hnil,_⟩ | hnodes
      · refine hsome ?_
        rw [QueryAnswer.namedNodes,hnil]
        rfl
      · have hresolve : HyperVHost.resolveNodes (reader.clusterNodes nodes) =
            .ok (nodes.namedNodes reader) := by
          rw [hnodes]
          exact if_neg hsome
        refine not_contained_of_other ⟨typeName,?_⟩ h.contained
        rw [HypervReader.listCluster,HyperVHost.listCluster,hresolve]
        dsimp only
        rw [hending]
        rfl
    · obtain ⟨typeName,he⟩ := clusterNodes_breaks reader hreadable
      refine absurd h.contained (not_contained_of_other ⟨typeName,?_⟩)
      rw [HypervReader.listCluster,he]
      rfl
  · rintro ⟨hreadable,hreached⟩
    rcases clusterNodes_of_readable reader hreadable with ⟨e,he,hnil,hother⟩ | hnodes
    · refine clusterContained_of_unresolved hother (by rw [he]; rfl) ?_
      rw [QueryAnswer.namedNodes,hnil]
      rfl
    · by_cases hnone : nodes.namedNodes reader = []
      · have hresolve : HyperVHost.resolveNodes (reader.clusterNodes nodes) =
            .error (.portal "CollectionError" "클러스터 노드 목록을 얻지 못했습니다.") := by
          rw [hnodes]
          exact if_pos hnone
        exact clusterContained_of_unresolved (fun _ _ => by simp) hresolve hnone
      · exact clusterContained_of_visits hnodes hnone (visitNodes_readable hreached)

end

/-- A listing of a host, of SCVMM or of a cluster is contained exactly if the rows that it comes to
can be mapped; for a cluster these are also the answers that leave every other node its
machines. -/
theorem readers_contained_iff (reader : HypervReader) :
    (∀ response, Contained (reader.listHost response) (ReportsError (reader.hostAnswer 0 response)) ↔
      response.Readable (HostRow reader.py.toAscii)) ∧
    (∀ response, Contained (reader.listScvmm response) (ReportsError (reader.scvmmAnswer response)) ↔
      response.Readable fun row => (get row "Id").truthy = true → ScvmmRow reader.py.toAscii row) ∧
    ∀ nodes responses, ClusterContained reader nodes responses ↔
      nodes.NodesReadable ∧ ReachedReadable reader responses 0 (nodes.namedNodes reader) :=
  ⟨host_contained_iff reader,scvmm_contained_iff reader,fun _ _ => cluster_contained_iff⟩

def textOf : Json → String
  | .str text => text
  | _ => "?"

def plainInterpreter : Interpreter := ⟨textOf,id,id,id,fun _ => none⟩

def plainReader : HypervReader := ⟨plainInterpreter,isAsciiWord,id,[],7,fun i j => 10 * i + j,0⟩

def twoNodes : QueryAnswer :=
  .decoded (.obj [("Nodes",.arr [.obj [("Name",.str "n1"),("State",.str "Up")],
    .obj [("Name",.str "n2"),("State",.str "Up")]])])

def firstMalformed (i : ℕ) (_ : String) : QueryAnswer :=
  if i = 0 then .decoded (.obj [("Name",.str "web")])
  else .decoded (.obj [("Id",.str "vm-2"),("ProcessorCount",.int 4)])

/-- The exception passes through the reader, and the machine of the second node is not yielded. -/
theorem malformed_row_escapes :
    (plainReader.listCluster twoNodes firstMalformed).listing = ⟨[],some (.other "KeyError" "")⟩ ∧
    (plainReader.listCluster twoNodes firstMalformed).outcomes = [] ∧
    (plainReader.nodeAnswer firstMalformed 1 "n2").toOption.map List.length = some 1 ∧
    ¬ ClusterContained plainReader twoNodes firstMalformed := by
  have hlisting : (plainReader.listCluster twoNodes firstMalformed).listing =
      ⟨[],some (.other "KeyError" "")⟩ := by decide +kernel
  refine ⟨hlisting,by decide +kernel,rfl,fun h => ?_⟩
  exact not_contained_of_other ⟨"KeyError",by rw [hlisting]⟩ h.contained

end WzonePortal
