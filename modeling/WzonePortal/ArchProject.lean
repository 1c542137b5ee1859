import WzonePortal.ArchCheck

/-! The check of a whole project: the methods that a read-only portal must not define, the
result that the check adds up, and its exit code. -/
namespace WzonePortal

namespace RoseTree
variable {α β : Type}

mutual

def map (f : α → β) : RoseTree α → RoseTree β
  | .node value children => .node (f value) (maps f children)

def maps (f : α → β) : List (RoseTree α) → List (RoseTree β)
  | [] => []
  | t::ts => t.map f::maps f ts

end

theorem mem_maps {f : α → β} {ts : List (RoseTree α)} {u : RoseTree β} :
    u ∈ maps f ts ↔ ∃ t ∈ ts, t.map f = u := by
  induction ts with
  | nil => simp [maps]
  | cons t ts ih => simp [maps,ih,eq_comm]

theorem within_map {f : α → β} {t : RoseTree α} {b : β} :
    Within b (t.map f) ↔ ∃ a, Within a t ∧ f a = b := by
  constructor
  · intro h
    generalize hu : t.map f = u at h
    induction h generalizing t with
    | here children =>
      obtain ⟨value,children⟩ := t
      rw [map,RoseTree.node.injEq] at hu
      exact ⟨value,.here _,hu.1⟩
    | inside hv _ ih =>
      obtain ⟨value,children⟩ := t
      rw [map,RoseTree.node.injEq] at hu
      rw [← hu.2] at hv
      obtain ⟨w,hw,hmap⟩ := mem_maps.mp hv
      obtain ⟨a,ha,hb⟩ := ih hmap
      exact ⟨a,.inside hw ha,hb⟩
  · rintro ⟨a,h,rfl⟩
    induction h with
    | here children => exact .here _
    | inside hu _ ih => exact .inside (mem_maps.mpr ⟨_,hu,rfl⟩) ih

end RoseTree

namespace ArchCheck

def connectorPortModule : String := "src.domain.ports"

def forbiddenMethodPrefixes : List String := [
  "create_","delete_","destroy_","remove_",
  "power_","start_","stop_","restart_","reboot_",
  "suspend_","resume_","reset_","shutdown_",
  "modify_","reconfigure_","resize_","rename_",
  "migrate_","relocate_","clone_","deploy_","provision_",
  "revert_","attach_","detach_","mount_","unmount_"]

def allowedMethodNames : List String := [
  "start_session","stop_session","close_session","reset_session",
  "start_collection","stop_collection",
  "reset_connection","remove_stale_cache"]

def isReadonlyScope (modulePath : String) : Bool :=
  covers connectorPortModule modulePath || (resolveAdapter modulePath).isSome

/-- What both extractions distinguish among the nodes of a syntax tree. -/
inductive SyntaxNode
  | statement (node : Node)
  | functionDef (lineno : ℕ) (name : String)
  | asyncFunctionDef (lineno : ℕ) (name : String)
  deriving DecidableEq

def SyntaxNode.node : SyntaxNode → Node
  | .statement node => node
  | .functionDef _ _ => .other
  | .asyncFunctionDef _ _ => .other

/-- A `.py` file below `src`; `source` is what the check of the imports sees of it. -/
structure ProjectFile where
  directories : List String
  stem : String
  tree : RoseTree SyntaxNode
  readable : Bool

namespace ProjectFile

def source (file : ProjectFile) : SourceFile :=
  ⟨file.directories,file.stem,file.tree.map SyntaxNode.node,file.readable⟩

def module (file : ProjectFile) : String := file.source.fileToModule

end ProjectFile

structure MethodInfo where
  name : String
  line : ℕ
  statement : String
  deriving DecidableEq

def SyntaxNode.method : SyntaxNode → Option MethodInfo
  | .statement _ => none
  | .functionDef lineno name =>
    if startsWith name "_" then none else some ⟨name,lineno,"def " ++ name ++ "(...)"⟩
  | .asyncFunctionDef lineno name =>
    if startsWith name "_" then none else some ⟨name,lineno,"async def " ++ name ++ "(...)"⟩

def extractPublicMethods (file : ProjectFile) : List MethodInfo :=
  if file.readable then file.tree.walk.filterMap SyntaxNode.method else []

/-- One turn of the loop of `check_readonly_scope`. -/
def judgeMethod (file : ProjectFile) (method : MethodInfo) : Option Violation :=
  if method.name ∈ allowedMethodNames then none
  else match forbiddenMethodPrefixes.find? fun p => startsWith method.name p with
    | none => none
    | some matched => some {
      file := file.source.relPath
      line := method.line
      severity := .error
      reason := "읽기 전용 포탈은 자원 변경·제어 메서드를 정의할 수 없음 (금지 접두사 '" ++ matched ++
        "', spec.md CST-01 / NFR-202). 조회가 목적이면 get_/list_/fetch_/collect_ 등으로 명명할 것"
      statement := method.statement
      kind := .readonly
      fromModule := file.module }

def checkReadonlyScope (file : ProjectFile) : List Violation :=
  if isReadonlyScope file.module then (extractPublicMethods file).filterMap (judgeMethod file)
  else []

structure CheckResult where
  violations : List Violation := []
  checkedFiles : ℕ := 0
  totalImports : ℕ := 0
  allowedImports : ℤ := 0

/-- One turn of the loop of `check_project`; a package's `__init__` may import anything. -/
def checkFile (result : CheckResult) (file : ProjectFile) : CheckResult :=
  let result := { result with violations := result.violations ++ checkReadonlyScope file }
  if file.stem = "__init__" then result
  else
    let imports := extractImports file.source
    let importViolations := checkImports file.source
    { violations := result.violations ++ importViolations
      checkedFiles := result.checkedFiles+1
      totalImports := result.totalImports + imports.length
      allowedImports := result.allowedImports + (imports.length - importViolations.length) }

/-- `none` stands for a project without `src`. The files come in the order of their paths. -/
def checkProject (files : Option (List ProjectFile)) : CheckResult :=
  match files with
  | none => {}
  | some files => files.foldl checkFile {}

def CheckResult.errors (result : CheckResult) : List Violation :=
  result.violations.filter fun v => v.severity = .error

/-- The exit code of the script; without `--ci` it reports only. -/
def exitCode (ci : Bool) (result : CheckResult) : ℕ :=
  if ci then if result.errors ≠ [] then 1 else 0 else 0

/-- A public method with the name of an operation that changes a resource. -/
def Mutating (name : String) : Prop :=
  startsWith name "_" = false ∧ name ∉ allowedMethodNames ∧
    ∃ p ∈ forbiddenMethodPrefixes, startsWith name p = true

/-- A module outside `__init__` writes out an import that the rules forbid. -/
def ProjectFile.WritesForbidden (file : ProjectFile) : Prop :=
  file.stem ≠ "__init__" ∧ ∃ statement, RoseTree.Within (.statement statement) file.tree ∧
    ∃ toModule ∈ statement.written, Forbidden file.module toModule

/-- A connector or adapter defines a mutating method, at the top, in a class or in a function. -/
def ProjectFile.DefinesMutating (file : ProjectFile) : Prop :=
  isReadonlyScope file.module = true ∧ ∃ lineno name,
    (RoseTree.Within (.functionDef lineno name) file.tree ∨
      RoseTree.Within (.asyncFunctionDef lineno name) file.tree) ∧ Mutating name

section
variable {file : ProjectFile} {files : List ProjectFile} {result : CheckResult}

theorem judgeMethod_isSome {method : MethodInfo} : (judgeMethod file method).isSome = true ↔
    method.name ∉ allowedMethodNames ∧
      ∃ p ∈ forbiddenMethodPrefixes, startsWith method.name p = true := by
  unfold judgeMethod
  by_cases hallowed : method.name ∈ allowedMethodNames
  · simp [hallowed]
  · rw [if_neg hallowed]
    cases hfind : forbiddenMethodPrefixes.find? fun p => startsWith method.name p with
    | none =>
      have hnone := List.find?_eq_none.mp hfind
      simp only [Option.isSome_none,Bool.false_eq_true,hallowed,not_false_eq_true,true_and,
        false_iff]
      rintro ⟨p,hp,hstart⟩
      exact hnone p hp hstart
    | some p =>
      simp only [Option.isSome_some,hallowed,not_false_eq_true,true_and,true_iff]
      exact ⟨p,List.mem_of_find?_eq_some hfind,List.find?_some hfind⟩

theorem filterMap_ne_nil {α β : Type} {f : α → Option β} {as : List α} :
    as.filterMap f ≠ [] ↔ ∃ a ∈ as, (f a).isSome = true := by
  rw [Ne,List.filterMap_eq_nil_iff]
  simp only [not_forall,exists_prop,← Option.ne_none_iff_isSome]

/-- The check of the methods reports what the file defines. -/
theorem checkReadonlyScope_ne_nil :
    checkReadonlyScope file ≠ [] ↔ file.readable = true ∧ file.DefinesMutating := by
  unfold checkReadonlyScope extractPublicMethods ProjectFile.DefinesMutating
  by_cases hscope : isReadonlyScope file.module = true
  swap
  · simp [hscope]
  rw [if_pos hscope,filterMap_ne_nil]
  by_cases hreadable : file.readable = true
  swap
  · simp [hreadable]
  rw [if_pos hreadable]
  simp only [hreadable,hscope,true_and,List.mem_filterMap,judgeMethod_isSome]
  constructor
  · rintro ⟨method,⟨node,hnode,hmethod⟩,hallowed,hforbidden⟩
    cases node with
    | statement node => cases hmethod
    | functionDef lineno name =>
      simp only [SyntaxNode.method] at hmethod
      split_ifs at hmethod with hpublic
      cases hmethod
      exact ⟨lineno,name,.inl (RoseTree.mem_walk.mp hnode),by simpa using hpublic,hallowed,
        hforbidden⟩
    | asyncFunctionDef lineno name =>
      simp only [SyntaxNode.method] at hmethod
      split_ifs at hmethod with hpublic
      cases hmethod
      exact ⟨lineno,name,.inr (RoseTree.mem_walk.mp hnode),by simpa using hpublic,hallowed,
        hforbidden⟩
  · rintro ⟨lineno,name,hnode | hnode,hpublic,hallowed,hforbidden⟩
    · exact ⟨_,⟨_,RoseTree.mem_walk.mpr hnode,if_neg (by simp [hpublic])⟩,hallowed,hforbidden⟩
    · exact ⟨_,⟨_,RoseTree.mem_walk.mpr hnode,if_neg (by simp [hpublic])⟩,hallowed,hforbidden⟩

theorem written_of_node {node : SyntaxNode} {toModule : String}
    (h : toModule ∈ node.node.written) : ∃ statement, node = .statement statement := by
  cases node with
  | statement statement => exact ⟨statement,rfl⟩
  | functionDef lineno name => exact absurd h List.not_mem_nil
  | asyncFunctionDef lineno name => exact absurd h List.not_mem_nil

/-- The check of the imports reports what a file writes out. -/
theorem checkImports_ne_nil : checkImports file.source ≠ [] ↔ file.readable = true ∧
    ∃ statement, RoseTree.Within (.statement statement) file.tree ∧
      ∃ toModule ∈ statement.written, Forbidden file.module toModule := by
  constructor
  · intro h
    obtain ⟨v,hv⟩ := List.exists_mem_of_ne_nil _ h
    obtain ⟨hforbidden,imp,himp,_,hmodule⟩ := exists_violation_iff.mp ⟨v,hv,rfl,rfl⟩
    obtain ⟨hreadable,statement,hin,himp⟩ := mem_extractImports.mp himp
    have hwritten : v.toModule ∈ statement.written := by
      rw [← hmodule]
      cases statement with
      | importNames lineno names =>
        obtain ⟨a,ha,rfl⟩ := List.mem_map.mp himp
        exact List.mem_map_of_mem (List.mem_filter.mp ha).1
      | importFrom lineno module level names =>
        simp only [Node.imports] at himp
        cases module with
        | none => cases himp
        | some module =>
          dsimp only at himp
          split_ifs at himp with hsrc
          · obtain rfl := List.mem_singleton.mp himp
            exact Option.mem_toList.mpr rfl
          · cases himp
      | other => cases himp
    obtain ⟨node,hnode,rfl⟩ := RoseTree.within_map.mp hin
    obtain ⟨statement,rfl⟩ := written_of_node hwritten
    exact ⟨hreadable,statement,hnode,v.toModule,hwritten,hforbidden⟩
  · rintro ⟨hreadable,statement,hin,hwritten⟩
    have hsource : RoseTree.Within statement file.source.tree :=
      RoseTree.within_map.mpr ⟨.statement statement,hin,rfl⟩
    obtain ⟨v,hv,_⟩ := (reported_iff_written hsource).mpr ⟨hreadable,hwritten⟩
    exact List.ne_nil_of_mem hv

def ProjectFile.violations (file : ProjectFile) : List Violation :=
  checkReadonlyScope file ++ if file.stem = "__init__" then [] else checkImports file.source

def ProjectFile.isChecked (file : ProjectFile) : Bool := file.stem ≠ "__init__"

theorem foldl_violations :
    (files.foldl checkFile result).violations =
      result.violations ++ files.flatMap ProjectFile.violations := by
  induction files generalizing result with
  | nil => simp
  | cons file files ih =>
    rw [List.foldl_cons,ih,List.flatMap_cons,← List.append_assoc]
    congr 1
    unfold checkFile ProjectFile.violations
    by_cases hinit : file.stem = "__init__"
    · simp [hinit]
    · simp [hinit,List.append_assoc]

theorem foldl_checkedFiles : (files.foldl checkFile result).checkedFiles =
    result.checkedFiles + files.countP ProjectFile.isChecked := by
  induction files generalizing result with
  | nil => rfl
  | cons file files ih =>
    rw [List.foldl_cons,ih,List.countP_cons]
    by_cases hinit : file.stem = "__init__"
    · simp [checkFile,ProjectFile.isChecked,hinit]
    · simp only [checkFile,ProjectFile.isChecked,hinit,if_false,ne_eq,not_false_eq_true,
        decide_true,if_true]
      omega

theorem foldl_totalImports : (files.foldl checkFile result).totalImports =
    result.totalImports + ((files.filter ProjectFile.isChecked).map fun file =>
      (extractImports file.source).length).sum := by
  induction files generalizing result with
  | nil => rfl
  | cons file files ih =>
    rw [List.foldl_cons,ih,List.filter_cons]
    by_cases hinit : file.stem = "__init__"
    · simp [checkFile,ProjectFile.isChecked,hinit]
    · simp only [checkFile,ProjectFile.isChecked,hinit,if_false,ne_eq,not_false_eq_true,
        decide_true,if_true,List.map_cons,List.sum_cons]
      omega

theorem severity_of_mem {v : Violation} (h : v ∈ file.violations) : v.severity = .error := by
  rcases List.mem_append.mp h with h | h
  · unfold checkReadonlyScope at h
    split_ifs at h
    · obtain ⟨method,_,hv⟩ := List.mem_filterMap.mp h
      unfold judgeMethod at hv
      split_ifs at hv
      split at hv <;> cases hv
      rfl
    · cases h
  · split_ifs at h
    · cases h
    · unfold checkImports at h
      split at h
      · cases h
      · obtain ⟨imp,_,hv⟩ := List.mem_filterMap.mp h
        unfold judge at hv
        split at hv
        · cases hv
        · dsimp only at hv
          split_ifs at hv <;> cases hv <;> rfl

theorem errors_checkProject :
    (checkProject (some files)).errors = files.flatMap ProjectFile.violations := by
  rw [CheckResult.errors,checkProject,foldl_violations,List.nil_append,List.filter_eq_self]
  intro v hv
  obtain ⟨file,_,hv⟩ := List.mem_flatMap.mp hv
  simp [severity_of_mem hv]

/-- In CI the script fails exactly when some readable file below `src` either writes out, outside
`__init__`, what the rules forbid, or is a connector or an adapter with a mutating method. -/
theorem exitCode_eq_one_iff (files : List ProjectFile) :
    exitCode true (checkProject (some files)) = 1 ↔
      ∃ file ∈ files, file.readable = true ∧ (file.WritesForbidden ∨ file.DefinesMutating) := by
  have hfile : ∀ file : ProjectFile, file.violations ≠ [] ↔
      file.readable = true ∧ (file.WritesForbidden ∨ file.DefinesMutating) := by
    intro file
    have hsplit : file.violations ≠ [] ↔ checkReadonlyScope file ≠ [] ∨
        (file.stem ≠ "__init__" ∧ checkImports file.source ≠ []) := by
      unfold ProjectFile.violations
      by_cases hinit : file.stem = "__init__"
      · simp [hinit]
      · simp only [hinit,if_false,ne_eq,List.append_eq_nil_iff,not_and_or,not_false_eq_true,
          true_and]
    rw [hsplit,checkReadonlyScope_ne_nil,checkImports_ne_nil,ProjectFile.WritesForbidden]
    constructor
    · rintro (⟨hreadable,hdefines⟩ | ⟨hchecked,hreadable,hwrites⟩)
      · exact ⟨hreadable,.inr hdefines⟩
      · exact ⟨hreadable,.inl ⟨hchecked,hwrites⟩⟩
    · rintro ⟨hreadable,⟨hchecked,hwrites⟩ | hdefines⟩
      · exact .inr ⟨hchecked,hreadable,hwrites⟩
      · exact .inl ⟨hreadable,hdefines⟩
  have hcode : exitCode true (checkProject (some files)) = 1 ↔
      (checkProject (some files)).errors ≠ [] := by
    simp only [exitCode,if_true]
    split_ifs with herrors <;> simp [herrors]
  rw [hcode,errors_checkProject,Ne,List.flatMap_eq_nil_iff]
  simp only [not_forall,exists_prop]
  exact exists_congr fun file => and_congr_right fun _ => hfile file

end

end ArchCheck
end WzonePortal
