import WzonePortal.RoseTree

/-! The check of the layers: which layer and which hypervisor adapter a module belongs to, the
imports that the check reads off a file, and the violations it reports. What an import statement
gives in Python is stated beside it. -/
namespace WzonePortal
namespace ArchCheck

inductive Layer
  | domain | config | utils | infrastructure | application | orchestration | interface | entry
  deriving DecidableEq, Repr

def Layer.text : Layer → String
  | .domain => "domain"
  | .config => "config"
  | .utils => "utils"
  | .infrastructure => "infrastructure"
  | .application => "application"
  | .orchestration => "orchestration"
  | .interface => "interface"
  | .entry => "entry"

def moduleLayerMap : List (String × Layer) := [
  ("src.domain",.domain),
  ("src.domain.resource",.domain),
  ("src.domain.connection",.domain),
  ("src.domain.metadata",.domain),
  ("src.domain.auth",.domain),
  ("src.domain.history",.domain),
  ("src.domain.audit",.domain),
  ("src.domain.ports",.domain),
  ("src.config",.config),
  ("src.utils",.utils),
  ("src.infrastructure",.infrastructure),
  ("src.infrastructure.vcenter",.infrastructure),
  ("src.infrastructure.hyperv",.infrastructure),
  ("src.infrastructure.db",.infrastructure),
  ("src.infrastructure.cache",.infrastructure),
  ("src.infrastructure.security",.infrastructure),
  ("src.infrastructure.repository",.infrastructure),
  ("src.application",.application),
  ("src.orchestration",.orchestration),
  ("src.api",.interface),
  ("src.main",.entry)]

def hypervisorAdapters : List String :=
  ["src.infrastructure.vcenter","src.infrastructure.hyperv"]

def allowedDeps : Layer → List Layer
  | .domain => []
  | .config => []
  | .utils => []
  | .infrastructure => [.domain,.config,.utils,.infrastructure]
  | .application => [.domain,.config,.utils,.infrastructure]
  | .orchestration => [.domain,.config,.utils,.application,.infrastructure]
  | .interface => [.domain,.config,.utils,.orchestration,.application,.infrastructure]
  | .entry => [.domain,.config,.utils,.orchestration,.interface,.infrastructure]

def startsWith (text start : String) : Bool := start.toList.isPrefixOf text.toList

/-- `module_path == prefix or module_path.startswith(prefix + ".")` -/
def covers (start modulePath : String) : Bool :=
  modulePath = start || startsWith modulePath (start ++ ".")

/-- The longest entry that covers the module. -/
def resolveLayer (modulePath : String) : Option Layer :=
  (moduleLayerMap.foldl (fun (best : Option Layer × ℕ) entry =>
    if covers entry.1 modulePath && entry.1.length > best.2 then (some entry.2,entry.1.length)
    else best) (none,0)).1

def resolveAdapter (modulePath : String) : Option String :=
  hypervisorAdapters.find? fun start => covers start modulePath

structure Alias where
  name : String
  asname : Option String := none
  deriving DecidableEq

/-- What the walk distinguishes among the nodes of a syntax tree. -/
inductive Node
  | importNames (lineno : ℕ) (names : List Alias)
  | importFrom (lineno : ℕ) (module : Option String) (level : ℕ) (names : List Alias)
  | other
  deriving DecidableEq

/-- A module on disk below the root of the project. The tree is what Python makes of it;
`_parse` reads every file as UTF-8 and gives nothing where that fails. Files that declare another
source encoding, which a parser of text ignores, are left out. -/
structure SourceFile where
  directories : List String
  stem : String
  tree : RoseTree Node
  readable : Bool

namespace SourceFile

def fileToModule (file : SourceFile) : String :=
  ".".intercalate
    (if file.stem = "__init__" then file.directories else file.directories ++ [file.stem])

def relPath (file : SourceFile) : String :=
  "/".intercalate (file.directories ++ [file.stem ++ ".py"])

def parse (file : SourceFile) : Option (RoseTree Node) :=
  if file.readable then some file.tree else none

end SourceFile

structure ImportInfo where
  module : String
  line : ℕ
  statement : String
  deriving DecidableEq

def Node.imports : Node → List ImportInfo
  | .importNames lineno names =>
    (names.filter fun a => startsWith a.name "src.").map fun a =>
      ⟨a.name,lineno,"import " ++ a.name⟩
  | .importFrom lineno module _ _ => match module with
    | none => []
    | some module =>
      if module ≠ "" ∧ startsWith module "src." then
        [⟨module,lineno,"from " ++ module ++ " import ..."⟩]
      else []
  | .other => []

def extractImports (file : SourceFile) : List ImportInfo :=
  match file.parse with
  | none => []
  | some tree => tree.walk.flatMap Node.imports

inductive Severity
  | error | warning
  deriving DecidableEq

inductive Kind
  | dependency | readonly
  deriving DecidableEq

structure Violation where
  file : String
  line : ℕ
  severity : Severity
  reason : String
  statement : String
  kind : Kind := .dependency
  fromLayer : Option Layer := none
  toLayer : Option Layer := none
  fromModule : String := ""
  toModule : String := ""
  deriving DecidableEq

/-- One turn of the loop of `check_imports`. -/
def judge (file : SourceFile) (fromLayer : Layer) (imp : ImportInfo) : Option Violation :=
  let fromAdapter := resolveAdapter file.fileToModule
  match resolveLayer imp.module with
  | none => none
  | some toLayer =>
    let toAdapter := resolveAdapter imp.module
    let violation (reason : String) : Violation := {
      file := file.relPath
      line := imp.line
      severity := .error
      reason := reason
      statement := imp.statement
      kind := .dependency
      fromLayer := some fromLayer
      toLayer := some toLayer
      fromModule := file.fileToModule
      toModule := imp.module }
    if (fromLayer = .application ∨ fromLayer = .orchestration) ∧ toAdapter.isSome then
      some (violation (fromLayer.text ++ "이 하이퍼바이저 어댑터(" ++ toAdapter.getD "" ++
        ")에 직접 결합. src.domain.ports의 커넥터 Protocol을 통해 주입받을 것"))
    else if fromAdapter.isSome ∧ toAdapter.isSome ∧ fromAdapter ≠ toAdapter then
      some (violation ("하이퍼바이저 어댑터 교차 참조 (" ++ fromAdapter.getD "" ++ " → " ++
        toAdapter.getD "" ++ "). 공통 로직은 src.domain 또는 src.utils로 추출할 것"))
    else if toLayer ∉ allowedDeps fromLayer ∧ toLayer ≠ fromLayer then
      some (violation (fromLayer.text ++ " → " ++ toLayer.text ++
        " 의존은 Clean Architecture에서 금지"))
    else none

def checkImports (file : SourceFile) : List Violation :=
  match resolveLayer file.fileToModule with
  | none => []
  | some fromLayer => (extractImports file).filterMap (judge file fromLayer)

/-- The rules, apart from how an import is written: no use case next to an adapter, no adapter
next to another one, and no layer next to one it must not depend on. -/
def Forbidden (fromModule toModule : String) : Prop :=
  ∃ fromLayer ∈ resolveLayer fromModule, ∃ toLayer ∈ resolveLayer toModule,
    ((fromLayer = .application ∨ fromLayer = .orchestration) ∧
      (resolveAdapter toModule).isSome) ∨
    ((resolveAdapter fromModule).isSome ∧ (resolveAdapter toModule).isSome ∧
      resolveAdapter fromModule ≠ resolveAdapter toModule) ∨
    (toLayer ∉ allowedDeps fromLayer ∧ toLayer ≠ fromLayer)

/-- What a name of a module holds. -/
inductive Value
  | module (name : String)
  | other
  deriving DecidableEq

/-- The modules of a project as Python finds them, the names that each one defines, and those
that `*` takes from it. -/
structure Project where
  isModule : String → Bool
  defined : String → String → Option Value
  exported : String → List String

/-- The module after `from`, its dots counted from the package of the file. -/
def resolveName (package : List String) (module : Option String) (level : ℕ) : Option String :=
  if level = 0 then module
  else if package.length < level then none
  else
    let base := ".".intercalate (package.take (package.length-(level-1)))
    some (match module with
      | none => base
      | some name => base ++ "." ++ name)

namespace Project

/-- A name that the module does not define is looked up among its submodules. -/
def held (project : Project) (module name : String) : List String :=
  match project.defined module name with
  | some (.module held) => [held]
  | some .other => []
  | none =>
    let submodule := module ++ "." ++ name
    if project.isModule submodule then [submodule] else []

/-- The modules that a statement names or binds. -/
def imported (project : Project) (package : List String) : Node → List String
  | .importNames _ names => (names.map Alias.name).filter project.isModule
  | .importFrom _ module level names => match resolveName package module level with
    | none => []
    | some module =>
      if project.isModule module then
        module::names.flatMap fun a =>
          (if a.name = "*" then project.exported module else [a.name]).flatMap
            (project.held module)
      else []
  | .other => []

end Project

namespace Node

def lineno : Node → Option ℕ
  | .importNames lineno _ => some lineno
  | .importFrom lineno _ _ _ => some lineno
  | .other => none

/-- The modules that a statement writes out, dots before them left aside. -/
def written : Node → List String
  | .importNames _ names => names.map Alias.name
  | .importFrom _ module _ _ => module.toList
  | .other => []

end Node

/-- A violation is reported for the statement. -/
def Reported (file : SourceFile) (statement : Node) : Prop :=
  ∃ v ∈ checkImports file, some v.line = statement.lineno ∧ v.toModule ∈ statement.written

/-- The statement itself writes out a forbidden module. An `import` always writes out what it
gives. -/
def Spelled (fromModule : String) : Node → Prop
  | .importNames _ _ => True
  | .importFrom _ module _ _ => ∃ toModule ∈ module, Forbidden fromModule toModule
  | .other => False

section
variable {file : SourceFile} {statement : Node} {fromModule toModule : String}

theorem startsWith_trans {a b c : String} (hab : startsWith b a = true)
    (hbc : startsWith c b = true) : startsWith c a = true := by
  unfold startsWith at *
  rw [List.isPrefixOf_iff_prefix] at *
  exact hab.trans hbc

theorem startsWith_append (a b : String) : startsWith (a ++ b) a = true := by
  unfold startsWith
  rw [List.isPrefixOf_iff_prefix,String.toList_append]
  exact List.prefix_append _ _

theorem resolveLayer_covers {modulePath : String} {layer : Layer}
    (h : resolveLayer modulePath = some layer) :
    ∃ entry ∈ moduleLayerMap, covers entry.1 modulePath = true := by
  have hfold : ∀ layer, (moduleLayerMap.foldl (fun (best : Option Layer × ℕ) entry =>
      if covers entry.1 modulePath && entry.1.length > best.2 then (some entry.2,entry.1.length)
      else best) (none,0)).1 = some layer →
        ∃ entry ∈ moduleLayerMap, covers entry.1 modulePath = true := by
    apply List.foldlRecOn (motive := fun best : Option Layer × ℕ => ∀ layer, best.1 = some layer →
      ∃ entry ∈ moduleLayerMap, covers entry.1 modulePath = true)
    · simp
    · intro best hbest entry hentry layer hsome
      split_ifs at hsome with hlonger
      · exact ⟨entry,hentry,(Bool.and_eq_true_iff.mp hlonger).1⟩
      · exact hbest layer hsome
  exact hfold layer h

theorem startsWith_of_resolveLayer {modulePath : String} {layer : Layer}
    (h : resolveLayer modulePath = some layer) : startsWith modulePath "src." = true := by
  have hsrc : ∀ entry ∈ moduleLayerMap, startsWith entry.1 "src." = true := by decide
  obtain ⟨entry,hentry,hcovers⟩ := resolveLayer_covers h
  rw [covers,Bool.or_eq_true,decide_eq_true_eq] at hcovers
  rcases hcovers with rfl | hbelow
  · exact hsrc entry hentry
  · exact startsWith_trans (hsrc entry hentry)
      (startsWith_trans (startsWith_append entry.1 ".") hbelow)

theorem Forbidden.startsWith (h : Forbidden fromModule toModule) :
    startsWith toModule "src." = true := by
  obtain ⟨_,_,toLayer,hto,_⟩ := h
  exact startsWith_of_resolveLayer hto

theorem judge_isSome {fromLayer : Layer} (h : resolveLayer file.fileToModule = some fromLayer)
    (imp : ImportInfo) :
    (judge file fromLayer imp).isSome ↔ Forbidden file.fileToModule imp.module := by
  unfold judge Forbidden
  rw [h]
  cases hto : resolveLayer imp.module with
  | none => simp
  | some toLayer =>
    simp only [Option.mem_some_iff,exists_eq_left']
    split_ifs with hcase hcross hlayer
    · simp [hcase]
    · simp [hcross]
    · simp [hlayer]
    · simp only [Option.isSome_none,Bool.false_eq_true,false_iff]
      rintro (h | h | h)
      · exact hcase h
      · exact hcross h
      · exact hlayer h

theorem judge_some {fromLayer : Layer} {imp : ImportInfo} {v : Violation}
    (h : judge file fromLayer imp = some v) : v.line = imp.line ∧ v.toModule = imp.module := by
  unfold judge at h
  cases hto : resolveLayer imp.module with
  | none => simp [hto] at h
  | some toLayer =>
    simp only [hto] at h
    split_ifs at h <;> cases h <;> exact ⟨rfl,rfl⟩

theorem mem_extractImports {imp : ImportInfo} : imp ∈ extractImports file ↔
    file.readable = true ∧ ∃ statement, RoseTree.Within statement file.tree ∧
      imp ∈ statement.imports := by
  unfold extractImports SourceFile.parse
  cases hreadable : file.readable
  · simp
  · simp [RoseTree.mem_walk]

/-- The check reports the written modules that the rules forbid. -/
theorem exists_violation_iff {line : ℕ} :
    (∃ v ∈ checkImports file, v.line = line ∧ v.toModule = toModule) ↔
      Forbidden file.fileToModule toModule ∧
        ∃ imp ∈ extractImports file, imp.line = line ∧ imp.module = toModule := by
  unfold checkImports
  cases hfrom : resolveLayer file.fileToModule with
  | none => simp [Forbidden,hfrom]
  | some fromLayer =>
    constructor
    · rintro ⟨v,hv,rfl,rfl⟩
      obtain ⟨imp,himp,hjudge⟩ := List.mem_filterMap.mp hv
      obtain ⟨hline,hmodule⟩ := judge_some hjudge
      rw [hline,hmodule]
      exact ⟨(judge_isSome hfrom imp).mp (by rw [hjudge]; rfl),imp,himp,rfl,rfl⟩
    · rintro ⟨hforbidden,imp,himp,rfl,rfl⟩
      obtain ⟨v,hv⟩ := Option.isSome_iff_exists.mp ((judge_isSome hfrom imp).mpr hforbidden)
      exact ⟨v,List.mem_filterMap.mpr ⟨imp,himp,hv⟩,judge_some hv⟩

theorem exists_imports {line : ℕ} (hline : statement.lineno = some line)
    (hwritten : toModule ∈ statement.written) (hsrc : startsWith toModule "src." = true) :
    ∃ imp ∈ statement.imports, imp.line = line ∧ imp.module = toModule := by
  cases statement with
  | importNames lineno names =>
    obtain rfl := Option.some.inj hline
    obtain ⟨a,ha,rfl⟩ := List.mem_map.mp hwritten
    exact ⟨_,List.mem_map_of_mem (List.mem_filter.mpr ⟨ha,hsrc⟩),rfl,rfl⟩
  | importFrom lineno module level names =>
    obtain rfl := Option.some.inj hline
    obtain rfl : module = some toModule := Option.mem_toList.mp hwritten
    have hnonempty : toModule ≠ "" := by
      rintro rfl
      exact absurd hsrc (by decide)
    refine ⟨⟨toModule,lineno,"from " ++ toModule ++ " import ..."⟩,?_,rfl,rfl⟩
    simp only [Node.imports]
    rw [if_pos ⟨hnonempty,hsrc⟩]
    exact List.mem_singleton_self _
  | other => exact absurd hwritten List.not_mem_nil

theorem lineno_of_written (h : toModule ∈ statement.written) :
    ∃ line, statement.lineno = some line := by
  cases statement with
  | importNames lineno => exact ⟨lineno,rfl⟩
  | importFrom lineno => exact ⟨lineno,rfl⟩
  | other => exact absurd h List.not_mem_nil

theorem reported_iff_written (hin : RoseTree.Within statement file.tree) :
    Reported file statement ↔ file.readable = true ∧
      ∃ toModule ∈ statement.written, Forbidden file.fileToModule toModule := by
  constructor
  · rintro ⟨v,hv,_,hwritten⟩
    obtain ⟨hforbidden,imp,himp,_⟩ := exists_violation_iff.mp ⟨v,hv,rfl,rfl⟩
    exact ⟨(mem_extractImports.mp himp).1,v.toModule,hwritten,hforbidden⟩
  · rintro ⟨hreadable,toModule,hwritten,hforbidden⟩
    obtain ⟨line,hline⟩ := lineno_of_written hwritten
    obtain ⟨imp,himp,himpLine,himpModule⟩ :=
      exists_imports hline hwritten hforbidden.startsWith
    have hextracted := mem_extractImports.mpr ⟨hreadable,statement,hin,himp⟩
    obtain ⟨v,hv,hvLine,rfl⟩ :=
      exists_violation_iff.mpr ⟨hforbidden,imp,hextracted,himpLine,himpModule⟩
    exact ⟨v,hv,by rw [hline,hvLine],hwritten⟩

theorem spelled_iff_written {project : Project} {package : List String}
    (himported : toModule ∈ project.imported package statement)
    (hforbidden : Forbidden fromModule toModule) :
    Spelled fromModule statement ↔ ∃ m ∈ statement.written, Forbidden fromModule m := by
  cases statement with
  | importNames lineno names =>
    exact iff_of_true trivial ⟨toModule,(List.mem_filter.mp himported).1,hforbidden⟩
  | importFrom lineno module level names => simp [Spelled,Node.written]
  | other => exact absurd himported List.not_mem_nil

/-- A statement that gives a forbidden module is reported exactly when the file can be read and
the statement is an `import`, or a `from` whose own module is forbidden as it is written. -/
theorem reported_iff_spelled (project : Project) (file : SourceFile) (statement : Node)
    (hin : RoseTree.Within statement file.tree) (toModule : String)
    (himported : toModule ∈ project.imported file.directories statement)
    (hforbidden : Forbidden file.fileToModule toModule) :
    Reported file statement ↔ file.readable = true ∧ Spelled file.fileToModule statement := by
  rw [reported_iff_written hin,spelled_iff_written himported hforbidden]

end

def oneAdapter : Project where
  isModule := fun name => name ∈ ["src","src.application","src.application.collect",
    "src.infrastructure","src.infrastructure.vcenter","src.infrastructure.vcenter.client"]
  defined := fun _ _ => none
  exported := fun _ => []

def importClient : Node :=
  .importNames 3 [⟨"src.infrastructure.vcenter.client",some "client"⟩]

/-- `from src.infrastructure import vcenter` -/
def fromPackage : Node := .importFrom 4 (some "src.infrastructure") 0 [⟨"vcenter",none⟩]

/-- `from ..infrastructure.vcenter import client` -/
def fromRelative : Node := .importFrom 5 (some "infrastructure.vcenter") 2 [⟨"client",none⟩]

def collectFile (statements : List Node) : SourceFile where
  directories := ["src","application"]
  stem := "collect"
  tree := .node .other [.node .other (statements.map fun statement => .node statement [])]
  readable := true

theorem forbidden_of_collect {statements : List Node} {toModule : String}
    (hto : resolveLayer toModule = some .infrastructure)
    (hadapter : (resolveAdapter toModule).isSome) :
    Forbidden (collectFile statements).fileToModule toModule := by
  have hmodule : (collectFile statements).fileToModule = "src.application.collect" := rfl
  rw [hmodule]
  exact ⟨.application,by decide,.infrastructure,hto,.inl ⟨.inl rfl,hadapter⟩⟩

theorem reported_iff_spelled_client : Reported (collectFile [importClient]) importClient := by
  refine (reported_iff_spelled oneAdapter (collectFile [importClient]) importClient ?_
    "src.infrastructure.vcenter.client" (by decide) ?_).mpr ⟨rfl,trivial⟩
  · exact .inside List.mem_cons_self (.inside List.mem_cons_self (.here _))
  · exact forbidden_of_collect (by decide) (by decide)

/-- Both statements give a use case an adapter, and the check reports nothing. -/
theorem adapter_imports_missed :
    (RoseTree.Within fromPackage (collectFile [fromPackage,fromRelative]).tree ∧
      "src.infrastructure.vcenter" ∈ oneAdapter.imported ["src","application"] fromPackage ∧
      Forbidden (collectFile [fromPackage,fromRelative]).fileToModule
        "src.infrastructure.vcenter" ∧
      ¬ Reported (collectFile [fromPackage,fromRelative]) fromPackage) ∧
    RoseTree.Within fromRelative (collectFile [fromPackage,fromRelative]).tree ∧
      "src.infrastructure.vcenter.client" ∈
        oneAdapter.imported ["src","application"] fromRelative ∧
      Forbidden (collectFile [fromPackage,fromRelative]).fileToModule
        "src.infrastructure.vcenter.client" ∧
      ¬ Reported (collectFile [fromPackage,fromRelative]) fromRelative := by
  have hnone : checkImports (collectFile [fromPackage,fromRelative]) = [] := by decide
  have hmissed : ∀ statement,
      ¬ Reported (collectFile [fromPackage,fromRelative]) statement := by
    rintro statement ⟨v,hv,_⟩
    rw [hnone] at hv
    exact List.not_mem_nil hv
  refine ⟨⟨?_,by decide,?_,hmissed _⟩,?_,by decide,?_,hmissed _⟩
  · exact .inside List.mem_cons_self (.inside List.mem_cons_self (.here _))
  · exact forbidden_of_collect (by decide) (by decide)
  · exact .inside List.mem_cons_self
      (.inside (List.mem_cons_of_mem _ List.mem_cons_self) (.here _))
  · exact forbidden_of_collect (by decide) (by decide)

end ArchCheck
end WzonePortal
