import WzonePortal.ArchProject

/-! The numbers that the report prints: how they follow from the violations, and what the matrix
of the layers shows of them. -/
namespace WzonePortal
namespace ArchCheck

def layersOrder : List Layer :=
  [.domain,.config,.utils,.infrastructure,.application,.orchestration,.interface,.entry]

/-- The counts by layer, zero where the dictionary has no entry. -/
def collectLayerDeps (files : List ProjectFile) : Layer × Layer → ℕ :=
  files.foldl (fun deps file => match resolveLayer file.module with
    | none => deps
    | some fromLayer => (extractImports file.source).foldl (fun deps imp =>
        match resolveLayer imp.module with
        | none => deps
        | some toLayer =>
          if toLayer = fromLayer then deps
          else Function.update deps (fromLayer,toLayer) (deps (fromLayer,toLayer)+1)) deps)
    fun _ => 0

def redCells : List (Layer × Layer) :=
  layersOrder.flatMap fun fromLayer =>
    (layersOrder.filter fun toLayer => toLayer ∉ allowedDeps fromLayer).map fun toLayer =>
      (fromLayer,toLayer)

def redTotal (files : List ProjectFile) : ℕ := (redCells.map (collectLayerDeps files)).sum

/-- A violation of the rule between layers, not of the rules about adapters. -/
def Violation.breaksLayers (v : Violation) : Bool :=
  match v.fromLayer,v.toLayer with
  | some fromLayer,some toLayer => toLayer ∉ allowedDeps fromLayer && toLayer ≠ fromLayer
  | _,_ => false

def layerDep (fromLayer : Layer) (imp : ImportInfo) : Option (Layer × Layer) :=
  match resolveLayer imp.module with
  | none => none
  | some toLayer => if toLayer = fromLayer then none else some (fromLayer,toLayer)

def ProjectFile.layerDeps (file : ProjectFile) : List (Layer × Layer) :=
  match resolveLayer file.module with
  | none => []
  | some fromLayer => (extractImports file.source).filterMap (layerDep fromLayer)

section
variable {file : ProjectFile} {files : List ProjectFile}

theorem foldl_layerDep {fromLayer : Layer} {imps : List ImportInfo} {deps : Layer × Layer → ℕ}
    (k : Layer × Layer) : imps.foldl (fun deps imp => match resolveLayer imp.module with
      | none => deps
      | some toLayer =>
        if toLayer = fromLayer then deps
        else Function.update deps (fromLayer,toLayer) (deps (fromLayer,toLayer)+1)) deps k =
      deps k + (imps.filterMap (layerDep fromLayer)).count k := by
  induction imps generalizing deps with
  | nil => rfl
  | cons imp imps ih =>
    rw [List.foldl_cons,ih,List.filterMap_cons,layerDep]
    cases resolveLayer imp.module with
    | none => rfl
    | some toLayer =>
      dsimp only
      split_ifs with hsame
      · rfl
      · rw [List.count_cons,Function.update_apply]
        by_cases hk : k = (fromLayer,toLayer)
        · subst hk
          simp only [if_true,beq_self_eq_true]
          omega
        · rw [if_neg hk,if_neg fun h => hk (eq_of_beq h).symm]
          rfl

theorem collectLayerDeps_eq (k : Layer × Layer) :
    collectLayerDeps files k = (files.flatMap ProjectFile.layerDeps).count k := by
  have hfold : ∀ deps : Layer × Layer → ℕ, (files.foldl (fun deps file =>
      match resolveLayer file.module with
      | none => deps
      | some fromLayer => (extractImports file.source).foldl (fun deps imp =>
          match resolveLayer imp.module with
          | none => deps
          | some toLayer =>
            if toLayer = fromLayer then deps
            else Function.update deps (fromLayer,toLayer) (deps (fromLayer,toLayer)+1)) deps)
      deps) k = deps k + (files.flatMap ProjectFile.layerDeps).count k := by
    induction files with
    | nil => exact fun _ => rfl
    | cons file files ih =>
      intro deps
      rw [List.foldl_cons,ih,List.flatMap_cons,List.count_append,ProjectFile.layerDeps]
      cases resolveLayer file.module with
      | none => simp
      | some fromLayer =>
        dsimp only
        rw [foldl_layerDep]
        omega
  rw [collectLayerDeps,hfold,Nat.zero_add]

theorem sum_count_eq_countP {κ : Type} [BEq κ] [LawfulBEq κ] {cells : List κ} (h : cells.Nodup)
    (ks : List κ) : (cells.map fun k => ks.count k).sum = ks.countP (· ∈ cells) := by
  induction ks with
  | nil => simp
  | cons a ks ih =>
    have hcount : ∀ cells : List κ,
        (cells.map fun k => if a == k then 1 else 0).sum = cells.count a := by
      intro cells
      induction cells with
      | nil => rfl
      | cons k cells ihc =>
        have hsymm : (a == k) = (k == a) := Bool.eq_iff_iff.mpr (by
          rw [beq_iff_eq,beq_iff_eq,eq_comm])
        rw [List.map_cons,List.sum_cons,ihc,List.count_cons,Nat.add_comm,hsymm]
    have hone : cells.count a = if a ∈ cells then 1 else 0 := by
      split_ifs with hmem
      · exact List.count_eq_one_of_mem h hmem
      · exact List.count_eq_zero.mpr hmem
    simp only [List.count_cons,List.countP_cons,List.sum_map_add,ih,hcount,hone,decide_eq_true_eq]

theorem mem_redCells {k : Layer × Layer} : k ∈ redCells ↔ k.2 ∉ allowedDeps k.1 := by
  obtain ⟨fromLayer,toLayer⟩ := k
  revert fromLayer toLayer
  have hall : ∀ layer : Layer, layer ∈ layersOrder := by rintro (_ | _) <;> decide
  intro fromLayer toLayer
  simp [redCells,hall]

theorem resolveLayer_mem {modulePath : String} {layer : Layer}
    (h : resolveLayer modulePath = some layer) :
    ∃ entry ∈ moduleLayerMap, covers entry.1 modulePath = true ∧ entry.2 = layer := by
  have hfold : ∀ layer, (moduleLayerMap.foldl (fun (best : Option Layer × ℕ) entry =>
      if covers entry.1 modulePath && entry.1.length > best.2 then (some entry.2,entry.1.length)
      else best) (none,0)).1 = some layer →
        ∃ entry ∈ moduleLayerMap, covers entry.1 modulePath = true ∧ entry.2 = layer := by
    apply List.foldlRecOn (motive := fun best : Option Layer × ℕ => ∀ layer, best.1 = some layer →
      ∃ entry ∈ moduleLayerMap, covers entry.1 modulePath = true ∧ entry.2 = layer)
    · simp
    · intro best hbest entry hentry layer hsome
      split_ifs at hsome with hlonger
      · exact ⟨entry,hentry,(Bool.and_eq_true_iff.mp hlonger).1,Option.some.inj hsome⟩
      · exact hbest layer hsome
  exact hfold layer h

theorem prefix_of_covers {start modulePath : String} (h : covers start modulePath = true) :
    start.toList <+: modulePath.toList := by
  rw [covers,Bool.or_eq_true,decide_eq_true_eq] at h
  rcases h with rfl | h
  · exact List.prefix_rfl
  · have hstart := startsWith_trans (startsWith_append start ".") h
    exact List.isPrefixOf_iff_prefix.mp hstart

theorem layer_of_adapter {modulePath : String} {layer : Layer}
    (hadapter : (resolveAdapter modulePath).isSome = true)
    (h : resolveLayer modulePath = some layer) : layer = .infrastructure := by
  have hcomparable : ∀ adapter ∈ hypervisorAdapters, ∀ entry ∈ moduleLayerMap,
      entry.1.toList <+: adapter.toList ∨ adapter.toList <+: entry.1.toList →
        entry.2 = .infrastructure := by decide
  obtain ⟨adapter,hfind⟩ := Option.isSome_iff_exists.mp hadapter
  have hadapterCovers : covers adapter modulePath = true :=
    List.find?_some (p:=fun start => covers start modulePath) hfind
  obtain ⟨entry,hentry,hcovers,rfl⟩ := resolveLayer_mem h
  refine hcomparable adapter (List.mem_of_find?_eq_some hfind) entry hentry ?_
  exact List.prefix_or_prefix_of_prefix (prefix_of_covers hcovers)
    (prefix_of_covers hadapterCovers)

theorem layers_of_judge {fromLayer : Layer} {imp : ImportInfo} {v : Violation}
    (h : judge file.source fromLayer imp = some v) :
    ∃ toLayer, resolveLayer imp.module = some toLayer ∧ v.fromLayer = some fromLayer ∧
      v.toLayer = some toLayer ∧ v.kind = .dependency := by
  unfold judge at h
  cases hto : resolveLayer imp.module with
  | none => simp [hto] at h
  | some toLayer =>
    simp only [hto] at h
    split_ifs at h <;> cases h <;> exact ⟨toLayer,rfl,rfl,rfl,rfl⟩

/-- An import is counted in a red cell exactly when it breaks the rule between layers. -/
theorem breaksLayers_judge {fromLayer : Layer}
    (h : resolveLayer file.module = some fromLayer) (imp : ImportInfo) :
    (judge file.source fromLayer imp).any Violation.breaksLayers =
      (layerDep fromLayer imp).any fun k => decide (k ∈ redCells) := by
  have hsource : resolveLayer file.source.fileToModule = some fromLayer := h
  have hjudge := judge_isSome hsource imp
  unfold layerDep
  cases hv : judge file.source fromLayer imp with
  | some v =>
    obtain ⟨toLayer,hto,hfrom,hlayer,_⟩ := layers_of_judge hv
    simp only [hto,Option.any_some,Violation.breaksLayers,hfrom,hlayer]
    by_cases hsame : toLayer = fromLayer
    · simp [hsame]
    · simp [hsame,mem_redCells]
  | none =>
    cases hto : resolveLayer imp.module with
    | none => rfl
    | some toLayer =>
      dsimp only
      by_cases hsame : toLayer = fromLayer
      · simp [hsame]
      · rw [if_neg hsame]
        simp only [Option.any_none,Option.any_some,mem_redCells]
        rw [hv,Option.isSome_none] at hjudge
        by_contra hred
        have hmissing : toLayer ∉ allowedDeps fromLayer := by simpa using hred
        exact absurd (hjudge.mpr ⟨fromLayer,h,toLayer,hto,.inr (.inr ⟨hmissing,hsame⟩)⟩) (by simp)

theorem countP_filterMap_congr {α β γ : Type} {f : α → Option β} {g : α → Option γ}
    {φ : β → Bool} {ψ : γ → Bool} (h : ∀ a, (f a).any φ = (g a).any ψ) (as : List α) :
    (as.filterMap f).countP φ = (as.filterMap g).countP ψ := by
  induction as with
  | nil => rfl
  | cons a as ih =>
    have ha := h a
    rw [List.filterMap_cons,List.filterMap_cons]
    cases hf : f a <;> cases hg : g a <;> rw [hf,hg] at ha <;>
      simp only [Option.any_none,Option.any_some] at ha
    · exact ih
    · rw [List.countP_cons_of_neg (by simp [← ha])]
      exact ih
    · rw [List.countP_cons_of_neg (by simp [ha])]
      exact ih
    · rw [List.countP_cons,List.countP_cons,ih,ha]

theorem countP_layerDeps (file : ProjectFile) :
    file.layerDeps.countP (fun k => decide (k ∈ redCells)) =
      (checkImports file.source).countP Violation.breaksLayers := by
  unfold ProjectFile.layerDeps checkImports
  rw [show file.source.fileToModule = file.module from rfl]
  cases h : resolveLayer file.module with
  | none => rfl
  | some fromLayer => exact (countP_filterMap_congr (breaksLayers_judge h) _).symm

/-- The rules about adapters, which hold inside the layers that may use the infrastructure. -/
def AdapterRule (fromModule toModule : String) : Prop :=
  (resolveAdapter toModule).isSome = true ∧
    ((∃ fromLayer ∈ resolveLayer fromModule,
        fromLayer = .application ∨ fromLayer = .orchestration) ∨
      ((resolveAdapter fromModule).isSome = true ∧
        resolveAdapter fromModule ≠ resolveAdapter toModule))

/-- A violation of a dependency is of the rule between layers or of one about adapters, and the
matrix shows the former only. -/
theorem breaksLayers_iff {v : Violation} (hv : v ∈ checkImports file.source) :
    v.breaksLayers = true ↔ ¬ AdapterRule file.module v.toModule := by
  unfold checkImports at hv
  rw [show file.source.fileToModule = file.module from rfl] at hv
  cases hfrom : resolveLayer file.module with
  | none => simp [hfrom] at hv
  | some fromLayer =>
    rw [hfrom] at hv
    obtain ⟨imp,_,hjudge⟩ := List.mem_filterMap.mp hv
    obtain ⟨toLayer,hto,hvfrom,hvto,_⟩ := layers_of_judge hjudge
    obtain ⟨_,hmodule⟩ := judge_some hjudge
    have hsource : resolveLayer file.source.fileToModule = some fromLayer := hfrom
    have hforbidden := (judge_isSome hsource imp).mp (by rw [hjudge]; rfl)
    rw [hmodule]
    simp only [Violation.breaksLayers,hvfrom,hvto,Bool.and_eq_true,decide_eq_true_eq]
    constructor
    · rintro ⟨hmissing,hother⟩ ⟨hadapter,hrule⟩
      obtain rfl := layer_of_adapter hadapter hto
      rcases hrule with ⟨layer,hlayer,hcase⟩ | ⟨hown,_⟩
      · obtain rfl : fromLayer = layer := Option.some.inj (hfrom.symm.trans hlayer)
        rcases hcase with rfl | rfl
        · exact hmissing (by decide)
        · exact hmissing (by decide)
      · exact hother (layer_of_adapter hown hfrom).symm
    · intro hnone
      obtain ⟨layer,hlayer,target,htarget,hrules⟩ := hforbidden
      obtain rfl : fromLayer = layer := Option.some.inj (hfrom.symm.trans hlayer)
      obtain rfl : toLayer = target := Option.some.inj (hto.symm.trans htarget)
      rcases hrules with ⟨hcase,hadapter⟩ | ⟨hown,hadapter,hcross⟩ | hlayers
      · exact absurd ⟨hadapter,.inl ⟨fromLayer,hfrom,hcase⟩⟩ hnone
      · exact absurd ⟨hadapter,.inr ⟨hown,hcross⟩⟩ hnone
      · exact hlayers

theorem kind_of_mem {v : Violation} (hv : v ∈ checkImports file.source) :
    v.kind = .dependency := by
  unfold checkImports at hv
  split at hv
  · cases hv
  · obtain ⟨imp,_,hjudge⟩ := List.mem_filterMap.mp hv
    obtain ⟨_,_,_,_,hkind⟩ := layers_of_judge hjudge
    exact hkind

theorem readonly_of_mem {v : Violation} (hv : v ∈ checkReadonlyScope file) :
    v.kind = .readonly ∧ v.breaksLayers = false := by
  unfold checkReadonlyScope at hv
  split_ifs at hv
  · obtain ⟨method,_,hjudge⟩ := List.mem_filterMap.mp hv
    unfold judgeMethod at hjudge
    split_ifs at hjudge
    split at hjudge <;> cases hjudge
    exact ⟨rfl,rfl⟩
  · cases hv

theorem countP_violations {φ : Violation → Bool}
    (hφ : ∀ v ∈ checkReadonlyScope file, φ v = false) : file.violations.countP φ =
      if file.isChecked then (checkImports file.source).countP φ else 0 := by
  rw [ProjectFile.violations,List.countP_append,
    List.countP_eq_zero.mpr fun v hv => by simp [hφ v hv],Nat.zero_add]
  by_cases hinit : file.stem = "__init__"
  · simp [ProjectFile.isChecked,hinit]
  · simp [ProjectFile.isChecked,hinit]

theorem foldl_allowedImports {result : CheckResult} :
    (files.foldl checkFile result).allowedImports + ((files.flatMap ProjectFile.violations).countP
        fun v => v.kind = .dependency) + result.totalImports =
      result.allowedImports + (files.foldl checkFile result).totalImports := by
  induction files generalizing result with
  | nil => simp
  | cons file files ih =>
    rw [List.foldl_cons,List.flatMap_cons,List.countP_append,
      countP_violations fun v hv => by simp [(readonly_of_mem hv).1]]
    have hrest := @ih (checkFile result file)
    by_cases hinit : file.stem = "__init__"
    · simp only [checkFile,ProjectFile.isChecked,hinit,if_true,ne_eq,not_true_eq_false,
        decide_false,Bool.false_eq_true,if_false] at hrest ⊢
      push_cast
      omega
    · have hall : (checkImports file.source).countP (fun v => v.kind = .dependency) =
          (checkImports file.source).length :=
        List.countP_eq_length.mpr fun v hv => by simp [kind_of_mem hv]
      simp only [checkFile,ProjectFile.isChecked,hinit,if_false,ne_eq,not_false_eq_true,
        decide_true,if_true,hall] at hrest ⊢
      push_cast at hrest ⊢
      omega

theorem countP_redCells :
    (files.flatMap ProjectFile.layerDeps).countP (fun k => decide (k ∈ redCells)) =
      (files.flatMap ProjectFile.violations).countP Violation.breaksLayers +
        ((files.filter fun file => !file.isChecked).flatMap fun file =>
          checkImports file.source).countP Violation.breaksLayers := by
  induction files with
  | nil => rfl
  | cons file files ih =>
    rw [List.flatMap_cons,List.countP_append,ih,countP_layerDeps,List.flatMap_cons,
      List.countP_append,countP_violations fun v hv => (readonly_of_mem hv).2,List.filter_cons]
    cases file.isChecked with
    | true =>
      simp only [if_true,Bool.not_true,Bool.false_eq_true,if_false]
      omega
    | false =>
      simp only [if_true,Bool.not_false,Bool.false_eq_true,if_false,List.flatMap_cons,
        List.countP_append]
      omega

/-- The numbers of the report belong together: every import of a checked file is allowed or has
one violation, and the red cells of the matrix count the violations except those of the rules
about adapters, and beside them what `__init__` files import. -/
theorem report_adds_up (files : List ProjectFile) :
    (checkProject (some files)).checkedFiles = files.countP ProjectFile.isChecked ∧
    (checkProject (some files)).totalImports = ((files.filter ProjectFile.isChecked).map
      fun file => (extractImports file.source).length).sum ∧
    (checkProject (some files)).allowedImports + ((checkProject (some files)).violations.countP
      fun v => v.kind = .dependency) = (checkProject (some files)).totalImports ∧
    redTotal files = (checkProject (some files)).violations.countP Violation.breaksLayers +
      ((files.filter fun file => !file.isChecked).flatMap fun file =>
        checkImports file.source).countP Violation.breaksLayers ∧
    ∀ file ∈ files, ∀ v ∈ checkImports file.source,
      (v.breaksLayers = true ↔ ¬ AdapterRule file.module v.toModule) := by
  have hviolations : (checkProject (some files)).violations =
      files.flatMap ProjectFile.violations := by
    rw [checkProject,foldl_violations,List.nil_append]
  refine ⟨?_,?_,?_,?_,fun file _ v hv => breaksLayers_iff hv⟩
  · rw [checkProject,foldl_checkedFiles]
    exact Nat.zero_add _
  · rw [checkProject,foldl_totalImports]
    exact Nat.zero_add _
  · have hallowed := @foldl_allowedImports files {}
    rw [hviolations]
    simpa [checkProject] using hallowed
  · have hcells : redTotal files =
        (redCells.map fun k => (files.flatMap ProjectFile.layerDeps).count k).sum := by
      rw [redTotal]
      exact congrArg List.sum (List.map_congr_left fun k _ => collectLayerDeps_eq k)
    have hnodup : redCells.Nodup := by decide
    rw [hviolations,hcells,sum_count_eq_countP hnodup,countP_redCells]

end
end ArchCheck
end WzonePortal
