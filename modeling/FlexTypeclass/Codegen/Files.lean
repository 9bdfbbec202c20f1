import FlexTypeclass.Lib.FileStore
import FlexTypeclass.Codegen.TemplateBinding
import FlexTypeclass.Codegen.InstanceParameters

namespace FlexTypeclass.Codegen
open Lib Spelling

structure FilePath where
  absolute : Bool
  components : List (List Char)
  deriving DecidableEq, Repr

namespace FilePath

def empty : FilePath := ⟨false,[]⟩

def currentDirectory : FilePath := ⟨false,[['.']]⟩

def ofString (path : String) : FilePath :=
  ⟨path.toList.head? = some '/',(path.toList.splitOn '/').filter (fun component => !component.isEmpty)⟩

def append (path : FilePath) (component : List Char) : FilePath :=
  if path = currentDirectory then ⟨false,[component]⟩
  else ⟨path.absolute,path.components ++ [component]⟩

def dirName (path : FilePath) : FilePath :=
  if path.absolute = false ∧ path.components.dropLast = [] then currentDirectory
  else ⟨path.absolute,path.components.dropLast⟩

def baseName (path : FilePath) : List Char := path.components.getLast?.getD []

theorem append_injective (path : FilePath) : Function.Injective path.append := by
  intro c d h
  unfold append at h
  split at h
  · simpa using h
  · simpa using h

theorem dirName_append (path : FilePath) (component : List Char) :
    (path.append component).dirName = if path = empty then currentDirectory else path := by
  obtain ⟨absolute,components⟩ := path
  unfold append
  split
  · rename_i hcurrent
    rw [hcurrent]
    simp [dirName,currentDirectory,empty]
  · cases absolute <;> simp [dirName,empty]

theorem baseName_append (path : FilePath) (component : List Char) :
    (path.append component).baseName = component := by
  unfold append
  split <;> simp [baseName]

end FilePath

-- Identifiers are spelled with the characters that `normalizeFileName` keeps.
structure Naming where
  identifierChar : Char → Bool
  dot : identifierChar '.' = false
  slash : identifierChar '/' = false

def normalizeFileName (naming : Naming) (fileName : List Char) : List Char :=
  fileName.map (fun c => if naming.identifierChar c then c else '_')

@[ext]
structure BaseName where
  chars : List Char
  dotless : '.' ∉ chars
  slashless : '/' ∉ chars

def Lexeme.chars : Lexeme → List Char
  | .word w => w.toList
  | .sym c => [c]
  | .blank => [' ']

def textChars (text : Text) : List Char := text.flatMap Lexeme.chars

structure AnnotatedRecord (naming : Naming) where
  scope : List String
  decl : RecordDecl
  identifier : ∀ c ∈ decl.name.toList, naming.identifierChar c = true

section Names

variable {naming : Naming}

theorem normalizeFileName_avoids {c : Char} (hc : naming.identifierChar c = false) (hne : c ≠ '_')
    (fileName : List Char) : c ∉ normalizeFileName naming fileName := by
  intro h
  obtain ⟨d,-,hd⟩ := List.mem_map.mp h
  split at hd
  · rename_i hkeep
    rw [hd,hc] at hkeep
    cases hkeep
  · exact hne hd.symm

theorem AnnotatedRecord.avoids (record : AnnotatedRecord naming) {c : Char}
    (hc : naming.identifierChar c = false) : c ∉ record.decl.name.toList := by
  intro h
  rw [record.identifier c h] at hc
  cases hc

def fileTargetName (record : AnnotatedRecord naming) : BaseName where
  chars := normalizeFileName naming
    (if record.decl.name.isEmpty then textChars (fullBaseType (record.decl.bases.map BaseClass.type))
    else record.decl.name.toList)
  dotless := normalizeFileName_avoids naming.dot (by decide) _
  slashless := normalizeFileName_avoids naming.slash (by decide) _

def nodeName (record : AnnotatedRecord naming) : BaseName where
  chars := record.decl.name.toList
  dotless := record.avoids naming.dot
  slashless := record.avoids naming.slash

end Names

inductive Invocation (naming : Naming) where
  | typeclass (args : List Arg) (record : AnnotatedRecord naming)
  | typeclass_instance (record : AnnotatedRecord naming) (tp : List TemplateParameter)

inductive Output where
  | typeclass (name : BaseName) (file : GeneratedTypeclass)
  | typeclass_instance (name : BaseName) (implTypeclassName : Text) (file : GeneratedInstance)

section Generate

variable {naming : Naming}

def typeclassOutput (args : List Arg) (record : AnnotatedRecord naming) : Except Stop Output :=
  match typeclass args record.decl with
  | some file => .ok (.typeclass (fileTargetName record) file)
  | none => .error .check

def instanceOutput (record : AnnotatedRecord naming) (targets : InstanceTargets) : Except Stop Output :=
  match (targets.typeclassArgQualType.bind QualType.asCXXRecordDecl).bind typeclass_instance with
  | some file => .ok (.typeclass_instance (nodeName record) targets.targetName file)
  | none => .error .check

def Invocation.generate : Invocation naming → Except Stop Output
  | .typeclass args record => typeclassOutput args record
  | .typeclass_instance record tp => do
    let targets ← instanceTargets tp
    instanceOutput record targets

theorem typeclassOutput_ok {args : List Arg} {record : AnnotatedRecord naming} {output : Output} :
    typeclassOutput args record = .ok output ↔
      ∃ file, typeclass args record.decl = some file ∧ output = .typeclass (fileTargetName record) file := by
  rw [typeclassOutput]
  cases typeclass args record.decl <;> simp [eq_comm]

theorem instanceOutput_ok {record : AnnotatedRecord naming} {targets : InstanceTargets} {output : Output} :
    instanceOutput record targets = .ok output ↔
      ∃ decl file, targets.typeclassArgQualType.bind QualType.asCXXRecordDecl = some decl ∧
        typeclass_instance decl = some file ∧
        output = .typeclass_instance (nodeName record) targets.targetName file := by
  rw [instanceOutput]
  cases hdecl : targets.typeclassArgQualType.bind QualType.asCXXRecordDecl with
  | none => simp
  | some decl => cases hfile : typeclass_instance decl <;> simp [hfile,eq_comm]

end Generate

inductive FileContent where
  | typeclassHpp (file : GeneratedTypeclass)
  | typeclassCpp (included : FilePath)
  | instanceHpp (implTypeclassName : Text) (file : GeneratedInstance)

inductive Suffix where
  | typeclassHpp
  | typeclassCpp
  | instanceHpp
  deriving DecidableEq, Repr

namespace Suffix

def chars : Suffix → List Char
  | .typeclassHpp => ".typeclass.generated.hpp".toList
  | .typeclassCpp => ".typeclass.generated.cpp".toList
  | .instanceHpp => ".typeclass_instance.generated.hpp".toList

theorem chars_injective : Function.Injective chars := by
  intro a b h
  cases a <;> cases b <;> first | rfl | exact absurd h (by decide)

theorem chars_dot (suffix : Suffix) : ∃ rest, suffix.chars = '.' :: rest := by
  cases suffix <;> exact ⟨_,rfl⟩

end Suffix

def genPath (outDir_ : FilePath) (name : BaseName) (suffix : Suffix) : FilePath :=
  outDir_.append (name.chars ++ suffix.chars)

def Output.files (outDir_ : FilePath) : Output → List (FilePath × FileContent)
  | .typeclass name file =>
    [(genPath outDir_ name .typeclassHpp,.typeclassHpp file),
      (genPath outDir_ name .typeclassCpp,.typeclassCpp (genPath outDir_ name .typeclassHpp))]
  | .typeclass_instance name implTypeclassName file =>
    [(genPath outDir_ name .instanceHpp,.instanceHpp implTypeclassName file)]

-- A failed `CHECK` ends the program, and the invocations after it.
def outputs {naming : Naming} : List (Invocation naming) → List Output
  | [] => []
  | invocation :: invocations =>
    match invocation.generate with
    | .ok output => output :: outputs invocations
    | .error _ => []

def written {naming : Naming} (outDir_ : FilePath) (invocations : List (Invocation naming)) :
    List (FilePath × FileContent) :=
  (outputs invocations).flatMap (Output.files outDir_)

section Paths

variable {naming : Naming}

def performed (invocations : List (Invocation naming)) : List (Invocation naming) :=
  invocations.takeWhile (fun invocation => invocation.generate.isOk)

def Invocation.keys : Invocation naming → List (BaseName × Suffix)
  | .typeclass _ record => [(fileTargetName record,.typeclassHpp),(fileTargetName record,.typeclassCpp)]
  | .typeclass_instance record _ => [(nodeName record,.instanceHpp)]

def typeclassNames (invocations : List (Invocation naming)) : List BaseName :=
  invocations.filterMap fun
    | .typeclass _ record => some (fileTargetName record)
    | .typeclass_instance _ _ => none

def instanceNames (invocations : List (Invocation naming)) : List BaseName :=
  invocations.filterMap fun
    | .typeclass _ _ => none
    | .typeclass_instance record _ => some (nodeName record)

theorem takeWhile_dotless {name rest : List Char} (h : '.' ∉ name) :
    (name ++ '.' :: rest).takeWhile (· ≠ '.') = name := by
  have hname : ∀ c ∈ name, decide (c ≠ '.') = true := by
    intro c hc
    have hne : c ≠ '.' := fun heq => h (heq ▸ hc)
    simpa using hne
  rw [List.takeWhile_append_of_pos hname]
  simp

theorem genPath_injective (outDir_ : FilePath) :
    Function.Injective (fun key : BaseName × Suffix => genPath outDir_ key.1 key.2) := by
  rintro ⟨name,suffix⟩ ⟨other,otherSuffix⟩ h
  have hchars : name.chars ++ suffix.chars = other.chars ++ otherSuffix.chars :=
    FilePath.append_injective outDir_ h
  obtain ⟨rest,hrest⟩ := suffix.chars_dot
  obtain ⟨otherRest,hotherRest⟩ := otherSuffix.chars_dot
  have hname : name = other := by
    have htaken := congrArg (List.takeWhile (· ≠ '.')) hchars
    rw [hrest,hotherRest,takeWhile_dotless name.dotless,takeWhile_dotless other.dotless] at htaken
    exact BaseName.ext htaken
  subst hname
  rw [List.append_cancel_left_eq] at hchars
  rw [Suffix.chars_injective hchars]

theorem files_paths (outDir_ : FilePath) {invocation : Invocation naming} {output : Output}
    (h : invocation.generate = .ok output) :
    (output.files outDir_).map Prod.fst = invocation.keys.map (fun key => genPath outDir_ key.1 key.2) := by
  cases invocation with
  | typeclass args record =>
    obtain ⟨file,-,rfl⟩ := typeclassOutput_ok.mp h
    rfl
  | typeclass_instance record tp =>
    rw [Invocation.generate] at h
    cases htargets : instanceTargets tp with
    | error stop => simp [htargets] at h
    | ok targets =>
      rw [htargets,ok_bind] at h
      obtain ⟨decl,file,-,-,rfl⟩ := instanceOutput_ok.mp h
      rfl

theorem written_paths (outDir_ : FilePath) (invocations : List (Invocation naming)) :
    (written outDir_ invocations).map Prod.fst =
      ((performed invocations).flatMap Invocation.keys).map (fun key => genPath outDir_ key.1 key.2) := by
  induction invocations with
  | nil => rfl
  | cons invocation invocations ih =>
    rw [written] at ih
    rw [written,outputs,performed]
    cases houtput : invocation.generate with
    | error stop => simp [houtput,Except.isOk,Except.toBool]
    | ok output =>
      rw [List.takeWhile_cons_of_pos (by simp [houtput,Except.isOk,Except.toBool]),← performed,List.flatMap_cons,List.map_append,
        files_paths outDir_ houtput,ih,List.flatMap_cons,List.map_append]

theorem mem_keys_typeclass (invocations : List (Invocation naming)) (name : BaseName) {suffix : Suffix}
    (hsuffix : suffix ≠ .instanceHpp) :
    (name,suffix) ∈ invocations.flatMap Invocation.keys ↔ name ∈ typeclassNames invocations := by
  induction invocations with
  | nil => simp [typeclassNames]
  | cons invocation invocations ih =>
    rw [List.flatMap_cons,List.mem_append,ih]
    cases invocation with
    | typeclass args record => cases suffix <;> simp_all [Invocation.keys,typeclassNames]
    | typeclass_instance record tp => simp [Invocation.keys,typeclassNames,hsuffix]

theorem mem_keys_instance {invocations : List (Invocation naming)} {name : BaseName} :
    (name,Suffix.instanceHpp) ∈ invocations.flatMap Invocation.keys ↔ name ∈ instanceNames invocations := by
  induction invocations with
  | nil => simp [instanceNames]
  | cons invocation invocations ih =>
    rw [List.flatMap_cons,List.mem_append,ih]
    cases invocation with
    | typeclass args record => simp [Invocation.keys,instanceNames]
    | typeclass_instance record tp => simp [Invocation.keys,instanceNames]

theorem nodup_keys_iff (invocations : List (Invocation naming)) :
    (invocations.flatMap Invocation.keys).Nodup ↔
      (typeclassNames invocations).Nodup ∧ (instanceNames invocations).Nodup := by
  induction invocations with
  | nil => simp [typeclassNames,instanceNames]
  | cons invocation invocations ih =>
    cases invocation with
    | typeclass args record =>
      have hhppSuffix : Suffix.typeclassHpp ≠ .instanceHpp := by simp
      have hcppSuffix : Suffix.typeclassCpp ≠ .instanceHpp := by simp
      have hhpp := mem_keys_typeclass invocations (fileTargetName record) hhppSuffix
      have hcpp := mem_keys_typeclass invocations (fileTargetName record) hcppSuffix
      have hnames : typeclassNames (.typeclass args record :: invocations) =
          fileTargetName record :: typeclassNames invocations := rfl
      have hinstances : instanceNames (.typeclass args record :: invocations) = instanceNames invocations := rfl
      rw [List.flatMap_cons,Invocation.keys,hnames,hinstances,List.cons_append,List.cons_append,
        List.nil_append,List.nodup_cons,List.nodup_cons,List.mem_cons,hhpp,hcpp,ih,List.nodup_cons]
      simp [and_assoc]
    | typeclass_instance record tp =>
      have hnames : typeclassNames (.typeclass_instance record tp :: invocations) =
          typeclassNames invocations := rfl
      have hinstances : instanceNames (.typeclass_instance record tp :: invocations) =
          nodeName record :: instanceNames invocations := rfl
      rw [List.flatMap_cons,Invocation.keys,hnames,hinstances,List.singleton_append,List.nodup_cons,
        mem_keys_instance,ih,List.nodup_cons]
      tauto

end Paths

-- `kept` speaks of the files as they are after the last write.
structure LosesNoFile {naming : Naming} (outDir_ : FilePath) (invocations : List (Invocation naming)) : Prop where
  distinct : ((written outDir_ invocations).map Prod.fst).Nodup
  kept : ∀ output ∈ outputs invocations, ∀ file ∈ output.files outDir_,
    writeAll (fun _ => none) (written outDir_ invocations) file.1 = some file.2

theorem losesNoFile_iff {naming : Naming} (outDir_ : FilePath) (invocations : List (Invocation naming)) :
    LosesNoFile outDir_ invocations ↔
      (typeclassNames (performed invocations)).Nodup ∧ (instanceNames (performed invocations)).Nodup := by
  have hkeys : ((written outDir_ invocations).map Prod.fst).Nodup ↔
      ((performed invocations).flatMap Invocation.keys).Nodup := by
    rw [written_paths,List.nodup_map_iff (genPath_injective outDir_)]
  rw [← nodup_keys_iff,← hkeys]
  constructor
  · exact LosesNoFile.distinct
  · intro hdistinct
    refine ⟨hdistinct,fun output houtput file hfile => ?_⟩
    exact writeAll_of_nodup hdistinct file (List.mem_flatMap.mpr ⟨output,houtput,hfile⟩)

def asciiIdentifier (c : Char) : Bool := c.isAlphanum || c = '_'

theorem asciiIdentifier_dot : asciiIdentifier '.' = false := by decide

theorem asciiIdentifier_slash : asciiIdentifier '/' = false := by decide

def ascii : Naming := ⟨asciiIdentifier,asciiIdentifier_dot,asciiIdentifier_slash⟩

theorem drawable_identifier : ∀ c ∈ "Drawable".toList, ascii.identifierChar c = true :=
  List.all_eq_true.mp rfl

def drawable (scope fields : List String) : AnnotatedRecord ascii :=
  ⟨scope,⟨"Drawable",fields,[],[],[⟨addable,"Addable",[addTo]⟩]⟩,drawable_identifier⟩

def drawables : List (Invocation ascii) :=
  [.typeclass [] (drawable ["geometry"] []),.typeclass [] (drawable ["canvas"] [kIsMoveOnlyFieldName])]

theorem equal_names_overwrite :
    (drawable ["geometry"] []).scope ≠ (drawable ["canvas"] [kIsMoveOnlyFieldName]).scope ∧
    ¬ LosesNoFile ⟨true,[]⟩ drawables := by
  refine ⟨by decide,fun h => ?_⟩
  have hpaths := h.distinct
  rw [written_paths] at hpaths
  have hnames := ((nodup_keys_iff (performed drawables)).mp hpaths.of_map).1
  have htwice : typeclassNames (performed drawables) =
      [fileTargetName (drawable ["geometry"] []),fileTargetName (drawable ["geometry"] [])] := rfl
  rw [htwice] at hnames
  simp at hnames

end FlexTypeclass.Codegen
