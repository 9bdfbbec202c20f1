import FlexTypeclass.Codegen.Templates

namespace FlexTypeclass.Codegen
open Spelling

def prepareTplArg (s : String) : String := String.ofList (s.toList.filter (· ≠ '"'))

structure Arg where
  name : String
  value : String
  deriving DecidableEq, Repr

def targetGenerator (args : List Arg) : String :=
  args.foldl (fun generator tit =>
    if tit.name = "generator" then prepareTplArg tit.value else generator) ""

-- The comparison with `kIsMoveOnlyFieldName` guards only a log line.
def fieldLoop (fields : List String) : Bool :=
  fields.foldl (fun _ name => if name = kIsMoveOnlyFieldName then true else true) false

structure GeneratedTypeclass where
  moveOnly : Bool
  fullBaseType : Text
  fullCompoundId : Text
  freeFunctions : List FreeFunction
  typeclassImplBase : List Member
  typeclass : List Member
  typeclassType : RecordDecl
  inplaceTypeclassImplBase : List Member
  inplaceTypeclass : List Member
  inplaceTypeclassType : RecordDecl
  targetAlias : String

structure GeneratedInstance where
  moveOnly : Bool
  typeclassBasesCode : Text
  specializations : List FreeFunction
  typeclassImpl : List Member
  inplaceTypeclassImpl : List Member

-- A failed `CHECK` ends the program: `none`.
def mergeBases : Option ClassInfo → List BaseClass → Option ClassInfo
  | structInfo, [] => structInfo
  | structInfo, base :: bases =>
    let refled := reflectBase base
    if refled.methods.isEmpty then none
    else match structInfo with
      | none => mergeBases (some refled) bases
      | some info => mergeBases (some (info.pushMethods refled)) bases

def aliasOf (targetTypeName generator : String) : String :=
  if generator = "InPlace" then "InPlace" ++ targetTypeName else "InHeap" ++ targetTypeName

def typeclassFile (args : List Arg) (decl : RecordDecl) (moveOnly : Bool)
    (methods : List MethodInfo) : GeneratedTypeclass where
  moveOnly := moveOnly
  fullBaseType := fullBaseType (decl.bases.map BaseClass.type)
  fullCompoundId := fullCompoundId (decl.bases.map BaseClass.type)
  freeFunctions := methodLoop methods freeFunction
  typeclassImplBase := TypeclassImplBase moveOnly methods
  typeclass := Typeclass moveOnly methods
  typeclassType := typeclassType decl
  inplaceTypeclassImplBase := InplaceTypeclassImplBase moveOnly methods
  inplaceTypeclass := InplaceTypeclass moveOnly methods
  inplaceTypeclassType := inplaceTypeclassType decl
  targetAlias := aliasOf decl.name (targetGenerator args)

def typeclass (args : List Arg) (decl : RecordDecl) : Option GeneratedTypeclass :=
  (mergeBases none decl.bases).map fun structInfo =>
    typeclassFile args decl (fieldLoop decl.fields) structInfo.methods

def instanceFile (typeclassArg : RecordDecl) (moveOnly : Bool) (methods : List MethodInfo) :
    GeneratedInstance where
  moveOnly := moveOnly
  typeclassBasesCode := typeclassBasesCode (typeclassArg.bases.map BaseClass.type)
  specializations := methodLoop methods explicitSpecialization
  typeclassImpl := TypeclassImpl moveOnly methods
  inplaceTypeclassImpl := InplaceTypeclassImpl moveOnly methods

def typeclass_instance (typeclassArg : RecordDecl) : Option GeneratedInstance :=
  (mergeBases (some (reflectRecord typeclassArg)) typeclassArg.bases).bind fun reflected =>
    let file := instanceFile typeclassArg (fieldLoop typeclassArg.fields) reflected.methods
    if !reflected.methods.isEmpty && reflected.methods.any isTypeclassMethod &&
        !file.typeclassBasesCode.isEmpty then some file
    else none

def baseMethods (bases : List BaseClass) : List MethodInfo := bases.flatMap BaseClass.methods

theorem fieldLoop_eq (fields : List String) : fieldLoop fields = !fields.isEmpty := by
  have hloop (b : Bool) : fields.foldl
      (fun _ name => if name = kIsMoveOnlyFieldName then true else true) b =
      (b || !fields.isEmpty) := by
    induction fields generalizing b with
    | nil => simp
    | cons f fields ih =>
      rw [List.foldl_cons,ih]
      simp
  exact (hloop false).trans (Bool.false_or _)

theorem mergeBases_methods {start : Option ClassInfo} {bases : List BaseClass} {info : ClassInfo}
    (h : mergeBases start bases = some info) :
    info.methods = (start.elim [] ClassInfo.methods) ++ baseMethods bases := by
  induction bases generalizing start with
  | nil =>
    obtain rfl : start = some info := h
    simp [baseMethods]
  | cons base bases ih =>
    unfold mergeBases at h
    simp only at h
    split at h
    · cases h
    · cases start with
      | none =>
        rw [ih h]
        simp [baseMethods,reflectBase]
      | some first =>
        rw [ih h]
        simp [baseMethods,reflectBase,ClassInfo.pushMethods]

theorem typeclass_file {args : List Arg} {decl : RecordDecl} {tc : GeneratedTypeclass}
    (h : typeclass args decl = some tc) :
    tc = typeclassFile args decl (!decl.fields.isEmpty) (baseMethods decl.bases) := by
  obtain ⟨info,hinfo,rfl⟩ := Option.map_eq_some_iff.mp h
  rw [mergeBases_methods hinfo,fieldLoop_eq]
  rfl

theorem instance_file {decl : RecordDecl} {inst : GeneratedInstance}
    (h : typeclass_instance decl = some inst) :
    inst = instanceFile decl (!decl.fields.isEmpty) (decl.methods ++ baseMethods decl.bases) := by
  obtain ⟨info,hinfo,h⟩ := Option.bind_eq_some_iff.mp h
  obtain ⟨-,hfile⟩ := Option.ite_none_right_eq_some.mp h
  rw [← Option.some.inj hfile,mergeBases_methods hinfo,fieldLoop_eq]
  rfl

end FlexTypeclass.Codegen
