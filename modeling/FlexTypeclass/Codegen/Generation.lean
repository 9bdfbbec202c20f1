import FlexTypeclass.Codegen.Files
import FlexTypeclass.Lib.Join

namespace FlexTypeclass.Codegen
open Lib Spelling

section Preconditions

variable {naming : Naming}

structure Mergeable (decl : RecordDecl) : Prop where
  bases : decl.bases ≠ []
  methods : ∀ base ∈ decl.bases, base.methods ≠ []

theorem mergeBases_isSome_iff {start : Option ClassInfo} {bases : List BaseClass} :
    (mergeBases start bases).isSome ↔
      (start.isSome ∨ bases ≠ []) ∧ ∀ base ∈ bases, base.methods ≠ [] := by
  induction bases generalizing start with
  | nil => simp [mergeBases]
  | cons base bases ih =>
    unfold mergeBases
    cases hmethods : base.methods with
    | nil => simp [reflectBase,hmethods]
    | cons m ms => cases start <;> simp [reflectBase,hmethods,ih]

theorem typeclass_isSome_iff (args : List Arg) (decl : RecordDecl) :
    (typeclass args decl).isSome ↔ Mergeable decl := by
  rw [typeclass,Option.isSome_map,mergeBases_isSome_iff]
  constructor
  · rintro ⟨hbases,hmethods⟩
    exact ⟨hbases.resolve_left (by simp),hmethods⟩
  · exact fun h => ⟨.inr h.bases,h.methods⟩

theorem commas_eq_nil_iff {ps : List Text} (h : ∀ q ∈ ps, q ≠ []) : commas ps = [] ↔ ps = [] := by
  constructor
  · intro hnil
    by_contra hne
    exact intercalate_ne_nil _ hne h hnil
  · rintro rfl
    rfl

theorem path_ne_nil (p : PrintingPolicy) (bases : List ClassType) :
    ∀ q ∈ bases.map (fun base => base.path.print p), q ≠ [] := by
  intro q hq
  obtain ⟨base,-,rfl⟩ := List.mem_map.mp hq
  obtain ⟨a,rest,hprint,-⟩ := base.path.print_head
  rw [hprint]
  exact List.cons_ne_nil _ _

theorem typeclassBasesCode_eq_nil_iff (bases : List ClassType) :
    typeclassBasesCode bases = [] ↔ bases = [] := by
  rw [typeclassBasesCode_eq,commas_eq_nil_iff (path_ne_nil _ bases),List.map_eq_nil_iff]

structure Instantiable (decl : RecordDecl) : Prop where
  mergeable : Mergeable decl
  wrapped : ∃ method ∈ decl.methods ++ baseMethods decl.bases, isTypeclassMethod method = true

theorem typeclass_instance_iff {decl : RecordDecl} {file : GeneratedInstance} :
    typeclass_instance decl = some file ↔
      Instantiable decl ∧
        file = instanceFile decl (!decl.fields.isEmpty) (decl.methods ++ baseMethods decl.bases) := by
  constructor
  · intro hfile
    have heq := instance_file hfile
    obtain ⟨info,hinfo,hchecks⟩ := Option.bind_eq_some_iff.mp hfile
    obtain ⟨hvalid,-⟩ := Option.ite_none_right_eq_some.mp hchecks
    have hmethods := mergeBases_methods hinfo
    have hsome : (mergeBases (some (reflectRecord decl)) decl.bases).isSome := by simp [hinfo]
    simp only [Bool.and_eq_true,List.any_eq_true,hmethods] at hvalid
    have hbases : decl.bases ≠ [] := by
      intro hnil
      simp [instanceFile,hnil,typeclassBasesCode] at hvalid
    exact ⟨⟨⟨hbases,(mergeBases_isSome_iff.mp hsome).2⟩,hvalid.1.2⟩,heq⟩
  · rintro ⟨⟨hmergeable,method,hmem,hvalid⟩,rfl⟩
    obtain ⟨info,hinfo⟩ := Option.isSome_iff_exists.mp
      (mergeBases_isSome_iff.mpr ⟨.inl (Option.isSome_some (a := reflectRecord decl)),hmergeable.methods⟩)
    have hmethods : info.methods = decl.methods ++ baseMethods decl.bases := mergeBases_methods hinfo
    have hcode : typeclassBasesCode (decl.bases.map BaseClass.type) ≠ [] := by
      simpa [typeclassBasesCode_eq_nil_iff] using hmergeable.bases
    have hchecked : (!info.methods.isEmpty && info.methods.any isTypeclassMethod &&
        !(typeclassBasesCode (decl.bases.map BaseClass.type)).isEmpty) = true := by
      simp only [hmethods,Bool.and_eq_true,List.any_eq_true]
      exact ⟨⟨by simpa using List.ne_nil_of_mem hmem,method,hmem,hvalid⟩,by simpa using hcode⟩
    rw [typeclass_instance,hinfo,Option.bind_some,fieldLoop_eq,← hmethods]
    exact if_pos hchecked

end Preconditions

section Together

variable {naming : Naming} {output : Output}

theorem instanceOutput_iff {record : AnnotatedRecord naming} {targets : InstanceTargets} :
    instanceOutput record targets = .ok output ↔
      ∃ decl, targets.typeclassArgQualType.bind QualType.asCXXRecordDecl = some decl ∧
        Instantiable decl ∧
        output = .typeclass_instance (nodeName record) targets.targetName
          (instanceFile decl (!decl.fields.isEmpty) (decl.methods ++ baseMethods decl.bases)) := by
  rw [instanceOutput_ok]
  constructor
  · rintro ⟨decl,file,hdecl,hfile,rfl⟩
    obtain ⟨hinstantiable,rfl⟩ := typeclass_instance_iff.mp hfile
    exact ⟨decl,hdecl,hinstantiable,rfl⟩
  · rintro ⟨decl,hdecl,hinstantiable,rfl⟩
    exact ⟨decl,_,hdecl,typeclass_instance_iff.mpr ⟨hinstantiable,rfl⟩,rfl⟩

theorem typeclass_generated (args : List Arg) {decl : RecordDecl} (h : Mergeable decl) :
    typeclass args decl = some (typeclassFile args decl (!decl.fields.isEmpty) (baseMethods decl.bases)) := by
  obtain ⟨tc,htc⟩ := Option.isSome_iff_exists.mp ((typeclass_isSome_iff args decl).mpr h)
  rw [htc,typeclass_file htc]

-- An instance is generated for the structs that a typeclass is generated for, if a method is left to wrap.
theorem instance_generates_iff (args : List Arg) (record : AnnotatedRecord naming)
    (tp : List TemplateParameter) (output : Output) :
    (Invocation.typeclass_instance record tp).generate = .ok output ↔
      ∃ targets decl tc, instanceTargets tp = .ok targets ∧
        targets.typeclassArgQualType.bind QualType.asCXXRecordDecl = some decl ∧
        typeclass args decl = some tc ∧
        (tc.freeFunctions ≠ [] ∨ ∃ method ∈ decl.methods, isTypeclassMethod method = true) ∧
        output = .typeclass_instance (nodeName record) targets.targetName
          (instanceFile decl tc.moveOnly (decl.methods ++ baseMethods decl.bases)) := by
  have hwrapped (decl : RecordDecl) (hmergeable : Mergeable decl) : Instantiable decl ↔
      (methodLoop (baseMethods decl.bases) freeFunction ≠ [] ∨
        ∃ method ∈ decl.methods, isTypeclassMethod method = true) := by
    constructor
    · rintro ⟨-,method,hmem,hvalid⟩
      rcases List.mem_append.mp hmem with hown | hbase
      · exact .inr ⟨method,hown,hvalid⟩
      · refine .inl (List.ne_nil_of_mem (List.mem_map_of_mem (List.mem_filter.mpr ⟨hbase,hvalid⟩)))
    · rintro (hfree | ⟨method,hown,hvalid⟩)
      · obtain ⟨emitted,hemitted⟩ := List.exists_mem_of_ne_nil _ hfree
        obtain ⟨method,hmethod,-⟩ := List.mem_map.mp hemitted
        obtain ⟨hbase,hvalid⟩ := List.mem_filter.mp hmethod
        exact ⟨hmergeable,method,List.mem_append_right _ hbase,hvalid⟩
      · exact ⟨hmergeable,method,List.mem_append_left _ hown,hvalid⟩
  rw [Invocation.generate]
  cases htargets : instanceTargets tp with
  | error stop => simp
  | ok targets =>
    rw [ok_bind,instanceOutput_iff]
    constructor
    · rintro ⟨decl,hdecl,hinstantiable,rfl⟩
      have htc := typeclass_generated args hinstantiable.mergeable
      exact ⟨targets,decl,_,rfl,hdecl,htc,(hwrapped decl hinstantiable.mergeable).mp hinstantiable,rfl⟩
    · rintro ⟨_,decl,tc,⟨⟩,hdecl,htc,hmethods,rfl⟩
      have hmergeable := (typeclass_isSome_iff args decl).mp (by rw [htc]; rfl)
      rw [typeclass_file htc] at hmethods ⊢
      exact ⟨decl,hdecl,(hwrapped decl hmergeable).mpr hmethods,rfl⟩

theorem generate_null_iff (invocation : Invocation naming) :
    invocation.generate = .error .nullDereference ↔
      ∃ record tp, invocation = .typeclass_instance record tp ∧
        instanceTargets tp = .error .nullDereference := by
  cases invocation with
  | typeclass args record =>
    rw [Invocation.generate,typeclassOutput]
    cases typeclass args record.decl <;> simp
  | typeclass_instance record tp =>
    rw [Invocation.generate]
    cases htargets : instanceTargets tp with
    | error stop => simp [htargets]
    | ok targets =>
      have hchecks : instanceOutput record targets ≠ .error .nullDereference := by
        rw [instanceOutput]
        split <;> simp
      simp [htargets,hchecks]

end Together

end FlexTypeclass.Codegen
