import FlexTypeclass.Codegen.Tooling

namespace FlexTypeclass.Codegen

section Templates

variable {moveOnly : Bool} {methods : List MethodInfo}

theorem wrapper_copyConstructor (implBase : String) :
    .constructor .copy ∈ wrapperMembers implBase moveOnly methods ↔ moveOnly = false := by
  cases moveOnly <;> simp [wrapperMembers,copyMember,methodLoop]

theorem wrapper_copyAssignment (implBase : String) :
    .assignment .copy ∈ wrapperMembers implBase moveOnly methods ↔ moveOnly = false := by
  cases moveOnly <;> simp [wrapperMembers,copyMember,methodLoop]

theorem implBase_clone (clone moveClone : String) :
    .clone clone .pureVirtual ∈ implBaseMembers clone moveClone moveOnly methods ↔
      moveOnly = false := by
  cases moveOnly <;> simp [implBaseMembers,copyMember,methodLoop]

theorem impl_constRef (clone moveClone : String) :
    .constructor .fromConstRef ∈ implMembers clone moveClone moveOnly methods ↔
      moveOnly = false := by
  cases moveOnly <;> simp [implMembers,copyMember,methodLoop]

theorem impl_clone (clone moveClone : String) :
    .clone clone .overrideFinal ∈ implMembers clone moveClone moveOnly methods ↔
      moveOnly = false := by
  cases moveOnly <;> simp [implMembers,copyMember,methodLoop]

theorem typeclassImpl_mem {m : Member} (hm : m ≠ .data kIsMoveOnlyFieldName) :
    m ∈ TypeclassImpl moveOnly methods ↔
      m ∈ implMembers "clone_as_unique_ptr" "move_clone_as_unique_ptr" moveOnly methods := by
  simp [TypeclassImpl,hm]

end Templates

abbrev CopyOperation := List Member × Member

def GeneratedTypeclass.copyOperations (tc : GeneratedTypeclass) : List CopyOperation :=
  [(tc.typeclassImplBase,.clone "clone_as_unique_ptr" .pureVirtual),
    (tc.typeclass,.constructor .copy),(tc.typeclass,.assignment .copy),
    (tc.inplaceTypeclassImplBase,.clone "clone_as_raw_ptr" .pureVirtual),
    (tc.inplaceTypeclass,.constructor .copy),(tc.inplaceTypeclass,.assignment .copy)]

def GeneratedInstance.copyOperations (inst : GeneratedInstance) : List CopyOperation :=
  [(inst.typeclassImpl,.constructor .fromConstRef),
    (inst.typeclassImpl,.clone "clone_as_unique_ptr" .overrideFinal),
    (inst.inplaceTypeclassImpl,.constructor .fromConstRef),
    (inst.inplaceTypeclassImpl,.clone "clone_as_raw_ptr" .overrideFinal)]

theorem typeclass_copies {args : List Arg} {decl : RecordDecl} {tc : GeneratedTypeclass}
    (h : typeclass args decl = some tc) :
    ∀ op ∈ tc.copyOperations, (op.2 ∈ op.1 ↔ decl.fields = []) := by
  rw [typeclass_file h]
  simp only [GeneratedTypeclass.copyOperations,typeclassFile,TypeclassImplBase,Typeclass,
    InplaceTypeclassImplBase,InplaceTypeclass,List.forall_mem_cons,implBase_clone,
    wrapper_copyConstructor,wrapper_copyAssignment]
  simp

theorem instance_copies {decl : RecordDecl} {inst : GeneratedInstance}
    (h : typeclass_instance decl = some inst) :
    ∀ op ∈ inst.copyOperations, (op.2 ∈ op.1 ↔ decl.fields = []) := by
  rw [instance_file h]
  simp only [GeneratedInstance.copyOperations,instanceFile,InplaceTypeclassImpl,
    List.forall_mem_cons,typeclassImpl_mem (m := .constructor .fromConstRef) (by simp),
    typeclassImpl_mem (m := .clone "clone_as_unique_ptr" .overrideFinal) (by simp),
    impl_constRef,impl_clone]
  simp

def FollowsMarker (fields : List String) (ops : List CopyOperation) : Prop :=
  ∀ op ∈ ops, (op.2 ∉ op.1 ↔ kIsMoveOnlyFieldName ∈ fields)

theorem followsMarker_iff {fields : List String} {op : CopyOperation} {ops : List CopyOperation}
    (h : ∀ o ∈ op :: ops, (o.2 ∈ o.1 ↔ fields = [])) :
    FollowsMarker fields (op :: ops) ↔ (fields = [] ∨ kIsMoveOnlyFieldName ∈ fields) := by
  constructor
  · intro hfollows
    by_cases hfields : fields = []
    · exact .inl hfields
    · exact .inr ((hfollows op (by simp)).mp fun hmem => hfields ((h op (by simp)).mp hmem))
  · intro hcond o ho
    rw [h o ho]
    rcases hcond with rfl | hmarker
    · simp
    · exact ⟨fun _ => hmarker,fun _ hfields => by simp [hfields] at hmarker⟩

theorem copies_follow_marker_iff (args : List Arg) (decl : RecordDecl) :
    (∀ tc, typeclass args decl = some tc → (FollowsMarker decl.fields tc.copyOperations ↔
      (decl.fields = [] ∨ kIsMoveOnlyFieldName ∈ decl.fields))) ∧
    (∀ inst, typeclass_instance decl = some inst → (FollowsMarker decl.fields inst.copyOperations ↔
      (decl.fields = [] ∨ kIsMoveOnlyFieldName ∈ decl.fields))) :=
  ⟨fun _ htc => followsMarker_iff (typeclass_copies htc),
    fun _ hinst => followsMarker_iff (instance_copies hinst)⟩

def hasEnoughMana : MethodInfo where
  name := "has_enough_mana"
  returnType := "void"
  params := [⟨⟨none⟩,"const char *spellname","spellname"⟩]
  tplParams := []
  isTemplate := false
  isImplicit := false
  isOperator := false
  isCtor := false
  isDtor := false
  isVirtual := true
  isConst := true
  isNoExcept := true
  isPure := true
  isDeleted := false
  isDefault := false
  body := none

def magicItemTraits : BaseClass :=
  ⟨⟨some .ttkStruct,.last ⟨"MagicItemTraits",by decide,rfl⟩ .none,Spelling.ttkStruct_derivable⟩,
    "MagicItemTraits",[hasEnoughMana]⟩

def magicItem (fields : List String) : RecordDecl :=
  ⟨"MagicItem",fields,[],[],[magicItemTraits]⟩

def magicItemTypeclass (fields : List String) : GeneratedTypeclass :=
  typeclassFile [] (magicItem fields) (!fields.isEmpty) [hasEnoughMana]

def magicItemInstance (fields : List String) : GeneratedInstance :=
  instanceFile (magicItem fields) (!fields.isEmpty) [hasEnoughMana]

theorem copies_follow_marker_magicItem :
    FollowsMarker ["kIsMoveOnly"] (magicItemTypeclass ["kIsMoveOnly"]).copyOperations ∧
      FollowsMarker ["kIsMoveOnly"] (magicItemInstance ["kIsMoveOnly"]).copyOperations :=
  ⟨((copies_follow_marker_iff [] (magicItem ["kIsMoveOnly"])).1 _ rfl).mpr (.inr (by decide)),
    ((copies_follow_marker_iff [] (magicItem ["kIsMoveOnly"])).2 _ rfl).mpr (.inr (by decide))⟩

theorem data_field_removes_copies :
    typeclass [] (magicItem ["mana"]) = some (magicItemTypeclass ["mana"]) ∧
    kIsMoveOnlyFieldName ∉ (magicItem ["mana"]).fields ∧
    (∀ op ∈ (magicItemTypeclass ["mana"]).copyOperations, op.2 ∉ op.1) ∧
    typeclass_instance (magicItem ["mana"]) = some (magicItemInstance ["mana"]) ∧
    (∀ op ∈ (magicItemInstance ["mana"]).copyOperations, op.2 ∉ op.1) :=
  ⟨rfl,by decide,by decide,rfl,by decide⟩

inductive ImportTarget where
  | original
  | heapType
  | inplaceType
  deriving DecidableEq, Repr

def ImportTarget.record (decl : RecordDecl) (tc : GeneratedTypeclass) : ImportTarget → RecordDecl
  | .original => decl
  | .heapType => tc.typeclassType
  | .inplaceType => tc.inplaceTypeclassType

def ImportTarget.agrees (fields : List String) : ImportTarget → Prop
  | .original => True
  | .heapType => fields = []
  | .inplaceType => fields ≠ []

structure RoundTrips (tc : GeneratedTypeclass) (inst : GeneratedInstance) : Prop where
  moveOnly : inst.moveOnly = tc.moveOnly
  heapClone : .clone "clone_as_unique_ptr" .overrideFinal ∈ inst.typeclassImpl ↔
    .clone "clone_as_unique_ptr" .pureVirtual ∈ tc.typeclassImplBase
  inplaceClone : .clone "clone_as_raw_ptr" .overrideFinal ∈ inst.inplaceTypeclassImpl ↔
    .clone "clone_as_raw_ptr" .pureVirtual ∈ tc.inplaceTypeclassImplBase

theorem typeclass_moveOnly {args : List Arg} {decl : RecordDecl} {tc : GeneratedTypeclass}
    (h : typeclass args decl = some tc) : tc.moveOnly = !decl.fields.isEmpty := by
  rw [typeclass_file h]
  rfl

theorem instance_moveOnly {decl : RecordDecl} {inst : GeneratedInstance}
    (h : typeclass_instance decl = some inst) : inst.moveOnly = !decl.fields.isEmpty := by
  rw [instance_file h]
  rfl

theorem roundTrips_iff {args : List Arg} {decl arg : RecordDecl} {tc : GeneratedTypeclass}
    {inst : GeneratedInstance} (htc : typeclass args decl = some tc)
    (hinst : typeclass_instance arg = some inst) :
    RoundTrips tc inst ↔ (arg.fields = [] ↔ decl.fields = []) := by
  have hbase := typeclass_copies htc
  have himpl := instance_copies hinst
  simp only [GeneratedTypeclass.copyOperations,List.forall_mem_cons] at hbase
  simp only [GeneratedInstance.copyOperations,List.forall_mem_cons] at himpl
  obtain ⟨hheap,-,-,hinplace,-⟩ := hbase
  obtain ⟨-,hheap',-,hinplace',-⟩ := himpl
  constructor
  · intro h
    rw [← hheap,← hheap']
    exact h.heapClone
  · intro h
    refine ⟨?_,hheap'.trans (h.trans hheap.symm),hinplace'.trans (h.trans hinplace.symm)⟩
    rw [typeclass_moveOnly htc,instance_moveOnly hinst,Bool.not_inj_iff,Bool.eq_iff_iff,
      List.isEmpty_iff,List.isEmpty_iff]
    exact h

theorem imported_flag_iff (args : List Arg) (decl : RecordDecl) (tc : GeneratedTypeclass)
    (target : ImportTarget) (inst : GeneratedInstance) (htc : typeclass args decl = some tc)
    (hinst : typeclass_instance (target.record decl tc) = some inst) :
    RoundTrips tc inst ↔ target.agrees decl.fields := by
  rw [roundTrips_iff htc hinst]
  have hfile := typeclass_file htc
  cases target with
  | original => simp [ImportTarget.record,ImportTarget.agrees]
  | heapType => simp [ImportTarget.record,ImportTarget.agrees,hfile,typeclassFile,typeclassType]
  | inplaceType =>
    simp [ImportTarget.record,ImportTarget.agrees,hfile,typeclassFile,inplaceTypeclassType]

theorem imported_flag_magicItem :
    RoundTrips (magicItemTypeclass []) (magicItemInstance []) :=
  (imported_flag_iff [] (magicItem []) (magicItemTypeclass []) .original (magicItemInstance [])
    rfl rfl).mpr trivial

theorem inplace_type_is_move_only :
    ∃ inst, typeclass [] (magicItem []) = some (magicItemTypeclass []) ∧
      typeclass_instance (magicItemTypeclass []).inplaceTypeclassType = some inst ∧
      (magicItemTypeclass []).moveOnly = false ∧ inst.moveOnly = true ∧
      .clone "clone_as_raw_ptr" .pureVirtual ∈ (magicItemTypeclass []).inplaceTypeclassImplBase ∧
      .clone "clone_as_raw_ptr" .overrideFinal ∉ inst.inplaceTypeclassImpl :=
  ⟨_,rfl,rfl,rfl,rfl,by decide,by decide⟩

end FlexTypeclass.Codegen
