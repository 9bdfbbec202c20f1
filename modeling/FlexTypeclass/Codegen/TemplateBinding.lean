import FlexTypeclass.Codegen.SpecializationKeys

namespace FlexTypeclass.Codegen
open Lib Spelling

structure TemplateArgument where
  text : Text
  closed : Closed text

theorem closed_extractTypeName {text : Text} (h : Closed text) : Closed (extractTypeName text) := by
  unfold extractTypeName
  split
  · split
    · exact h
    · exact h
  · exact h

def TemplateArgument.ofType (t : Ty) : TemplateArgument where
  text := extractTypeName (extractTypeName (t.getAsString (printingPolicy .cxx)))
  closed := closed_extractTypeName (closed_extractTypeName (Ty.closed_around _ t (neutral_nil 0)))

def explicitSpecializationArgs (typeclassBasesCode implTypeclassName : Text) : Text :=
  [.blank] ++ typeclassOf typeclassBasesCode ++ kSeparatorCommaAndWhitespace ++ implTypeclassName ++
    [.blank]

def overrideCallArgs (typeclassBasesCode : Text) : Text :=
  [.blank] ++ typeclassOf typeclassBasesCode ++ [.blank]

structure Binding where
  bound : List (Text × Text)
  deduced : List Text
  deriving DecidableEq, Repr

def bindExplicit (parameters arguments : List Text) : Binding :=
  ⟨parameters.zip arguments,parameters.drop arguments.length⟩

def specializationBinding (bases : List ClassType) (impl : TemplateArgument) (method : MethodInfo) :
    Binding :=
  bindExplicit (entries (templateHead (fullCompoundId bases) method.params))
    (entries (explicitSpecializationArgs (typeclassBasesCode bases) impl.text))

def callBinding (bases : List ClassType) (method : MethodInfo) : Binding :=
  bindExplicit (entries (templateHead (fullCompoundId bases) method.params))
    (entries (overrideCallArgs (typeclassBasesCode bases)))

def typeclassEntry (bases : List ClassType) : Text := strip (typeclassOf (typeclassBasesCode bases))

section Primary

variable (P : KeyProgram) (before : List MethodInfo) (method : MethodInfo)

def methodPlaces : List Place :=
  P.headPlace before method :: ([[],P.overrideLocals method ++ P.generation.typeclassImplScope,
    P.overrideLocals method ++ P.generation.inplaceTypeclassImplScope].map P.instancePlace)

-- A name that the free template and the specialization find in one namespace.
def WrittenAlike (primary specialized : List (Frame (Role × String) Entity)) (name : Role × String) : Prop :=
  ∃ owner, lookup primary name = some (.declared owner) ∧ lookup specialized name = some (.declared owner)

-- The free template compiles, and the specialization declares the function type it gives `T` and `V`.
structure DeclaresAlike : Prop where
  primary : ∀ text ∈ (freeTemplate method).introduced,
    lookup ((freeTemplate method).parameterFrames (P.primaryDecls before) method.params) (.plain,text) =
      some (.introduced text)
  specialized : ∀ text ∈ (specialization method).introduced,
    lookup ((specialization method).parameterFrames P.instanceDecls method.params) (.plain,text) =
      some (.introduced text)
  returnTypes : ∀ name ∈ P.reading.typeNames method.returnType,
    WrittenAlike ((freeTemplate method).outerFrames (P.primaryDecls before))
      ((specialization method).outerFrames P.instanceDecls) name
  paramTypes : ∀ ps p qs, method.params = ps ++ p :: qs → ∀ name ∈ P.reading.typeNames p.fullDecl,
    WrittenAlike ((freeTemplate method).parameterFrames (P.primaryDecls before) ps)
      ((specialization method).parameterFrames P.instanceDecls ps) name

-- The guard compares the types that the two texts inside `Typeclass<...>` name.
structure BindsAlike (impl : TemplateArgument) : Prop where
  specialization : specializationBinding P.types impl method =
    ⟨[(strippedTypename "T",typeclassEntry P.types),(strippedTypename "V",strip impl.text)],
      [strip (enableIfGuard (fullCompoundId P.types))]⟩
  call : callBinding P.types method =
    ⟨[(strippedTypename "T",typeclassEntry P.types)],
      [strippedTypename "V",strip (enableIfGuard (fullCompoundId P.types))]⟩
  guard : ∀ place ∈ methodPlaces P before method, P.NamesBases place
  declared : DeclaresAlike P before method

-- A type name that both headers find in one namespace and that is no parameter of the free template.
structure TypeName (name : Role × String) : Prop where
  shown : hides Generation.freeScope name = false
  found : ∃ owner, lookup (scopeFrames (P.primaryDecls before) generatedScope) name = some owner ∧
    lookup (scopeFrames P.instanceDecls generatedScope) name = some owner

structure Declarable : Prop where
  params : ∀ p ∈ method.params, p.name ∉ ["data","T","V"]
  name : method.name ∉ ["T","V"]
  returnTypes : ∀ name ∈ P.reading.typeNames method.returnType, TypeName P before name
  paramTypes : ∀ ps p qs, method.params = ps ++ p :: qs → ∀ name ∈ P.reading.typeNames p.fullDecl,
    hides (parameterNames ps) name = false ∧ hides (objects ["data"]) name = false ∧ TypeName P before name

end Primary

section Arguments

variable (bases : List ClassType) (impl : TemplateArgument) (method : MethodInfo)

theorem closed_typeclassEntry : Closed (typeclassEntry bases) :=
  closed_strip (closed_typeclassOf (depth_typeclassBasesCode bases))

theorem entries_specialization :
    entries (explicitSpecializationArgs (typeclassBasesCode bases) impl.text) =
      [typeclassEntry bases,strip impl.text] := by
  have hclosed : ∀ e ∈ [typeclassEntry bases,strip impl.text], Closed e := by
    intro e he
    rw [List.mem_cons,List.mem_singleton] at he
    rcases he with rfl | rfl
    · exact closed_typeclassEntry bases
    · exact closed_strip impl.closed
  have hstrip : strip (explicitSpecializationArgs (typeclassBasesCode bases) impl.text) =
      commas [typeclassEntry bases,strip impl.text] := by
    simp [explicitSpecializationArgs,typeclassEntry,kSeparatorCommaAndWhitespace,commas]
  rw [entries_strip,hstrip,splitTop_commas (by simp) hclosed]

theorem entries_call : entries (overrideCallArgs (typeclassBasesCode bases)) = [typeclassEntry bases] := by
  have hstrip : strip (overrideCallArgs (typeclassBasesCode bases)) = typeclassEntry bases := by
    simp [overrideCallArgs,typeclassEntry]
  rw [entries_strip,hstrip,splitTop_neutral (closed_typeclassEntry bases)]

variable {bases impl method} in
theorem specialization_unprefixed (h : templateTypes method.params = []) :
    specializationBinding bases impl method =
      ⟨[(strippedTypename "T",typeclassEntry bases),(strippedTypename "V",strip impl.text)],
        [strip (enableIfGuard (fullCompoundId bases))]⟩ := by
  rw [specializationBinding,entries_templateHead _ (depth_fullCompoundId bases),entries_specialization]
  simp [headEntries,h,danglingComma,ownEntries,bindExplicit]

variable {bases method} in
theorem call_unprefixed (h : templateTypes method.params = []) :
    callBinding bases method =
      ⟨[(strippedTypename "T",typeclassEntry bases)],
        [strippedTypename "V",strip (enableIfGuard (fullCompoundId bases))]⟩ := by
  rw [callBinding,entries_templateHead _ (depth_fullCompoundId bases),entries_call]
  simp [headEntries,h,danglingComma,ownEntries,bindExplicit]

-- Every entry in front of `T` and `V` leaves one more parameter to deduction.
theorem deduced_length : (callBinding bases method).deduced.length =
    (templateTypes method.params).length + (if danglingComma method.params then 1 else 0) + 2 := by
  rw [callBinding,entries_templateHead _ (depth_fullCompoundId bases),entries_call,bindExplicit]
  simp only [headEntries,ownEntries,List.length_drop,List.length_append,List.length_map,
    List.length_cons,List.length_nil]
  split <;> simp

end Arguments

section Declared

variable {P : KeyProgram} {before : List MethodInfo} {method : MethodInfo}

theorem methodPlaces_emitted : ∀ place ∈ methodPlaces P before method, P.Emitted place := by
  intro place hplace
  rcases List.mem_cons.mp hplace with rfl | hinstance
  · exact KeyProgram.emitted_head before method
  · obtain ⟨around,-,rfl⟩ := List.mem_map.mp hinstance
    exact KeyProgram.emitted_instance around

theorem guard_iff : (∀ place ∈ methodPlaces P before method, P.NamesBases place) ↔
    (∀ c ∈ P.types, c.path.unspellable = 0) ∧
      ∀ place ∈ methodPlaces P before method, P.Visible place := by
  constructor
  · intro h
    refine ⟨?_,fun place hplace => ((methodPlaces_emitted place hplace).named_iff.mp (h place hplace)).2⟩
    have hhead := (h (P.headPlace before method) List.mem_cons_self).spelled
    rw [KeyProgram.headPlace,fullCompoundId_eq,KeyProgram.types,commaSeparated_spelled,
      default_spells_iff] at hhead
    exact hhead
  · rintro ⟨hspell,hvisible⟩ place hplace
    have hemitted := methodPlaces_emitted place hplace
    exact hemitted.named_iff.mpr ⟨hemitted.spelled hspell,hvisible place hplace⟩

section Unprefixed

variable (hnone : templateTypes method.params = [])
include hnone

theorem writtenAlike_iff {name : Role × String} :
    WrittenAlike ((freeTemplate method).outerFrames (P.primaryDecls before))
      ((specialization method).outerFrames P.instanceDecls) name ↔ TypeName P before name := by
  have htemplates : (freeTemplate method).templateNames = [] := hnone
  simp only [WrittenAlike,outer_declared_iff,htemplates]
  constructor
  · rintro ⟨owner,⟨-,-,hscope,hprimary⟩,-,-,-,hspecialized⟩
    exact ⟨hscope,owner,hprimary,hspecialized⟩
  · rintro ⟨hshown,owner,hprimary,hspecialized⟩
    have hmethods := hides_subset (freeMethods_subset method) hshown
    exact ⟨owner,⟨rfl,hmethods,hshown,hprimary⟩,rfl,rfl,rfl,hspecialized⟩

theorem paramWrittenAlike_iff {ps : List MethodParamInfo} {name : Role × String} :
    WrittenAlike ((freeTemplate method).parameterFrames (P.primaryDecls before) ps)
      ((specialization method).parameterFrames P.instanceDecls ps) name ↔
      hides (parameterNames ps) name = false ∧ hides (objects ["data"]) name = false ∧
        TypeName P before name := by
  rw [← writtenAlike_iff hnone]
  simp only [WrittenAlike,parameter_declared_iff]
  constructor
  · rintro ⟨owner,⟨hparams,-,hprimary⟩,-,hdata,hspecialized⟩
    exact ⟨hparams,hdata,owner,hprimary,hspecialized⟩
  · rintro ⟨hparams,hdata,owner,hprimary,hspecialized⟩
    exact ⟨owner,⟨hparams,rfl,hprimary⟩,hparams,hdata,hspecialized⟩

theorem primary_introduced_iff {decls : List Declaration} : (∀ text ∈ (freeTemplate method).introduced,
    lookup ((freeTemplate method).parameterFrames decls method.params) (.plain,text) =
      some (.introduced text)) ↔
    (∀ p ∈ method.params, p.name ∉ ["T","V"]) ∧ method.name ∉ ["T","V"] := by
  have hown : (freeTemplate method).ownParams = [] := rfl
  have htemplates : (freeTemplate method).templateNames = [] := hnone
  have hmethods {text : String} (htext : text ∈ ["T","V"]) :
      text ∈ (freeTemplate method).methods ↔ text = method.name := by
    rw [freeTemplate,List.mem_filter,decide_eq_true_eq]
    exact and_iff_right htext
  simp only [introduced_iff,hown,htemplates]
  constructor
  · intro h
    refine ⟨fun p hp htext => (h p.name htext).1 (List.mem_map_of_mem hp),fun htext => ?_⟩
    rcases (h method.name htext).2 with hnil | ⟨-,hnot,-⟩
    · cases hnil
    · exact hnot ((hmethods htext).mpr rfl)
  · rintro ⟨hparams,hname⟩ text htext
    refine ⟨?_,.inr ⟨List.not_mem_nil,?_,?_⟩⟩
    · intro hmem
      obtain ⟨p,hp,rfl⟩ := List.mem_map.mp hmem
      exact hparams p hp htext
    · intro hmem
      exact hname ((hmethods htext).mp hmem ▸ htext)
    · simpa [freeTemplate,Generation.freeScope,types] using htext

omit hnone in
theorem specialized_introduced_iff {decls : List Declaration} :
    (∀ text ∈ (specialization method).introduced,
      lookup ((specialization method).parameterFrames decls method.params) (.plain,text) =
        some (.introduced text)) ↔ ∀ p ∈ method.params, p.name ≠ "data" := by
  have hintroduced : (specialization method).introduced = ["data"] := rfl
  rw [hintroduced,List.forall_mem_singleton,introduced_iff]
  simp [specialization]

theorem declaresAlike_iff : DeclaresAlike P before method ↔ Declarable P before method := by
  have hreserved {p : MethodParamInfo} : p.name ∉ ["data","T","V"] ↔ p.name ≠ "data" ∧ p.name ∉ ["T","V"] := by
    rw [List.mem_cons,not_or]
  constructor
  · rintro ⟨hprimary,hspecialized,hreturn,hparams⟩
    have hdata := specialized_introduced_iff.mp hspecialized
    obtain ⟨hown,hname⟩ := (primary_introduced_iff hnone).mp hprimary
    refine ⟨fun p hp => hreserved.mpr ⟨hdata p hp,hown p hp⟩,hname,?_,?_⟩
    · exact fun name hmem => (writtenAlike_iff hnone).mp (hreturn name hmem)
    · exact fun ps p qs heq name hmem => (paramWrittenAlike_iff hnone).mp (hparams ps p qs heq name hmem)
  · rintro ⟨hreservedParams,hname,hreturn,hparams⟩
    refine ⟨?_,?_,?_,?_⟩
    · exact (primary_introduced_iff hnone).mpr ⟨fun p hp => (hreserved.mp (hreservedParams p hp)).2,hname⟩
    · exact specialized_introduced_iff.mpr fun p hp => (hreserved.mp (hreservedParams p hp)).1
    · exact fun name hmem => (writtenAlike_iff hnone).mpr (hreturn name hmem)
    · exact fun ps p qs heq name hmem => (paramWrittenAlike_iff hnone).mpr (hparams ps p qs heq name hmem)

end Unprefixed

end Declared

theorem fireSpell_free : "FireSpell" ∉ keywords := by decide

def fireSpell : TemplateArgument :=
  .ofType (.named ⟨false,false⟩ (some .ttkStruct) (.last ⟨"FireSpell",fireSpell_free,rfl⟩ .none))

def addTo : MethodInfo where
  name := "add_to"
  returnType := "void"
  params := [⟨⟨some "Value"⟩,"const Value &rhs","rhs"⟩]
  tplParams := ["typename Value"]
  isTemplate := true
  isImplicit := false
  isOperator := false
  isCtor := false
  isDtor := false
  isVirtual := false
  isConst := true
  isNoExcept := false
  isPure := false
  isDeleted := false
  isDefault := false
  body := none

def addableDecls : List Declaration := [⟨[],"Addable",.typeName⟩,⟨[],"FireSpell",.typeName⟩]

def addToReading : Reading where
  typeNames text := if text = "const Value &rhs" then [(.plain,"Value")] else []
  templateNames text := if text = "typename Value" then ["Value"] else []
  optional _ := false
  deducible _ := true

def addableProgram : KeyProgram where
  reading := addToReading
  evaluate _ := none
  userDecls := addableDecls
  userMacros := []
  generation := ⟨false,[addTo],false,[addTo]⟩
  targetTypeName := ""
  between := []
  betweenMacros := []
  base := addable
  bases := []
  found := by
    intro c hc
    obtain rfl := List.mem_singleton.mp hc
    rfl

end FlexTypeclass.Codegen
