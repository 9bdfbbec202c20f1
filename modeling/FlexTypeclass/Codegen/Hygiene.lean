import FlexTypeclass.Codegen.GeneratedScopes

namespace FlexTypeclass.Codegen
open Lib

structure Trait where
  decls : List Declaration
  later : List Declaration
  scope : Owner
  members : Names

def Trait.headerDecls (trait : Trait) : List Declaration := trait.decls ++ trait.later

def Trait.outerFrames (trait : Trait) (templateNames : List String) :
    List (Frame (Role × String) Entity) :=
  namesFrame (types templateNames) .templateParameter :: namesFrame trait.members .traitMember ::
    declaredFrames trait.decls trait.scope

def Trait.parameterFrames (trait : Trait) (templateNames : List String)
    (before : List MethodParamInfo) : List (Frame (Role × String) Entity) :=
  namesFrame (parameterNames before) .parameter :: trait.outerFrames templateNames

-- A method that the trait declares: its types are found there, and no parameter hides them.
structure TraitMethod (reading : Reading) (trait : Trait) where
  method : MethodInfo
  distinct : (method.params.map MethodParamInfo.name).Nodup
  templated : ∀ p ∈ method.params, ∀ name, p.type.getAsTemplateParamType = some name →
    (.plain,name) ∈ reading.typeNames p.fullDecl ∧ ∀ owner,
      lookup (trait.outerFrames (methodTemplateNames reading method.templateHead)) (.plain,name) ≠
        some (.declared owner)
  returnFound : ∀ name ∈ reading.typeNames method.returnType,
    (lookup (trait.outerFrames (methodTemplateNames reading method.templateHead)) name).isSome
  paramsFound : ∀ before p after, method.params = before ++ p :: after →
    ∀ name ∈ reading.typeNames p.fullDecl, hides (parameterNames before) name = false ∧
      (lookup (trait.outerFrames (methodTemplateNames reading method.templateHead)) name).isSome

structure CaptureFree {reading : Reading} {trait : Trait} (m : TraitMethod reading trait)
    (f : GeneratedFunction) : Prop where
  distinct : (f.ownParams ++ f.params.map MethodParamInfo.name).Nodup
  returnTypes : ∀ name ∈ reading.typeNames f.returnType, lookup (f.outerFrames trait.headerDecls) name =
    lookup (trait.outerFrames (methodTemplateNames reading m.method.templateHead)) name
  paramTypes : ∀ before p after, f.params = before ++ p :: after → ∀ name ∈ reading.typeNames p.fullDecl,
    lookup (f.parameterFrames trait.headerDecls before) name =
      lookup (trait.parameterFrames (methodTemplateNames reading m.method.templateHead) before) name
  introduced : ∀ name ∈ f.introduced,
    lookup (f.parameterFrames trait.headerDecls f.params) (.plain,name) = some (.introduced name)

def KeptType (trait : Trait) (templateNames : List String) (scopes : List Names)
    (name : Role × String) : Prop :=
  (∀ names ∈ scopes, hides names name = false) ∧ ∃ owner,
    lookup (trait.outerFrames templateNames) name = some (.declared owner) ∧
    lookup (scopeFrames trait.headerDecls generatedScope) name = some owner

structure Hygienic {reading : Reading} {trait : Trait} (m : TraitMethod reading trait)
    (g : Generation) : Prop where
  params : ∀ p ∈ m.method.params, p.name ∉ ["data","T","V","implBase_","__implBase","concreteData_"]
  templates : ∀ name ∈ methodTemplateNames reading m.method.templateHead,
    name ∉ ["implBase_","__implBase","concreteData_"]
  name : m.method.name ∉ ["T","V"]
  members : ∀ f ∈ g.wrapped, f.name ≠ "implBase_"
  calls : ∀ f ∈ g.wrapped, f.name = "__implBase" → takesCall reading m.method f = false
  returnTypes : ∀ name ∈ reading.typeNames m.method.returnType,
    KeptType trait (methodTemplateNames reading m.method.templateHead) g.scopes name
  paramTypes : ∀ p ∈ m.method.params, ∀ name ∈ reading.typeNames p.fullDecl,
    KeptType trait (methodTemplateNames reading m.method.templateHead)
      (objects ["data"] :: g.scopes) name

section Functions

variable {reading : Reading} {trait : Trait} {g : Generation} {f : GeneratedFunction}
  {name : Role × String} {owner : Owner}

theorem trait_declared_iff {templateNames : List String} :
    lookup (trait.outerFrames templateNames) name = some (.declared owner) ↔
      hides (types templateNames) name = false ∧ hides trait.members name = false ∧
        lookup (scopeFrames trait.decls trait.scope) name = some owner := by
  rw [Trait.outerFrames,names_other_iff (by simp),names_other_iff (by simp),declared_iff]

theorem trait_not_introduced (templateNames : List String) (text : String) :
    lookup (trait.outerFrames templateNames) name ≠ some (.introduced text) := by
  rw [Trait.outerFrames,ne_eq,names_other_iff (by simp),names_other_iff (by simp)]
  intro h
  exact declared_not_introduced _ _ text h.2.2

theorem Generation.typeclassScope_mem (g : Generation) : g.typeclassScope ∈ g.scopes := by
  simp [Generation.scopes]

theorem Generation.inplaceTypeclassScope_mem (g : Generation) : g.inplaceTypeclassScope ∈ g.scopes := by
  simp [Generation.scopes]

theorem Generation.typeclassImplScope_mem (g : Generation) : g.typeclassImplScope ∈ g.scopes := by
  simp [Generation.scopes]

theorem Generation.inplaceTypeclassImplScope_mem (g : Generation) :
    g.inplaceTypeclassImplScope ∈ g.scopes := by
  simp [Generation.scopes]

theorem mem_types_objects {text : String} {typeNames names : List String} (h : text ∈ names) :
    text ∈ (types typeNames ++ objects names).map Prod.fst := by
  rw [List.map_append,List.mem_append]
  exact .inr (by simpa [objects] using h)

theorem method_mem_memberNames {decl : MethodDecl} {members : List Member} (h : .method decl ∈ members) :
    decl.name ∈ memberNames members :=
  List.mem_filterMap.mpr ⟨.method decl,h,rfl⟩

theorem wrapperMethod_mem {implBase : String} {moveOnly : Bool} {methods : List MethodInfo}
    {method : MethodInfo} (h : method ∈ methods.filter isTypeclassMethod) :
    .method (wrapperMethod implBase method) ∈ wrapperMembers implBase moveOnly methods := by
  rw [wrapperMembers,methodLoop]
  exact List.mem_append_right _ (List.mem_map_of_mem h)

theorem heapMethods_subset (g : Generation) : heapMethods g ⊆ g.typeclassScope.map Prod.fst := by
  intro text htext
  obtain ⟨method,hmethod,rfl⟩ := List.mem_map.mp htext
  exact mem_types_objects (List.mem_cons_of_mem _ (method_mem_memberNames (wrapperMethod_mem hmethod)))

theorem inplaceMethods_subset (reading : Reading) (g : Generation) (method : MethodInfo) :
    inplaceMethods reading g method ⊆ g.inplaceTypeclassScope.map Prod.fst := by
  intro text htext
  obtain ⟨other,hother,rfl⟩ := List.mem_map.mp htext
  have hwrapped := (List.mem_filter.mp hother).1
  exact mem_types_objects (List.mem_append_right _ (method_mem_memberNames (wrapperMethod_mem hwrapped)))

structure Emitted (reading : Reading) (g : Generation) (method : MethodInfo) (f : GeneratedFunction) :
    Prop where
  params : f.params = method.params
  returnType : f.returnType = method.returnType
  scope : f.scope = [] ∨ f.scope ∈ g.scopes
  methods : f.methods ⊆ f.scope.map Prod.fst
  templates : f.templateNames = [] ∨ f.templateNames = templateTypes method.params ∨
    f.templateNames = methodTemplateNames reading method.templateHead
  ownParams : f.ownParams = [] ∨ f.ownParams = ["data"]

theorem emitted_of_mem {method : MethodInfo} (h : f ∈ generatedFunctions reading g method) :
    Emitted reading g method f := by
  simp only [generatedFunctions,List.mem_cons,List.not_mem_nil,or_false] at h
  rcases h with rfl | rfl | rfl | rfl | rfl | rfl
  · exact ⟨rfl,rfl,.inr List.mem_cons_self,freeMethods_subset method,.inr (.inl rfl),.inl rfl⟩
  · exact ⟨rfl,rfl,.inl rfl,List.nil_subset _,.inl rfl,.inr rfl⟩
  · exact ⟨rfl,rfl,.inr g.typeclassScope_mem,heapMethods_subset g,.inr (.inr rfl),.inl rfl⟩
  · exact ⟨rfl,rfl,.inr g.inplaceTypeclassScope_mem,inplaceMethods_subset reading g method,
      .inr (.inr rfl),.inl rfl⟩
  · exact ⟨rfl,rfl,.inr g.typeclassImplScope_mem,List.nil_subset _,.inr (.inr rfl),.inl rfl⟩
  · exact ⟨rfl,rfl,.inr g.inplaceTypeclassImplScope_mem,List.nil_subset _,.inr (.inr rfl),.inl rfl⟩

end Functions

section Generation

variable (g : Generation)

theorem data_mem_memberNames {text : String} {members : List Member} (h : .data text ∈ members) :
    text ∈ memberNames members :=
  List.mem_filterMap.mpr ⟨.data text,h,rfl⟩

theorem concreteData_mem_implMembers (clone moveClone : String) (moveOnly : Bool)
    (methods : List MethodInfo) :
    .data "concreteData_" ∈ implMembers clone moveClone moveOnly methods := by
  rw [implMembers]
  exact List.mem_append_right _ List.mem_cons_self

theorem Generation.implBase_declared : "implBase_" ∈ g.typeclassScope.map Prod.fst :=
  mem_types_objects List.mem_cons_self

theorem Generation.inplaceImplBase_declared : "__implBase" ∈ g.inplaceTypeclassScope.map Prod.fst :=
  mem_types_objects List.mem_cons_self

theorem Generation.concreteData_declared : "concreteData_" ∈ g.typeclassImplScope.map Prod.fst := by
  refine mem_types_objects (List.mem_append_left _ (data_mem_memberNames ?_))
  rw [TypeclassImpl]
  exact List.mem_cons_of_mem _ (concreteData_mem_implMembers _ _ _ _)

theorem Generation.inplaceConcreteData_declared :
    "concreteData_" ∈ g.inplaceTypeclassImplScope.map Prod.fst :=
  mem_types_objects (List.mem_append_left _
    (data_mem_memberNames (concreteData_mem_implMembers _ _ _ _)))

end Generation

section Hygienic

variable {reading : Reading} {trait : Trait} {m : TraitMethod reading trait} {g : Generation}
  {f : GeneratedFunction} {name : Role × String}

theorem KeptType.tail {templateNames : List String} {names : Names} {scopes : List Names}
    (h : KeptType trait templateNames (names :: scopes) name) : KeptType trait templateNames scopes name :=
  ⟨fun other hother => h.1 other (List.mem_cons_of_mem _ hother),h.2⟩

theorem Hygienic.unprefixed (h : Hygienic m g) : templateTypes m.method.params = [] := by
  rw [templateTypes,List.filterMap_eq_nil_iff]
  intro p hp
  cases htype : p.type.getAsTemplateParamType with
  | none => rfl
  | some text =>
    obtain ⟨htext,hparameter⟩ := m.templated p hp text htype
    obtain ⟨-,owner,howner,-⟩ := h.paramTypes p hp _ htext
    exact absurd howner (hparameter owner)

theorem Hygienic.outer_same (h : Hygienic m g) (hf : Emitted reading g m.method f)
    (hname : KeptType trait (methodTemplateNames reading m.method.templateHead) g.scopes name) :
    lookup (f.outerFrames trait.headerDecls) name =
      lookup (trait.outerFrames (methodTemplateNames reading m.method.templateHead)) name := by
  obtain ⟨hscopes,owner,htrait,hheader⟩ := hname
  have htemplates : hides (types f.templateNames) name = false := by
    rcases hf.templates with hnone | hprefixed | hmethod
    · rw [hnone]
      rfl
    · rw [hprefixed,h.unprefixed]
      rfl
    · rw [hmethod]
      exact (trait_declared_iff.mp htrait).1
  have hscope : hides f.scope name = false := by
    rcases hf.scope with hnone | hmem
    · rw [hnone]
      rfl
    · exact hscopes f.scope hmem
  rw [htrait]
  exact outer_declared_iff.mpr ⟨htemplates,hides_subset hf.methods hscope,hscope,hheader⟩

theorem Hygienic.parameter_same (h : Hygienic m g) (hf : Emitted reading g m.method f)
    {before after : List MethodParamInfo} {p : MethodParamInfo}
    (hparams : m.method.params = before ++ p :: after) (hname : name ∈ reading.typeNames p.fullDecl) :
    lookup (f.parameterFrames trait.headerDecls before) name =
      lookup (trait.parameterFrames (methodTemplateNames reading m.method.templateHead) before) name := by
  have hkept := h.paramTypes p (by simp [hparams]) name hname
  have hbefore := (m.paramsFound before p after hparams name hname).1
  have hown : hides (objects f.ownParams) name = false := by
    rcases hf.ownParams with hnone | hdata
    · rw [hnone]
      rfl
    · rw [hdata]
      exact hkept.1 _ List.mem_cons_self
  rw [GeneratedFunction.parameterFrames,Trait.parameterFrames,lookup_shown hbefore,lookup_shown hbefore,
    lookup_shown hown,h.outer_same hf hkept.tail]

theorem Hygienic.introduces (h : Hygienic m g) (hf : f ∈ generatedFunctions reading g m.method) :
    ∀ text ∈ f.introduced,
      lookup (f.parameterFrames trait.headerDecls f.params) (.plain,text) = some (.introduced text) := by
  intro text htext
  have hparams (hreserved : text ∈ ["data","T","V","implBase_","__implBase","concreteData_"]) :
      text ∉ m.method.params.map MethodParamInfo.name := by
    intro hmem
    obtain ⟨p,hp,rfl⟩ := List.mem_map.mp hmem
    exact h.params p hp hreserved
  have htemplates (hreserved : text ∈ ["implBase_","__implBase","concreteData_"]) :
      text ∉ methodTemplateNames reading m.method.templateHead :=
    fun hmem => h.templates text hmem hreserved
  rw [introduced_iff,(emitted_of_mem hf).params]
  simp only [generatedFunctions,List.mem_cons,List.not_mem_nil,or_false] at hf
  rcases hf with rfl | rfl | rfl | rfl | rfl | rfl
  · have hmem : text ∈ ["T","V"] := htext
    refine ⟨hparams (by simp at hmem ⊢; tauto),.inr ⟨?_,?_,?_⟩⟩
    · change text ∉ templateTypes m.method.params
      rw [h.unprefixed]
      exact List.not_mem_nil
    · intro hmethod
      have hname : text = m.method.name := of_decide_eq_true (List.mem_filter.mp hmethod).2
      exact h.name (hname ▸ hmem)
    · change text ∈ Generation.freeScope.map Prod.fst
      simpa [Generation.freeScope,types] using hmem
  · obtain rfl : text = "data" := List.mem_singleton.mp htext
    exact ⟨hparams (by simp),.inl List.mem_cons_self⟩
  · obtain rfl : text = "implBase_" := List.mem_singleton.mp htext
    refine ⟨hparams (by simp),.inr ⟨htemplates (by simp),?_,g.implBase_declared⟩⟩
    intro hmethod
    obtain ⟨method,hmethod,hname⟩ := List.mem_map.mp hmethod
    exact h.members method hmethod hname
  · obtain rfl : text = "__implBase" := List.mem_singleton.mp htext
    refine ⟨hparams (by simp),.inr ⟨htemplates (by simp),?_,g.inplaceImplBase_declared⟩⟩
    intro hmethod
    obtain ⟨method,hmethod,hname⟩ := List.mem_map.mp hmethod
    obtain ⟨hmethod,htaken⟩ := List.mem_filter.mp hmethod
    simp [hname,h.calls method hmethod hname] at htaken
  · obtain rfl : text = "concreteData_" := List.mem_singleton.mp htext
    exact ⟨hparams (by simp),.inr ⟨htemplates (by simp),List.not_mem_nil,g.concreteData_declared⟩⟩
  · obtain rfl : text = "concreteData_" := List.mem_singleton.mp htext
    exact ⟨hparams (by simp),.inr ⟨htemplates (by simp),List.not_mem_nil,g.inplaceConcreteData_declared⟩⟩

theorem Hygienic.captureFree (h : Hygienic m g) (hf : f ∈ generatedFunctions reading g m.method) :
    CaptureFree m f := by
  have hemitted := emitted_of_mem hf
  refine ⟨?_,?_,?_,h.introduces hf⟩
  · have hdata : "data" ∉ m.method.params.map MethodParamInfo.name := by
      intro hmem
      obtain ⟨p,hp,hname⟩ := List.mem_map.mp hmem
      exact h.params p hp (by simp [hname])
    rw [hemitted.params]
    rcases hemitted.ownParams with hown | hown
    · rw [hown]
      exact m.distinct
    · rw [hown]
      exact List.nodup_cons.mpr ⟨hdata,m.distinct⟩
  · rw [hemitted.returnType]
    intro name hname
    exact h.outer_same hemitted (h.returnTypes name hname)
  · rw [hemitted.params]
    intro before p after hparams name hname
    exact h.parameter_same hemitted hparams hname

theorem specialization_mem (reading : Reading) (g : Generation) (method : MethodInfo) :
    specialization method ∈ generatedFunctions reading g method :=
  List.mem_cons_of_mem _ List.mem_cons_self

theorem introduced_by_member (reading : Reading) (g : Generation) (method : MethodInfo) :
    ∀ text ∈ ["implBase_","__implBase","concreteData_"], ∃ f ∈ generatedFunctions reading g method,
      text ∈ f.introduced ∧ f.ownParams = [] ∧
        f.templateNames = methodTemplateNames reading method.templateHead := by
  intro text htext
  simp only [List.mem_cons,List.not_mem_nil,or_false] at htext
  rcases htext with rfl | rfl | rfl
  · exact ⟨typeclassForwarder reading g method,by simp [generatedFunctions],List.mem_cons_self,rfl,rfl⟩
  · exact ⟨inplaceTypeclassForwarder reading g method,by simp [generatedFunctions],List.mem_cons_self,
      rfl,rfl⟩
  · exact ⟨typeclassImplOverride reading g method,by simp [generatedFunctions],List.mem_cons_self,rfl,rfl⟩

theorem introduced_by (reading : Reading) (g : Generation) (method : MethodInfo) :
    ∀ text ∈ ["data","T","V","implBase_","__implBase","concreteData_"],
      ∃ f ∈ generatedFunctions reading g method, text ∈ f.introduced := by
  intro text htext
  rcases List.mem_cons.mp htext with rfl | htext
  · exact ⟨specialization method,specialization_mem reading g method,List.mem_cons_self⟩
  · have hsplit : text ∈ ["T","V"] ∨ text ∈ ["implBase_","__implBase","concreteData_"] :=
      List.mem_append.mp htext
    rcases hsplit with hfree | hmember
    · exact ⟨freeTemplate method,List.mem_cons_self,hfree⟩
    · obtain ⟨f,hf,hintroduced,-⟩ := introduced_by_member reading g method text hmember
      exact ⟨f,hf,hintroduced⟩

theorem scope_used (reading : Reading) (g : Generation) (method : MethodInfo) :
    ∀ names ∈ g.scopes, ∃ f ∈ generatedFunctions reading g method, f.scope = names := by
  intro names hnames
  simp only [Generation.scopes,List.mem_cons,List.not_mem_nil,or_false] at hnames
  simp only [generatedFunctions,List.exists_mem_cons_iff]
  rcases hnames with rfl | rfl | rfl | rfl | rfl
  · exact .inl rfl
  · exact .inr (.inr (.inl rfl))
  · exact .inr (.inr (.inr (.inl rfl)))
  · exact .inr (.inr (.inr (.inr (.inl rfl))))
  · exact .inr (.inr (.inr (.inr (.inr (.inl rfl)))))

-- The explicit specialization reads a type with nothing around it but the namespaces.
theorem keptType_of_same (hfound : (lookup (trait.outerFrames
      (methodTemplateNames reading m.method.templateHead)) name).isSome)
    (hsame : ∀ f ∈ generatedFunctions reading g m.method, lookup (f.outerFrames trait.headerDecls) name =
      lookup (trait.outerFrames (methodTemplateNames reading m.method.templateHead)) name) :
    KeptType trait (methodTemplateNames reading m.method.templateHead) g.scopes name := by
  have hspecialization := hsame (specialization m.method) (specialization_mem reading g m.method)
  have houter : lookup ((specialization m.method).outerFrames trait.headerDecls) name =
      lookup (declaredFrames trait.headerDecls generatedScope) name := by
    rw [GeneratedFunction.outerFrames,lookup_shown rfl,lookup_shown rfl,lookup_shown rfl]
  rw [houter,lookup_declaredFrames] at hspecialization
  rw [← hspecialization,Option.isSome_map] at hfound
  obtain ⟨owner,howner⟩ := Option.isSome_iff_exists.mp hfound
  rw [howner] at hspecialization
  refine ⟨?_,owner,hspecialization.symm,howner⟩
  intro names hnames
  obtain ⟨f,hf,rfl⟩ := scope_used reading g m.method names hnames
  have hf := hsame f hf
  rw [← hspecialization] at hf
  exact (outer_declared_iff.mp hf).2.2.1

theorem shown_of_same {before after : List MethodParamInfo} {p : MethodParamInfo} (hc : CaptureFree m f)
    (hparams : m.method.params = before ++ p :: after) (hf : Emitted reading g m.method f)
    (hname : name ∈ reading.typeNames p.fullDecl) :
    hides (objects f.ownParams) name = false ∧ lookup (f.outerFrames trait.headerDecls) name =
      lookup (trait.outerFrames (methodTemplateNames reading m.method.templateHead)) name := by
  have hbefore := (m.paramsFound before p after hparams name hname).1
  have hsame := hc.paramTypes before p after (hf.params.trans hparams) name hname
  rw [GeneratedFunction.parameterFrames,Trait.parameterFrames,lookup_shown hbefore,
    lookup_shown hbefore] at hsame
  cases hown : hides (objects f.ownParams) name with
  | true =>
    rw [lookup_hidden hown] at hsame
    exact absurd hsame.symm (trait_not_introduced _ _)
  | false =>
    rw [lookup_shown hown] at hsame
    exact ⟨rfl,hsame⟩

section Converse

variable (h : ∀ f ∈ generatedFunctions reading g m.method, CaptureFree m f)
include h

theorem params_of_captureFree : ∀ p ∈ m.method.params,
    p.name ∉ ["data","T","V","implBase_","__implBase","concreteData_"] := by
  intro p hp hreserved
  obtain ⟨f,hf,hintroduced⟩ := introduced_by reading g m.method p.name hreserved
  have hlookup := (h f hf).introduced p.name hintroduced
  rw [introduced_iff,(emitted_of_mem hf).params] at hlookup
  exact hlookup.1 (List.mem_map_of_mem hp)

theorem templates_of_captureFree : ∀ name ∈ methodTemplateNames reading m.method.templateHead,
    name ∉ ["implBase_","__implBase","concreteData_"] := by
  intro name hname hreserved
  obtain ⟨f,hf,hintroduced,hown,htemplates⟩ := introduced_by_member reading g m.method name hreserved
  have hlookup := (h f hf).introduced name hintroduced
  rw [introduced_iff,hown,htemplates] at hlookup
  rcases hlookup.2 with hnone | ⟨hnot,-⟩
  · cases hnone
  · exact hnot hname

theorem member_introduced {text : String} (hf : f ∈ generatedFunctions reading g m.method)
    (hown : f.ownParams = []) (htext : text ∈ f.introduced) : text ∉ f.methods := by
  have hlookup := (h f hf).introduced text htext
  rw [introduced_iff,hown] at hlookup
  rcases hlookup.2 with hnone | ⟨-,hnot,-⟩
  · cases hnone
  · exact hnot

theorem name_of_captureFree : m.method.name ∉ ["T","V"] := by
  intro hname
  have hfree : freeTemplate m.method ∈ generatedFunctions reading g m.method := List.mem_cons_self
  exact member_introduced h hfree rfl hname (List.mem_filter.mpr ⟨hname,decide_eq_true rfl⟩)

theorem members_of_captureFree : ∀ other ∈ g.wrapped, other.name ≠ "implBase_" := by
  intro other hother hname
  have hforwarder : typeclassForwarder reading g m.method ∈ generatedFunctions reading g m.method := by
    simp [generatedFunctions]
  refine member_introduced h hforwarder rfl List.mem_cons_self ?_
  exact List.mem_map.mpr ⟨other,hother,hname⟩

theorem calls_of_captureFree :
    ∀ other ∈ g.wrapped, other.name = "__implBase" → takesCall reading m.method other = false := by
  intro other hother hname
  have hforwarder : inplaceTypeclassForwarder reading g m.method ∈
      generatedFunctions reading g m.method := by
    simp [generatedFunctions]
  rw [Bool.eq_false_iff]
  intro htaken
  refine member_introduced h hforwarder rfl List.mem_cons_self ?_
  exact List.mem_map.mpr ⟨other,List.mem_filter.mpr ⟨hother,by simp [htaken]⟩,hname⟩

theorem hygienic_of_captureFree : Hygienic m g := by
  refine ⟨params_of_captureFree h,templates_of_captureFree h,name_of_captureFree h,
    members_of_captureFree h,calls_of_captureFree h,?_,?_⟩
  · intro name hname
    refine keptType_of_same (m.returnFound name hname) fun f hf => ?_
    exact (h f hf).returnTypes name (by rwa [(emitted_of_mem hf).returnType])
  · intro p hp name hname
    obtain ⟨before,after,hparams⟩ := List.append_of_mem hp
    have hsame (f : GeneratedFunction) (hf : f ∈ generatedFunctions reading g m.method) :=
      shown_of_same (h f hf) hparams (emitted_of_mem hf) hname
    have hfound := (m.paramsFound before p after hparams name hname).2
    obtain ⟨hscopes,howner⟩ := keptType_of_same hfound fun f hf => (hsame f hf).2
    have hdata : hides (objects ["data"]) name = false :=
      (hsame (specialization m.method) (specialization_mem reading g m.method)).1
    refine ⟨?_,howner⟩
    intro names hnames
    rcases List.mem_cons.mp hnames with rfl | hnames
    · exact hdata
    · exact hscopes names hnames

end Converse

end Hygienic

theorem captureFree_iff {reading : Reading} {trait : Trait} (m : TraitMethod reading trait)
    (g : Generation) : (∀ f ∈ generatedFunctions reading g m.method, CaptureFree m f) ↔ Hygienic m g :=
  ⟨hygienic_of_captureFree,fun h _ hf => h.captureFree hf⟩

def castReading : Reading where
  typeNames _ := []
  templateNames _ := []
  optional _ := false
  deducible _ := false

def castable : Trait where
  decls := [⟨[],"Castable",.typeName⟩]
  later := []
  scope := []
  members := [("Castable",.typeName),("cast",.otherName)]

def castInfo : MethodInfo where
  name := "cast"
  returnType := "void"
  params := [⟨⟨none⟩,"int data","data"⟩]
  tplParams := []
  isTemplate := false
  isImplicit := false
  isOperator := false
  isCtor := false
  isDtor := false
  isVirtual := true
  isConst := true
  isNoExcept := true
  isPure := true
  isDeleted := false
  isDefault := false
  body := none

def cast : TraitMethod castReading castable where
  method := castInfo
  distinct := List.pairwise_singleton _ _
  templated := fun _ hp _ htype => by
    obtain rfl := List.mem_singleton.mp hp
    cases htype
  returnFound := fun _ hname => absurd hname List.not_mem_nil
  paramsFound := fun _ _ _ _ _ hname => absurd hname List.not_mem_nil

def castGeneration : Generation := ⟨false,[castInfo],false,[castInfo]⟩

theorem specialization_declares_data_twice :
    ¬ ∀ f ∈ generatedFunctions castReading castGeneration cast.method, CaptureFree cast f := by
  intro h
  have hspecialization : CaptureFree cast (specialization castInfo) :=
    h _ (specialization_mem castReading castGeneration castInfo)
  have hnodup : ["data","data"].Nodup := hspecialization.distinct
  simp at hnodup

end FlexTypeclass.Codegen
