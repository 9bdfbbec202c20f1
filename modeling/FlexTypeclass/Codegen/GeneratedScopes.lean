import FlexTypeclass.Codegen.NameLookup
import FlexTypeclass.Codegen.TemplateHead

namespace FlexTypeclass.Codegen
open Lib

-- How the compiler reads the texts of a method: the first names of the types that a declaration
-- writes, the names that a template head declares, whether a parameter may be left out of a call, and
-- whether a call without arguments deduces the template parameters.
structure Reading where
  typeNames : String → List (Role × String)
  templateNames : String → List String
  optional : String → Bool
  deducible : MethodInfo → Bool

inductive Entity where
  | parameter (name : String)
  | templateParameter (name : String)
  | traitMember (name : String)
  | method (name : String)
  | introduced (name : String)
  | declared (owner : Owner)
  deriving DecidableEq

def namesFrame (names : Names) (entity : String → Entity) : Frame (Role × String) Entity :=
  fun name => if hides names name then some (entity name.2) else none

def declaredFrames (decls : List Declaration) (scope : Owner) :
    List (Frame (Role × String) Entity) :=
  (scopeFrames decls scope).map fun frame name => (frame name).map .declared

def parameterNames (params : List MethodParamInfo) : Names :=
  objects (params.map MethodParamInfo.name)

def methodTemplateNames (reading : Reading) (templateHead : Option (List String)) : List String :=
  (templateHead.getD []).flatMap reading.templateNames

-- `methods` are the user's methods that stand before the generator's own names.
structure GeneratedFunction where
  ownParams : List String
  params : List MethodParamInfo
  returnType : String
  templateNames : List String
  methods : List String
  scope : Names
  introduced : List String

def GeneratedFunction.outerFrames (decls : List Declaration) (f : GeneratedFunction) :
    List (Frame (Role × String) Entity) :=
  namesFrame (types f.templateNames) .templateParameter :: namesFrame (objects f.methods) .method ::
    namesFrame f.scope .introduced :: declaredFrames decls generatedScope

def GeneratedFunction.parameterFrames (decls : List Declaration) (f : GeneratedFunction)
    (before : List MethodParamInfo) : List (Frame (Role × String) Entity) :=
  namesFrame (parameterNames before) .parameter :: namesFrame (objects f.ownParams) .introduced ::
    f.outerFrames decls

def memberNames (members : List Member) : List String :=
  members.filterMap fun
    | .clone name _ => some name
    | .moveClone name _ => some name
    | .method decl => some decl.name
    | .data name => some name
    | _ => none

def inplaceData : List String := ["BufferSize","BufferAlignment","storage_","implBase_"]

structure Generation where
  typeclassMoveOnly : Bool
  typeclassMethods : List MethodInfo
  instanceMoveOnly : Bool
  instanceMethods : List MethodInfo

namespace Generation

variable (g : Generation)

def freeScope : Names := types ["T","V"]

def typeclassScope : Names :=
  types ["Typeclass","type","typeclass"] ++
    objects ("implBase_" :: memberNames (Typeclass g.typeclassMoveOnly g.typeclassMethods))

def inplaceTypeclassScope : Names :=
  types ["InplaceTypeclass","type","typeclass"] ++
    objects ("__implBase" :: "static_validate" :: inplaceData ++
      memberNames (InplaceTypeclass g.typeclassMoveOnly g.typeclassMethods))

def typeclassImplScope : Names :=
  types ["TypeclassImpl","type","TypeclassImplBase"] ++
    objects (memberNames (TypeclassImpl g.instanceMoveOnly g.instanceMethods) ++
      memberNames (TypeclassImplBase g.typeclassMoveOnly g.typeclassMethods))

def inplaceTypeclassImplScope : Names :=
  types ["InplaceTypeclassImpl","type","InplaceTypeclassImplBase"] ++
    objects (memberNames (InplaceTypeclassImpl g.instanceMoveOnly g.instanceMethods) ++
      memberNames (InplaceTypeclassImplBase g.typeclassMoveOnly g.typeclassMethods))

def scopes : List Names :=
  [freeScope,g.typeclassScope,g.inplaceTypeclassScope,g.typeclassImplScope,g.inplaceTypeclassImplScope]

def wrapped : List MethodInfo := g.typeclassMethods.filter isTypeclassMethod

end Generation

section Functions

variable (reading : Reading) (g : Generation) (method : MethodInfo)

-- Whether the call `__implBase()` in `method` takes the user's `f`, or can not choose.
def takesCall (f : MethodInfo) : Bool :=
  f.params.all (fun p => reading.optional p.fullDecl) &&
    (if f.isTemplate then reading.deducible f && !f.isConst && !method.isConst
    else f.isConst || !method.isConst)

def heapMethods : List String := g.wrapped.map MethodInfo.name

def inplaceMethods : List String :=
  (g.wrapped.filter fun f => f.name ≠ "__implBase" || takesCall reading method f).map MethodInfo.name

-- A function template takes the name of its own template parameter.
def freeTemplate : GeneratedFunction where
  ownParams := []
  params := (freeFunction method).params
  returnType := (freeFunction method).forwarding.returnType
  templateNames := templateTypes method.params
  methods := ["T","V"].filter (· = (freeFunction method).name)
  scope := Generation.freeScope
  introduced := ["T","V"]

def specialization : GeneratedFunction where
  ownParams := ["data"]
  params := (explicitSpecialization method).params
  returnType := (explicitSpecialization method).forwarding.returnType
  templateNames := []
  methods := []
  scope := []
  introduced := ["data"]

def ofMember (decl : MethodDecl) (methods : List String) (scope : Names) (introduced : List String) :
    GeneratedFunction :=
  ⟨[],decl.params,decl.forwarding.returnType,methodTemplateNames reading decl.templateHead,methods,
    scope,introduced⟩

def typeclassForwarder : GeneratedFunction :=
  ofMember reading (wrapperMethod "implBase_" method) (heapMethods g) g.typeclassScope ["implBase_"]

def inplaceTypeclassForwarder : GeneratedFunction :=
  ofMember reading (wrapperMethod "__implBase()" method) (inplaceMethods reading g method)
    g.inplaceTypeclassScope ["__implBase"]

def typeclassImplOverride : GeneratedFunction :=
  ofMember reading (implMethod method) [] g.typeclassImplScope ["concreteData_"]

def inplaceTypeclassImplOverride : GeneratedFunction :=
  ofMember reading (implMethod method) [] g.inplaceTypeclassImplScope ["concreteData_"]

def generatedFunctions : List GeneratedFunction :=
  [freeTemplate method,specialization method,typeclassForwarder reading g method,
    inplaceTypeclassForwarder reading g method,typeclassImplOverride reading g method,
    inplaceTypeclassImplOverride reading g method]

end Functions

section Frames

variable {names : Names} {entity : String → Entity} {frames : List (Frame (Role × String) Entity)}
  {name : Role × String}

theorem lookup_hidden (h : hides names name = true) :
    lookup (namesFrame names entity :: frames) name = some (entity name.2) :=
  lookup_cons_some (if_pos h)

theorem lookup_shown (h : hides names name = false) :
    lookup (namesFrame names entity :: frames) name = lookup frames name :=
  lookup_cons_none (by rw [namesFrame,h]; rfl)

theorem hides_subset {texts : List String} {scope : Names} (hsubset : texts ⊆ scope.map Prod.fst)
    (h : hides scope name = false) : hides (objects texts) name = false := by
  obtain ⟨role,text⟩ := name
  rw [Bool.eq_false_iff] at h ⊢
  intro hhidden
  obtain ⟨entry,hentry,hsame⟩ := List.any_eq_true.mp hhidden
  obtain ⟨text',htext,rfl⟩ := List.mem_map.mp hentry
  simp only [Bool.and_eq_true,decide_eq_true_eq] at hsame
  obtain ⟨rfl,hrole⟩ := hsame
  cases role with
  | base => cases hrole
  | qualifier => cases hrole
  | plain => exact h ((hides_plain scope text').mpr (hsubset htext))

theorem freeMethods_subset (method : MethodInfo) :
    (freeTemplate method).methods ⊆ Generation.freeScope.map Prod.fst :=
  fun _ htext => (List.mem_filter.mp htext).1

theorem lookup_declaredFrames (decls : List Declaration) (scope : Owner) (name : Role × String) :
    lookup (declaredFrames decls scope) name = (lookup (scopeFrames decls scope) name).map .declared :=
  lookup_map _ _ _

theorem declared_iff {decls : List Declaration} {scope owner : Owner} :
    lookup (declaredFrames decls scope) name = some (.declared owner) ↔
      lookup (scopeFrames decls scope) name = some owner := by
  rw [lookup_declaredFrames]
  simp

theorem names_lookup_iff {e : Entity} : lookup (namesFrame names entity :: frames) name = some e ↔
    hides names name = true ∧ entity name.2 = e ∨ hides names name = false ∧ lookup frames name = some e := by
  cases hhidden : hides names name with
  | true =>
    rw [lookup_hidden hhidden]
    simp
  | false =>
    rw [lookup_shown hhidden]
    simp

theorem names_other_iff {e : Entity} (hentity : ∀ text, entity text ≠ e) :
    lookup (namesFrame names entity :: frames) name = some e ↔
      hides names name = false ∧ lookup frames name = some e := by
  rw [names_lookup_iff]
  simp [hentity]

theorem declared_not_introduced (decls : List Declaration) (scope : Owner) (text : String) :
    lookup (declaredFrames decls scope) name ≠ some (.introduced text) := by
  rw [lookup_declaredFrames]
  simp

theorem outer_declared_iff {decls : List Declaration} {f : GeneratedFunction} {owner : Owner} :
    lookup (f.outerFrames decls) name = some (.declared owner) ↔
      hides (types f.templateNames) name = false ∧ hides (objects f.methods) name = false ∧
        hides f.scope name = false ∧ lookup (scopeFrames decls generatedScope) name = some owner := by
  rw [GeneratedFunction.outerFrames,names_other_iff (by simp),names_other_iff (by simp),
    names_other_iff (by simp),declared_iff]

theorem parameter_declared_iff {decls : List Declaration} {f : GeneratedFunction}
    {before : List MethodParamInfo} {owner : Owner} :
    lookup (f.parameterFrames decls before) name = some (.declared owner) ↔
      hides (parameterNames before) name = false ∧ hides (objects f.ownParams) name = false ∧
        lookup (f.outerFrames decls) name = some (.declared owner) := by
  rw [GeneratedFunction.parameterFrames,names_other_iff (by simp),names_other_iff (by simp)]

theorem introduced_iff {decls : List Declaration} {f : GeneratedFunction} {params : List MethodParamInfo}
    {text : String} :
    lookup (f.parameterFrames decls params) (.plain,text) = some (.introduced text) ↔
      text ∉ params.map MethodParamInfo.name ∧ (text ∈ f.ownParams ∨
        text ∉ f.templateNames ∧ text ∉ f.methods ∧ text ∈ f.scope.map Prod.fst) := by
  have hparams : hides (parameterNames params) (.plain,text) = true ↔
      text ∈ params.map MethodParamInfo.name := hides_objects _ text
  rw [← hparams,← hides_objects f.ownParams,← hides_types f.templateNames,← hides_objects f.methods,
    ← hides_plain f.scope,GeneratedFunction.parameterFrames,names_other_iff (by simp),names_lookup_iff,
    GeneratedFunction.outerFrames,names_other_iff (by simp),names_other_iff (by simp),names_lookup_iff]
  have hheader : lookup (declaredFrames decls generatedScope) (.plain,text) ≠
      some (.introduced text) := declared_not_introduced _ _ text
  cases hides (objects f.ownParams) (.plain,text) with
  | true => simp
  | false => simp [hheader]

end Frames

end FlexTypeclass.Codegen
