import FlexTypeclass.Codegen.SpecializationKeys
import FlexTypeclass.Dispatch.Overloads
import Mathlib.Data.List.Pairwise

namespace FlexTypeclass.Dispatch
open Lib Codegen

section Declarations

variable {K B : Type}

-- A virtual function is no template.
structure Method (B : Type) where
  info : MethodInfo
  params : List (Param B)
  declared : info.params = params.map Param.info
  plain : info.isVirtual = true → info.isTemplate = false
  deriving DecidableEq

def Method.name (m : Method B) : String := m.info.name

def Method.names (m : Method B) : List String := m.params.map Param.name

-- A function type does not keep the top-level const of a parameter.
def ParamType.adjusted (p : ParamType B) : ParamType B :=
  match p.ref with
  | .value => { p with const := false }
  | _ => p

def Method.signature (m : Method B) : String × List (ParamType B) :=
  (m.name,m.params.map fun p => p.type.adjusted)

-- `bases`, `specifiers` and `settings` are the first names that the list of the bases, their specifiers
-- and the buffer settings write. `accepted` is what the compiler says to all that is not read here: the
-- specifiers, the settings, what the methods print beside their names and types, and the parameters taken
-- by value, which must take what is forwarded to them.
structure TypeclassDecl (K B : Type) where
  key : K
  targetTypeName : String
  bases : List (Role × String)
  specifiers : List (Role × String)
  settings : List (Role × String)
  accepted : Bool
  moveOnly : Bool
  methods : List (Method B)
  wrapped : ∀ m ∈ methods, isTypeclassMethod m.info = true
  untemplated : ∀ m ∈ methods, templateTypes m.info.params = []
  distinct : methods.Pairwise (fun m n => m.signature ≠ n.signature)
  named : ∀ m ∈ methods, (m.names.filter (· ≠ "")).Nodup

-- `own` are the methods that the annotated struct itself declares, `target` the names in the text of
-- `typeclass_target`. `accepted` tells whether the concrete type can be a member that is moved and, unless
-- the instance is move-only, copied.
structure InstanceDecl (K B : Type) where
  key : K
  impl : B
  target : List (Role × String)
  accepted : Bool
  moveOnly : Bool
  own : List MethodInfo

inductive Header (K B : Type) where
  | typeclass (tc : TypeclassDecl K B)
  | typeclassInstance (inst : InstanceDecl K B)

def typeclassesOf (headers : List (Header K B)) : List (TypeclassDecl K B) :=
  headers.filterMap fun
    | .typeclass tc => some tc
    | .typeclassInstance _ => none

def instancesOf (headers : List (Header K B)) : List (K × B) :=
  headers.filterMap fun
    | .typeclass _ => none
    | .typeclassInstance inst => some (inst.key,inst.impl)

-- The generated headers in the order in which the program includes them.
structure Program (K B : Type) where
  headers : List (Header K B)
  keysDistinct : (typeclassesOf headers).Pairwise (fun s t => s.key ≠ t.key)

def Program.typeclasses (P : Program K B) : List (TypeclassDecl K B) := typeclassesOf P.headers

def Program.instances (P : Program K B) : List (K × B) := instancesOf P.headers

def TypeclassDecl.functions (tc : TypeclassDecl K B) : Names := objects (tc.methods.map Method.name)

def Header.names : Header K B → Names
  | .typeclass tc => tc.functions ++ types (aliasNames tc.targetTypeName)
  | .typeclassInstance _ => []

def Header.macros : Header K B → List String
  | .typeclass tc => aliasMacros tc.targetTypeName
  | .typeclassInstance _ => []

def declaredNames (before : List (Header K B)) : Names :=
  types typeErasureCommon ++ before.flatMap Header.names

-- `morph` holds the namespace `generated` itself.
def visibleNames (before : List (Header K B)) : Names :=
  declaredNames before ++ [("generated",.namespaceName)]

def macrosOf (before : List (Header K B)) : List String := before.flatMap Header.macros

end Declarations

section Lists

variable {K B : Type} {headers : List (Header K B)} {P : Program K B} {tc t : TypeclassDecl K B}

theorem typeclassesOf_append (before after : List (Header K B)) :
    typeclassesOf (before ++ after) = typeclassesOf before ++ typeclassesOf after :=
  List.filterMap_append

theorem mem_typeclassesOf : tc ∈ typeclassesOf headers ↔ .typeclass tc ∈ headers := by
  rw [typeclassesOf,List.mem_filterMap]
  constructor
  · rintro ⟨h,hh,heq⟩
    cases h with
    | typeclass t =>
      obtain rfl := Option.some.inj heq
      exact hh
    | typeclassInstance inst => cases heq
  · intro h
    exact ⟨_,h,rfl⟩

theorem same_of_key (ht : t ∈ P.typeclasses) (htc : tc ∈ P.typeclasses) (hkey : t.key = tc.key) : t = tc := by
  by_contra hne
  have : Std.Symm (fun s t : TypeclassDecl K B => s.key ≠ t.key) := ⟨fun _ _ h => h.symm⟩
  exact P.keysDistinct.forall ht htc hne hkey

end Lists

section Sites

variable {K B : Type}

-- Names that a header writes with the names around them in the same header.
structure Site where
  around : Names
  names : List (Role × String)

-- Neither the generated code nor a macro takes a name that is written for something of the user.
def Site.Clear (before : List (Header K B)) (site : Site) : Prop :=
  ∀ name ∈ site.names, hides (site.around ++ visibleNames before) name = false ∧
    name.2 ∉ macrosOf before

instance (before : List (Header K B)) (site : Site) : Decidable (site.Clear before) :=
  inferInstanceAs (Decidable (∀ name ∈ site.names, _ ∧ _))

def Method.sites (reading : Reading) (m : Method B) (own around : Names) : List Site :=
  ⟨around,reading.typeNames m.info.returnType⟩ ::
    (m.info.params.inits.zip m.info.params).map fun e =>
      ⟨parameterNames e.1 ++ own ++ around,reading.typeNames e.2.fullDecl⟩

namespace TypeclassDecl

variable (reading : Reading) (tc : TypeclassDecl K B)

def infos : List MethodInfo := tc.methods.map Method.info

def generation : Generation := ⟨tc.moveOnly,tc.infos,tc.moveOnly,tc.infos⟩

def typeclassImplBaseScope : Names :=
  types ["TypeclassImplBase"] ++ objects (memberNames (TypeclassImplBase tc.moveOnly tc.infos))

def inplaceTypeclassImplBaseScope : Names :=
  types ["InplaceTypeclassImplBase"] ++
    objects (memberNames (InplaceTypeclassImplBase tc.moveOnly tc.infos))

def wrapperScopes : List Names :=
  [tc.typeclassImplBaseScope,tc.generation.typeclassScope,tc.inplaceTypeclassImplBaseScope,
    tc.generation.inplaceTypeclassScope]

def implScopes : List Names :=
  [tc.generation.typeclassImplScope,tc.generation.inplaceTypeclassImplScope]

-- The free function template does not declare the template parameters of the method.
def freeSites (earlier : List (Method B)) (m : Method B) : List Site :=
  ⟨Generation.freeScope ++ objects (earlier.map Method.name),tc.bases⟩ ::
    m.sites reading [] (types (methodTemplateNames reading m.info.templateHead) ++
      (Generation.freeScope ++ objects (earlier.map Method.name)))

def baseSites : List Site :=
  (KeyProgram.arounds tc.generation.typeclassScope [KeyProgram.converting] ++
    KeyProgram.arounds tc.generation.inplaceTypeclassScope
      [KeyProgram.converting,objects ["rhs"]]).map fun around => ⟨around ++ tc.functions,tc.bases⟩

def aliasSites : List Site :=
  ((aliasNames tc.targetTypeName).take 1).map fun name => ⟨types [name] ++ tc.functions,tc.bases⟩

def wrapperSites : List Site :=
  [⟨tc.functions,[(.qualifier,"std")]⟩,⟨tc.generation.typeclassScope ++ tc.functions,tc.specifiers⟩,
    ⟨tc.generation.inplaceTypeclassScope ++ tc.functions,
      tc.specifiers ++ tc.settings ++ [(.plain,"size_t")]⟩]

def sites : List Site :=
  (tc.methods.inits.zip tc.methods).flatMap (fun e => tc.freeSites reading e.1 e.2) ++
    tc.baseSites ++ tc.aliasSites ++ tc.wrapperSites ++
    tc.methods.flatMap fun m => tc.wrapperScopes.flatMap fun scope =>
      m.sites reading [] (scope ++ tc.functions)

def instanceSites (target : List (Role × String)) : List Site :=
  ⟨[],(.qualifier,"std") :: tc.bases ++ target⟩ ::
    ⟨objects ["addr"] ++ tc.generation.inplaceTypeclassImplScope,tc.bases ++ target⟩ ::
    tc.implScopes.map (fun scope => ⟨scope,tc.bases ++ target⟩) ++
    tc.methods.flatMap fun m => m.sites reading (objects ["data"]) [] ++
      tc.implScopes.flatMap fun scope =>
        ⟨objects m.names ++ scope,tc.bases⟩ :: m.sites reading [] scope

end TypeclassDecl

end Sites

section Checks

variable {K B : Type} (L : Language B) (before : List (Header K B))

-- The common class that is no template: a function may have its name.
def plainClasses : List String := ["bad_cast"]

def Method.words (m : Method B) : List String :=
  m.name :: m.names ++ methodTemplateNames L.toReading m.info.templateHead

-- The name does not clash with the names around the declarations of the method.
def Method.Declarable (m : Method B) : Prop :=
  m.name ∉ "T" :: "V" :: "typeclass" :: inplaceData ∧
    (hides (declaredNames before) (.base,m.name) = true → m.name ∈ plainClasses) ∧
    (m.name = "__implBase" → takesCall L.toReading { m.info with isConst := false } m.info = false)

-- The parameters leave alone what the wrappers and the free function template declare.
def Method.Acceptable (m : Method B) : Prop :=
  (∀ n ∈ ["T","V"], n ∉ m.names) ∧
    (∀ n ∈ ["implBase_","__implBase"], n ∉ methodTemplateNames L.toReading m.info.templateHead) ∧
    (∀ word ∈ m.words L, word ∉ macrosOf before) ∧ m.info.isDeleted = false

-- What the instance needs of each method: a virtual function to override and names that reach the free
-- function from the override.
def TypeclassDecl.Overridable (tc : TypeclassDecl K B) (m : Method B) : Prop :=
  m.info.isVirtual = true ∧ (m.info.isPure = true ∨ m.info.body.isSome = true) ∧
    (∀ p ∈ m.params, L.optional p.info.fullDecl = false) ∧ (∀ n ∈ ["data","Typeclass"], n ∉ m.names) ∧
    (∀ scope ∈ tc.implScopes, hides (objects m.names ++ scope) (.plain,m.name) = false) ∧
    ∀ word ∈ m.words L, word ∉ macrosOf before

def TypeclassDecl.Declares (tc : TypeclassDecl K B) : Prop :=
  tc.accepted = true ∧ (∀ m ∈ tc.methods, m.Declarable L before ∧ m.Acceptable L before) ∧
    (∀ name ∈ aliasNames tc.targetTypeName, name ∉ macrosOf before ∧
      hides (declaredNames before ++ tc.functions) (.plain,name) = false) ∧
    ∀ site ∈ tc.sites L.toReading, site.Clear before

def InstanceDecl.Declares (inst : InstanceDecl K B) (tc : TypeclassDecl K B) : Prop :=
  inst.accepted = true ∧ inst.moveOnly = tc.moveOnly ∧ (∀ f ∈ inst.own, isTypeclassMethod f = false) ∧
    (∀ m ∈ tc.methods, tc.Overridable L before m) ∧
    ∀ site ∈ tc.instanceSites L.toReading inst.target, site.Clear before

section Decidability

variable {L before}

instance (m : Method B) : Decidable (m.Declarable L before) :=
  inferInstanceAs (Decidable (_ ∧ _ ∧ _))

instance (m : Method B) : Decidable (m.Acceptable L before) :=
  inferInstanceAs (Decidable (_ ∧ _ ∧ _ ∧ _))

instance (tc : TypeclassDecl K B) (m : Method B) : Decidable (tc.Overridable L before m) :=
  inferInstanceAs (Decidable (_ ∧ _ ∧ _ ∧ _ ∧ _ ∧ _))

instance (tc : TypeclassDecl K B) : Decidable (tc.Declares L before) :=
  inferInstanceAs (Decidable (_ ∧ _ ∧ _ ∧ _))

instance (inst : InstanceDecl K B) (tc : TypeclassDecl K B) : Decidable (inst.Declares L before tc) :=
  inferInstanceAs (Decidable (_ ∧ _ ∧ _ ∧ _ ∧ _))

end Decidability

end Checks

end FlexTypeclass.Dispatch
