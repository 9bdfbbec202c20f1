import FlexTypeclass.Codegen.GeneratedScopes
import FlexTypeclass.Codegen.Resolution
import FlexTypeclass.Spelling.Keys

namespace FlexTypeclass.Codegen
open Lib Spelling

-- A place where a generated file writes the list of the bases, with what the compiler knows there.
structure Place where
  decls : List Declaration
  macros : List String
  around : Names
  text : Text

def Scopes.hiding (scopes : Scopes) (names : Names) : Scopes where
  owner role name := if hides names (role,name) then none else scopes.owner role name
  declares := scopes.declares
  evaluate := scopes.evaluate

def freeDecls (methods : List MethodInfo) : List Declaration :=
  methods.map fun method => ⟨generatedScope,method.name,.otherName⟩

-- One typeclass header and one instance header, with anything declared between them.
structure KeyProgram where
  reading : Reading
  evaluate : Expr → Option Expr
  userDecls : List Declaration
  userMacros : List String
  generation : Generation
  targetTypeName : String
  between : List Declaration
  betweenMacros : List String
  base : ClassType
  bases : List ClassType
  found : ∀ c ∈ base :: bases, (resolvePath (visibleFrom evaluate userDecls []) .plain c.path).isSome

namespace KeyProgram

variable (P : KeyProgram)

def types : List ClassType := P.base :: P.bases

def headDecls : List Declaration := P.userDecls ++ commonDecls

def classDecls : List Declaration := P.headDecls ++ freeDecls P.generation.wrapped

def aliasDecls : List Declaration :=
  (aliasNames P.targetTypeName).map fun name => ⟨generatedScope,name,.typeName⟩

def primaryDecls (before : List MethodInfo) : List Declaration := P.headDecls ++ freeDecls before

def instanceDecls : List Declaration := P.classDecls ++ (P.aliasDecls ++ P.between)

def headPlace (before : List MethodInfo) (method : MethodInfo) : Place where
  decls := P.primaryDecls before
  macros := P.userMacros
  around := Codegen.types (templateTypes method.params ++ ["T","V"])
  text := fullCompoundId P.types

def classPlace (later : List Declaration) (around : Names) : Place where
  decls := P.classDecls ++ later
  macros := P.userMacros
  around := around
  text := fullBaseType P.types

def instancePlace (around : Names) : Place where
  decls := P.instanceDecls
  macros := P.userMacros ++ aliasMacros P.targetTypeName ++ P.betweenMacros
  around := around
  text := typeclassBasesCode P.types

def headPlaces : List Place :=
  (P.generation.wrapped.inits.zip P.generation.wrapped).map fun e => P.headPlace e.1 e.2

def converting : Names := Codegen.types ["ImplType"] ++ objects ["impl"]

-- The specialization itself, its members and the bodies of its functions.
def arounds (scope : Names) (bodies : List Names) : List Names :=
  [] :: scope :: bodies.map fun locals => locals ++ scope

def classPlaces : List Place :=
  ([] :: arounds P.generation.typeclassScope [converting] ++
    [] :: arounds P.generation.inplaceTypeclassScope [converting,objects ["rhs"]]).map (P.classPlace [])

def aliasPlaces : List Place :=
  if P.targetTypeName.isEmpty then []
  else [P.classPlace [] [],P.classPlace [⟨generatedScope,"InHeap" ++ P.targetTypeName,.typeName⟩] []]

def overrideLocals (method : MethodInfo) : Names :=
  parameterNames method.params ++ Codegen.types (methodTemplateNames P.reading method.templateHead)

def overrides : List Names := methodLoop P.generation.instanceMethods P.overrideLocals

def instancePlaces : List Place :=
  (methodLoop P.generation.instanceMethods (fun _ => []) ++
    arounds P.generation.typeclassImplScope P.overrides ++
    arounds P.generation.inplaceTypeclassImplScope (objects ["addr"] :: P.overrides)).map P.instancePlace

def places : List Place := P.headPlaces ++ P.classPlaces ++ P.aliasPlaces ++ P.instancePlaces

def globals : Scopes := visibleFrom P.evaluate P.userDecls []

def scopesAt (place : Place) : Scopes :=
  (visibleFrom P.evaluate place.decls generatedScope).hiding place.around

structure NamesBases (place : Place) : Prop where
  spelled : SpelledInOrder place.text P.types
  kept : ∀ name ∈ place.macros, .word name ∉ place.text
  found : ∀ c ∈ P.types, resolvePath (P.scopesAt place) .plain c.path = resolvePath P.globals .plain c.path

-- No macro takes a word of the list, and every name in it is found where the global namespace finds it.
structure Visible (place : Place) : Prop where
  kept : ∀ name ∈ place.macros, .word name ∉ place.text
  agree : ∀ c ∈ P.types, agreePath P.globals (P.scopesAt place) .plain c.path

structure Emitted (place : Place) : Prop where
  decls : ∃ later, place.decls = P.userDecls ++ later
  text : place.text ∈ [fullBaseType P.types,fullCompoundId P.types,typeclassBasesCode P.types]

section Emitted

variable {P}

theorem emitted_head (before : List MethodInfo) (method : MethodInfo) :
    P.Emitted (P.headPlace before method) :=
  ⟨⟨commonDecls ++ freeDecls before,by simp [headPlace,primaryDecls,headDecls]⟩,by simp [headPlace]⟩

theorem emitted_class (later : List Declaration) (around : Names) : P.Emitted (P.classPlace later around) :=
  ⟨⟨commonDecls ++ freeDecls P.generation.wrapped ++ later,by simp [classPlace,classDecls,headDecls]⟩,
    by simp [classPlace]⟩

theorem emitted_instance (around : Names) : P.Emitted (P.instancePlace around) :=
  ⟨⟨commonDecls ++ freeDecls P.generation.wrapped ++ (P.aliasDecls ++ P.between),
    by simp [instancePlace,instanceDecls,classDecls,headDecls]⟩,by simp [instancePlace]⟩

theorem emitted_of_mem {place : Place} (h : place ∈ P.places) : P.Emitted place := by
  simp only [places,List.mem_append] at h
  rcases h with ((hhead | hclass) | halias) | hinstance
  · obtain ⟨e,-,rfl⟩ := List.mem_map.mp hhead
    exact emitted_head e.1 e.2
  · obtain ⟨around,-,rfl⟩ := List.mem_map.mp hclass
    exact emitted_class [] around
  · rw [aliasPlaces] at halias
    split at halias
    · cases halias
    · rw [List.mem_cons,List.mem_singleton] at halias
      rcases halias with rfl | rfl
      · exact emitted_class _ _
      · exact emitted_class _ _
  · obtain ⟨around,-,rfl⟩ := List.mem_map.mp hinstance
    exact emitted_instance around

variable {place : Place}

theorem Emitted.extended (h : P.Emitted place) : P.globals.Extended (P.scopesAt place) := by
  obtain ⟨later,hlater⟩ := h.decls
  intro owner name hdeclared
  change declaresName place.decls .typeName owner name = true
  rw [hlater]
  exact declaresName_append later hdeclared

theorem Emitted.found_iff (h : P.Emitted place) {c : ClassType} (hc : c ∈ P.types) :
    resolvePath (P.scopesAt place) .plain c.path = resolvePath P.globals .plain c.path ↔
      agreePath P.globals (P.scopesAt place) .plain c.path := by
  obtain ⟨cls,hcls⟩ := Option.isSome_iff_exists.mp (P.found c hc)
  have hglobal : resolvePath P.globals .plain c.path = some cls := hcls
  rw [hglobal]
  exact resolvePath_iff h.extended hglobal

theorem Emitted.named_iff (h : P.Emitted place) :
    P.NamesBases place ↔ SpelledInOrder place.text P.types ∧ P.Visible place := by
  constructor
  · rintro ⟨hspelled,hkept,hfound⟩
    exact ⟨hspelled,hkept,fun c hc => (h.found_iff hc).mp (hfound c hc)⟩
  · rintro ⟨hspelled,hkept,hagree⟩
    exact ⟨hspelled,hkept,fun c hc => (h.found_iff hc).mpr (hagree c hc)⟩

theorem Emitted.spelled (h : P.Emitted place) (hspell : ∀ c ∈ P.types, c.path.unspellable = 0) :
    SpelledInOrder place.text P.types := by
  have htext := h.text
  simp only [List.mem_cons,List.not_mem_nil,or_false] at htext
  rcases htext with hfull | hcompound | hcode
  · rw [hfull,fullBaseType_eq,types,commas_spelled]
    exact spells_of_spellable _ hspell
  · rw [hcompound,fullCompoundId_eq,types,commaSeparated_spelled]
    exact spells_of_spellable _ hspell
  · rw [hcode,typeclassBasesCode_eq,types,commas_spelled]
    exact spells_of_spellable _ hspell

end Emitted

end KeyProgram

structure OneKey (P : KeyProgram) : Prop where
  fullBaseType : SpelledInOrder (fullBaseType P.types) P.types
  fullCompoundId : SpelledInOrder (fullCompoundId P.types) P.types
  typeclassBasesCode : SpelledInOrder (typeclassBasesCode P.types) P.types
  named : ∀ place ∈ P.places, P.NamesBases place

end FlexTypeclass.Codegen
