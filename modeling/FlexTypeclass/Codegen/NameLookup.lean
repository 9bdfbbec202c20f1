import FlexTypeclass.Lib.Scopes
import FlexTypeclass.Spelling.Types
import Mathlib.Data.List.Infix

namespace FlexTypeclass.Spelling

deriving instance DecidableEq for Atom

end FlexTypeclass.Spelling

namespace FlexTypeclass.Codegen
open Lib Spelling

abbrev Owner := List Atom

inductive NameKind where
  | namespaceName
  | typeName
  | otherName
  deriving DecidableEq, Repr

structure Declaration where
  owner : Owner
  name : String
  kind : NameKind
  deriving DecidableEq

-- What a name is written for decides which declarations its lookup considers.
inductive Role where
  | base
  | qualifier
  | plain
  deriving DecidableEq, Repr

def Role.considers : Role → NameKind → Bool
  | .base,kind => kind = .typeName
  | .qualifier,kind => kind ≠ .otherName
  | .plain,_ => true

def scopeFrame (decls : List Declaration) (owner : Owner) : Frame (Role × String) Owner :=
  fun (role,name) =>
    if decls.any (fun d => d.owner = owner && d.name = name && role.considers d.kind) then some owner
    else none

def enclosing (scope : Owner) : List Owner := scope.inits.reverse

def scopeFrames (decls : List Declaration) (scope : Owner) : List (Frame (Role × String) Owner) :=
  (enclosing scope).map (scopeFrame decls)

def declaresName (decls : List Declaration) (kind : NameKind) (owner : Owner) (name : String) : Bool :=
  decls.any (fun d => d.owner = owner && d.name = name && d.kind = kind)

theorem morph_free : "morph" ∉ keywords := by decide

theorem generated_free : "generated" ∉ keywords := by decide

def morph : Atom := ⟨"morph",morph_free,rfl⟩

def generated : Atom := ⟨"generated",generated_free,rfl⟩

def generatedScope : Owner := [morph,generated]

theorem declaresName_append {decls : List Declaration} (later : List Declaration) {kind : NameKind}
    {owner : Owner} {name : String} (h : declaresName decls kind owner name = true) :
    declaresName (decls ++ later) kind owner name = true := by
  rw [declaresName] at h
  rw [declaresName,List.any_append,h,Bool.true_or]

-- The names that the header included by every generated file declares.
def typeErasureCommon : List String :=
  ["dependent_false","typename_false","TypeclassImplBase","InplaceTypeclassImplBase","TypeclassImpl",
    "InplaceTypeclassImpl","Typeclass","InplaceTypeclass","IsNotReference","bad_cast"]

def commonDecls : List Declaration :=
  ⟨[],"morph",.namespaceName⟩ :: ⟨[morph],"generated",.namespaceName⟩ ::
    typeErasureCommon.map fun name => ⟨generatedScope,name,.typeName⟩

-- The aliases that a typeclass header declares when the annotated struct has a name.
def aliasNames (targetTypeName : String) : List String :=
  if targetTypeName.isEmpty then []
  else ["InHeap" ++ targetTypeName,"InPlace" ++ targetTypeName,targetTypeName]

def aliasMacros (targetTypeName : String) : List String :=
  if targetTypeName.isEmpty then [] else ["DEFINE_" ++ targetTypeName]

abbrev Names := List (String × NameKind)

def hides (names : Names) (name : Role × String) : Bool :=
  names.any (fun d => d.1 = name.2 && name.1.considers d.2)

def objects (names : List String) : Names := names.map (fun name => (name,.otherName))

def types (names : List String) : Names := names.map (fun name => (name,.typeName))

theorem hides_plain (names : Names) (text : String) :
    hides names (.plain,text) = true ↔ text ∈ names.map Prod.fst := by
  simp [hides,Role.considers]

theorem hides_objects (names : List String) (text : String) :
    hides (objects names) (.plain,text) = true ↔ text ∈ names := by
  rw [hides_plain]
  simp [objects]

theorem hides_types (names : List String) (text : String) :
    hides (types names) (.plain,text) = true ↔ text ∈ names := by
  rw [hides_plain]
  simp [types]

end FlexTypeclass.Codegen
