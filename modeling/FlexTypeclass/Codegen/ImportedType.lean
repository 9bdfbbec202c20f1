import FlexTypeclass.Codegen.Resolution
import FlexTypeclass.Spelling.Keys

namespace FlexTypeclass.Codegen
open Lib Spelling

-- `read` is how the compiler reads the text of a base specifier, `cls` the class that the text and the
-- printed type name.
structure BaseSpecifier (read : Text → Option Path) (scopes globals : Scopes) where
  sourceText : Text
  spelled : Path
  type : ClassType
  cls : Path
  closed : Closed sourceText
  reads : read sourceText = some spelled
  resolves : resolvePath scopes .base spelled = some cls
  printed : resolvePath globals .plain type.path = some cls

structure AnnotatedStruct (read : Text → Option Path) (evaluate : Expr → Option Expr) where
  decls : List Declaration
  later : List Declaration
  scope : Owner
  base : BaseSpecifier read (visibleFrom evaluate decls scope) (visibleFrom evaluate decls [])
  bases : List (BaseSpecifier read (visibleFrom evaluate decls scope) (visibleFrom evaluate decls []))

def baseClassesCode (sourceTexts : List Text) : Text :=
  (sourceTexts.foldl (fun code sourceText => code ++ (sourceText ++ [kSingleComma])) []).dropLast

theorem typeclass_free : "Typeclass" ∉ keywords := by decide

theorem inplaceTypeclass_free : "InplaceTypeclass" ∉ keywords := by decide

def wrappers : List Atom := [⟨"Typeclass",typeclass_free,rfl⟩,⟨"InplaceTypeclass",inplaceTypeclass_free,rfl⟩]

-- A class is declared in itself, and `type` before its bases are named.
def wrapperDecls (wrapper : Atom) : List Declaration :=
  [⟨[],"morph",.namespaceName⟩,⟨[morph],"generated",.namespaceName⟩,
    ⟨generatedScope,wrapper.text,.typeName⟩,⟨generatedScope ++ [wrapper],wrapper.text,.typeName⟩,
    ⟨generatedScope ++ [wrapper],"type",.typeName⟩]

namespace AnnotatedStruct

variable {read : Text → Option Path} {evaluate : Expr → Option Expr}
  (node : AnnotatedStruct read evaluate)

abbrev scopes : Scopes := visibleFrom evaluate node.decls node.scope

def baseSpecifiers : List (BaseSpecifier read node.scopes (visibleFrom evaluate node.decls [])) :=
  node.base :: node.bases

def types : List ClassType := node.baseSpecifiers.map BaseSpecifier.type

def headerScopes (wrapper : Atom) : Scopes :=
  visibleFrom evaluate (node.decls ++ (node.later ++ wrapperDecls wrapper)) (generatedScope ++ [wrapper])

def importedBases (wrapper : Atom) : List (Option Path) :=
  (splitTop Lexeme.bracket 0 (baseClassesCode (node.baseSpecifiers.map BaseSpecifier.sourceText))).map
    fun piece => (read piece).bind (resolvePath (node.headerScopes wrapper) .base)

structure ImportsBases (wrapper : Atom) : Prop where
  same : node.importedBases wrapper = node.baseSpecifiers.map (fun b => some b.cls)
  entries : splitTop Lexeme.bracket 0 (fullBaseType node.types) =
    node.baseSpecifiers.map (fun b => b.type.path.print (printingPolicy .default))

end AnnotatedStruct

theorem baseClassesCode_eq (sourceTexts : List Text) : baseClassesCode sourceTexts = commas sourceTexts := by
  have hfold := dropLast_foldl kSingleComma id sourceTexts
  rw [List.map_id] at hfold
  exact hfold

theorem fullBaseType_entries (base : ClassType) (bases : List ClassType) :
    splitTop Lexeme.bracket 0 (fullBaseType (base :: bases)) =
      (base :: bases).map (fun c => c.path.print (printingPolicy .default)) := by
  rw [fullBaseType_eq]
  exact splitTop_commas (by simp) (closed_printed _ (base :: bases))

section Imported

variable {read : Text → Option Path} {evaluate : Expr → Option Expr}
  (node : AnnotatedStruct read evaluate) (wrapper : Atom)

theorem header_extended : node.scopes.Extended (node.headerScopes wrapper) :=
  fun _ _ h => declaresName_append _ h

theorem importedBases_eq : node.importedBases wrapper = node.baseSpecifiers.map
    (fun b => resolvePath (node.headerScopes wrapper) .base b.spelled) := by
  have hclosed : ∀ q ∈ node.baseSpecifiers.map BaseSpecifier.sourceText, Closed q := by
    intro q hq
    obtain ⟨b,-,rfl⟩ := List.mem_map.mp hq
    exact b.closed
  rw [AnnotatedStruct.importedBases,baseClassesCode_eq,
    splitTop_commas (by simp [AnnotatedStruct.baseSpecifiers]) hclosed,List.map_map]
  refine List.map_congr_left fun b _ => ?_
  simp [b.reads]

theorem imports_same_iff : node.importedBases wrapper = node.baseSpecifiers.map (fun b => some b.cls) ↔
    ∀ b ∈ node.baseSpecifiers, agreePath node.scopes (node.headerScopes wrapper) .base b.spelled := by
  rw [importedBases_eq,List.map_inj_left]
  exact forall₂_congr fun b _ => resolvePath_iff (header_extended node wrapper) b.resolves

theorem imports_entries : splitTop Lexeme.bracket 0 (fullBaseType node.types) =
    node.baseSpecifiers.map (fun b => b.type.path.print (printingPolicy .default)) := by
  have hentries := fullBaseType_entries node.base.type (node.bases.map BaseSpecifier.type)
  rw [← List.map_cons,List.map_map] at hentries
  exact hentries

end Imported

theorem importedType_iff {read : Text → Option Path} {evaluate : Expr → Option Expr}
    (node : AnnotatedStruct read evaluate) :
    (∀ wrapper ∈ wrappers, node.ImportsBases wrapper) ↔
      ∀ wrapper ∈ wrappers, ∀ b ∈ node.baseSpecifiers,
        agreePath node.scopes (node.headerScopes wrapper) .base b.spelled := by
  refine forall₂_congr fun wrapper _ => ?_
  rw [← imports_same_iff]
  exact ⟨AnnotatedStruct.ImportsBases.same,fun h => ⟨h,imports_entries node⟩⟩

theorem shapes_free : "shapes" ∉ keywords := by decide

theorem drawableName_free : "Drawable" ∉ keywords := by decide

def shapes : Atom := ⟨"shapes",shapes_free,rfl⟩

def drawableName : Atom := ⟨"Drawable",drawableName_free,rfl⟩

def shapesDecls : List Declaration := [⟨[],"shapes",.namespaceName⟩,⟨[shapes],"Drawable",.typeName⟩]

def readDrawable (text : Text) : Option Path :=
  if text = [.word "public",.blank,.word "Drawable"] then some (.last drawableName .none) else none

-- No constant is written in the example.
def noConstants : Expr → Option Expr := fun _ => none

def publicDrawable : BaseSpecifier readDrawable (visibleFrom noConstants shapesDecls [shapes])
    (visibleFrom noConstants shapesDecls []) where
  sourceText := [.word "public",.blank,.word "Drawable"]
  spelled := .last drawableName .none
  type := ⟨some .ttkStruct,.scope shapes .none (.last drawableName .none),ttkStruct_derivable⟩
  cls := .scope shapes .none (.last drawableName .none)
  closed := rfl
  reads := rfl
  resolves := rfl
  printed := rfl

def shapesStruct : AnnotatedStruct readDrawable noConstants := ⟨shapesDecls,[],[shapes],publicDrawable,[]⟩

theorem unqualified_base_lost : (∀ wrapper ∈ wrappers, shapesStruct.importedBases wrapper = [none]) ∧
    ¬ ∀ wrapper ∈ wrappers, shapesStruct.ImportsBases wrapper := by
  have hlost : ∀ wrapper ∈ wrappers, shapesStruct.importedBases wrapper = [none] := by
    intro wrapper hwrapper
    rw [wrappers,List.mem_cons,List.mem_singleton] at hwrapper
    rcases hwrapper with rfl | rfl <;> rfl
  refine ⟨hlost,fun h => ?_⟩
  have hmem : (⟨"Typeclass",typeclass_free,rfl⟩ : Atom) ∈ wrappers := by simp [wrappers]
  have hsame := (h _ hmem).same
  rw [hlost _ hmem] at hsame
  cases (List.cons.inj hsame).1

end FlexTypeclass.Codegen
