import FlexTypeclass.Lib.Join
import FlexTypeclass.Codegen.Files

namespace FlexTypeclass.Codegen
open Lib Spelling

section Loops

variable {π : Type} (decl : π → List Char)

def joinParamsFrom (methodParamsSize : Nat) : Nat → List π → List Char
  | _, [] => []
  | paramIter, param :: params =>
    decl param ++ (if paramIter + 1 ≠ methodParamsSize then textChars kSeparatorCommaAndWhitespace else []) ++
      joinParamsFrom methodParamsSize (paramIter + 1) params

def joinParams (params : List π) : List Char := joinParamsFrom decl params.length 0 params

end Loops

def expandTemplateNames (params : List String) : List Char := joinParams String.toList params

def methodParamDecls (params : List MethodParamInfo) : List Char :=
  joinParams (fun param => param.fullDecl.toList) params

-- What stands between the parentheses of a free function.
def parameterList (first : List Char) (params : List MethodParamInfo) : List Char :=
  first ++ (if params.length ≠ 0 then ", ".toList ++ methodParamDecls params else [])

def freeFunctionParameters (params : List MethodParamInfo) : List Char :=
  parameterList "const V&".toList params

def specializationParameters (implTypeclassName : List Char) (params : List MethodParamInfo) : List Char :=
  parameterList ("const ".toList ++ implTypeclassName ++ "& data".toList) params

def charBracket (c : Char) : Bracket := Lexeme.bracket (.sym c)

def parameterEntries (text : List Char) : List (List Char) := listEntries charBracket Char.isWhitespace text

structure Declared (decl : List Char) : Prop where
  nonempty : decl ≠ []
  balanced : Balanced charBracket 0 decl

structure Separable (decl : List Char) : Prop where
  nested : Neutral charBracket 0 decl
  first : ∀ c, decl.head? = some c → c.isWhitespace = false
  last : ∀ c, decl.getLast? = some c → c.isWhitespace = false

structure JoinsWithoutLoss (params : List MethodParamInfo) (tplParams : List String) : Prop where
  declarations : parameterEntries (methodParamDecls params) = params.map (fun param => param.fullDecl.toList)
  arity : (parameterEntries (freeFunctionParameters params)).length = params.length + 1
  nonempty : ∀ entry ∈ parameterEntries (freeFunctionParameters params), entry ≠ []
  names : parameterEntries (expandTemplateNames tplParams) = tplParams.map String.toList

section Joined

variable {π : Type} {decl : π → List Char}

theorem joinParamsFrom_eq {size i : Nat} (params : List π) (hsize : i + params.length = size) :
    joinParamsFrom decl size i params = List.intercalate [',',' '] (params.map decl) := by
  induction params generalizing i with
  | nil => rfl
  | cons param params ih =>
    rw [joinParamsFrom,ih (by simpa [Nat.add_assoc,Nat.add_comm 1] using hsize)]
    cases params with
    | nil =>
      have hlast : i + 1 = size := by simpa using hsize
      simp [hlast]
    | cons next params =>
      have hmore : i + 1 ≠ size := by
        rw [← hsize,List.length_cons,List.length_cons]
        omega
      simp only [if_pos hmore,List.map_cons,List.intercalate_cons_cons]
      rfl

theorem joinParams_eq (params : List π) :
    joinParams decl params = List.intercalate [',',' '] (params.map decl) :=
  joinParamsFrom_eq params (Nat.zero_add _)

theorem parameterList_eq (first : List Char) (params : List MethodParamInfo) :
    parameterList first params =
      List.intercalate [',',' '] (first :: params.map (fun param => param.fullDecl.toList)) := by
  rw [parameterList,methodParamDecls,joinParams_eq]
  cases params with
  | nil => simp
  | cons param params =>
    rw [if_pos (by simp),List.map_cons,List.intercalate_cons_cons,List.append_assoc]
    rfl

theorem comma_separates : charBracket ',' = .separator := rfl

theorem space_plain : charBracket ' ' = .plain := rfl

theorem space_white : Char.isWhitespace ' ' = true := rfl

theorem separable_iff (text : List Char) :
    Separable text ↔ Neutral charBracket 0 text ∧ trim Char.isWhitespace text = text := by
  rw [trim_eq_self_iff]
  exact ⟨fun h => ⟨h.nested,h.first,h.last⟩,fun h => ⟨h.1,h.2.1,h.2.2⟩⟩

theorem declared_map (params : List π) (h : ∀ param ∈ params, Declared (decl param)) :
    ∀ text ∈ params.map decl, text ≠ [] ∧ Balanced charBracket 0 text := by
  rw [List.forall_mem_map]
  exact fun param hparam => ⟨(h param hparam).nonempty,(h param hparam).balanced⟩

theorem entries_joinParams_iff (params : List π) (h : ∀ param ∈ params, Declared (decl param)) :
    parameterEntries (joinParams decl params) = params.map decl ↔
      ∀ param ∈ params, Separable (decl param) := by
  have hdecls := declared_map params h
  rw [parameterEntries,joinParams_eq,
    listEntries_eq_iff comma_separates space_plain space_white hdecls,List.forall_mem_map]
  exact forall₂_congr fun param _ => (separable_iff (decl param)).symm

end Joined

section Arity

variable {first : List Char} {params : List MethodParamInfo} (hfirst : first ≠ [])
  (hnested : Neutral charBracket 0 first) (h : ∀ param ∈ params, Declared param.fullDecl.toList)
include hfirst hnested h

theorem parameterList_declared : ∀ text ∈ first :: params.map (fun param => param.fullDecl.toList),
    text ≠ [] ∧ Balanced charBracket 0 text :=
  List.forall_mem_cons.mpr ⟨⟨hfirst,balanced_of_depth hnested⟩,declared_map params h⟩

theorem arity_iff : (parameterEntries (parameterList first params)).length = params.length + 1 ↔
    ∀ param ∈ params, Neutral charBracket 0 param.fullDecl.toList := by
  have hlength := length_listEntries_iff comma_separates space_plain space_white
    (parameterList_declared hfirst hnested h)
  rw [List.length_cons,List.length_map,List.forall_mem_cons,List.forall_mem_map] at hlength
  rw [parameterEntries,parameterList_eq,hlength]
  exact ⟨And.right,fun hparams => ⟨hnested,hparams⟩⟩

theorem parameterEntries_separable (hparams : ∀ param ∈ params, Separable param.fullDecl.toList) :
    parameterEntries (parameterList first params) =
      trim Char.isWhitespace first :: params.map (fun param => param.fullDecl.toList) := by
  have hall : ∀ text ∈ first :: params.map (fun param => param.fullDecl.toList),
      Neutral charBracket 0 text := by
    refine List.forall_mem_cons.mpr ⟨hnested,?_⟩
    rw [List.forall_mem_map]
    exact fun param hparam => (hparams param hparam).nested
  rw [parameterEntries,parameterList_eq,listEntries_neutral comma_separates space_plain space_white
    (parameterList_declared hfirst hnested h) hall,List.map_cons,List.map_map]
  refine congrArg _ (List.map_congr_left fun param hparam => ?_)
  exact ((separable_iff _).mp (hparams param hparam)).2

end Arity

section Functions

variable {params : List MethodParamInfo} (h : ∀ param ∈ params, Declared param.fullDecl.toList)
include h

theorem freeFunction_arity_iff :
    (parameterEntries (freeFunctionParameters params)).length = params.length + 1 ↔
      ∀ param ∈ params, Neutral charBracket 0 param.fullDecl.toList :=
  arity_iff (by simp) rfl h

theorem specialization_arity_iff {implTypeclassName : List Char}
    (himpl : Neutral charBracket 0 implTypeclassName) :
    (parameterEntries (specializationParameters implTypeclassName params)).length = params.length + 1 ↔
      ∀ param ∈ params, Neutral charBracket 0 param.fullDecl.toList := by
  have hconst : Neutral charBracket 0 "const ".toList := rfl
  have hdata : Neutral charBracket 0 "& data".toList := rfl
  exact arity_iff (by simp) (neutral_append (neutral_append hconst himpl) hdata) h

end Functions

theorem joinsWithoutLoss_iff (params : List MethodParamInfo) (tplParams : List String)
    (hparams : ∀ param ∈ params, Declared param.fullDecl.toList)
    (hnames : ∀ name ∈ tplParams, Declared name.toList) : JoinsWithoutLoss params tplParams ↔
      (∀ param ∈ params, Separable param.fullDecl.toList) ∧ ∀ name ∈ tplParams, Separable name.toList := by
  have hV : "const V&".toList ≠ [] := by simp
  have hVnested : Neutral charBracket 0 "const V&".toList := rfl
  have hdeclarations := entries_joinParams_iff params hparams
  have hnamesIff := entries_joinParams_iff tplParams hnames
  constructor
  · intro h
    exact ⟨hdeclarations.mp h.declarations,hnamesIff.mp h.names⟩
  · rintro ⟨hseparable,hnamesSeparable⟩
    have hentries := parameterEntries_separable hV hVnested hparams hseparable
    refine ⟨hdeclarations.mpr hseparable,?_,?_,hnamesIff.mpr hnamesSeparable⟩
    · rw [freeFunctionParameters,hentries,List.length_cons,List.length_map]
    · rw [freeFunctionParameters,hentries]
      refine List.forall_mem_cons.mpr ⟨by decide,?_⟩
      rw [List.forall_mem_map]
      exact fun param hparam => (hparams param hparam).nonempty

def namesParam : MethodParamInfo := ⟨⟨none⟩,"const std::map<int, char> &names","names"⟩

def separatorParam : MethodParamInfo := ⟨⟨none⟩,"const char *separator = \",\"","separator"⟩

def spacedParam : MethodParamInfo := ⟨⟨none⟩,"int value ","value"⟩

theorem names_declared : Declared namesParam.fullDecl.toList := ⟨by decide,by decide⟩

theorem names_separable : Separable namesParam.fullDecl.toList :=
  (separable_iff _).mpr ⟨rfl,by decide⟩

theorem typenameValue_declared : Declared "typename Value".toList := ⟨by decide,by decide⟩

theorem typenameValue_separable : Separable "typename Value".toList :=
  (separable_iff _).mpr ⟨rfl,by decide⟩

theorem joinsWithoutLoss_names : JoinsWithoutLoss [namesParam] ["typename Value"] :=
  (joinsWithoutLoss_iff [namesParam] ["typename Value"] (List.forall_mem_singleton.mpr names_declared)
    (List.forall_mem_singleton.mpr typenameValue_declared)).mpr
    ⟨List.forall_mem_singleton.mpr names_separable,List.forall_mem_singleton.mpr typenameValue_separable⟩

theorem literal_comma_splits :
    Declared separatorParam.fullDecl.toList ∧
    parameterEntries (methodParamDecls [separatorParam]) =
      ["const char *separator = \"".toList,"\"".toList] ∧
    ¬ JoinsWithoutLoss [separatorParam] [] ∧
    Declared spacedParam.fullDecl.toList ∧ ¬ JoinsWithoutLoss [spacedParam] [] := by
  refine ⟨⟨by decide,by decide⟩,by decide,fun h => ?_,⟨by decide,by decide⟩,fun h => ?_⟩
  · exact absurd h.arity (by decide)
  · exact absurd h.declarations (by decide)

end FlexTypeclass.Codegen
