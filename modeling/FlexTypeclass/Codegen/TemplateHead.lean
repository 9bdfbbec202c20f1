import FlexTypeclass.Codegen.Overrides
import FlexTypeclass.Spelling.Keys

namespace FlexTypeclass.Codegen
open Lib Spelling

def kSeparatorCommaAndWhitespace : Text := [.sym ',',.blank]

def typename (name : String) : Text := [.word "typename",.blank,.word name]

def expandTemplateTypesFrom (methodParamsSize : Nat) : Nat → List MethodParamInfo → Text
  | _, [] => []
  | paramIter, param :: params =>
    (match param.type.getAsTemplateParamType with
      | some decl => typename decl ++
          (if paramIter + 1 ≠ methodParamsSize then kSeparatorCommaAndWhitespace else [])
      | none => []) ++ expandTemplateTypesFrom methodParamsSize (paramIter + 1) params

def expandTemplateTypes (params : List MethodParamInfo) : Text :=
  expandTemplateTypesFrom params.length 0 params

def stdName (name : String) : Text := [.word "std",.sym ':',.sym ':',.word name]

def memberName (name : String) : Text := [.sym ':',.sym ':',.word name]

def angled (inner : Text) : Text := .sym '<' :: (inner ++ [.sym '>'])

def typeclassOf (bases : Text) : Text := .word "Typeclass" :: angled bases

def sameAsT (fullCompoundId : Text) : Text :=
  stdName "is_same" ++ angled (typeclassOf fullCompoundId ++ kSeparatorCommaAndWhitespace ++ [.word "T"])

def enableIfGuard (fullCompoundId : Text) : Text :=
  [.word "typename",.blank] ++ stdName "enable_if" ++ angled (sameAsT fullCompoundId ++ memberName "value") ++
    memberName "type" ++ [.sym '*',.blank,.sym '=',.blank,.word "nullptr"]

-- What stands between `template<` and `>` in front of a free function.
def templateHead (fullCompoundId : Text) (params : List MethodParamInfo) : Text :=
  let tplTypenames := expandTemplateTypes params
  (if tplTypenames.isEmpty then [] else tplTypenames ++ [.sym ',']) ++
    ([.blank] ++ typename "T" ++ kSeparatorCommaAndWhitespace ++ typename "V" ++
      kSeparatorCommaAndWhitespace ++ enableIfGuard fullCompoundId)

def entries (text : Text) : List Text := (splitTop Lexeme.bracket 0 text).map strip

def templateTypes (params : List MethodParamInfo) : List String :=
  params.filterMap (fun param => param.type.getAsTemplateParamType)

def endsInTemplateType (params : List MethodParamInfo) : Bool :=
  (params.getLast?.bind (fun param => param.type.getAsTemplateParamType)).isSome

def danglingComma (params : List MethodParamInfo) : Bool :=
  !(templateTypes params).isEmpty && !endsInTemplateType params

theorem blank_plain (l : Lexeme) (h : decide (l ≠ .blank) = false) : l.bracket = .plain := by
  obtain rfl : l = .blank := by simpa using h
  rfl

theorem entries_strip (text : Text) : entries text = splitTop Lexeme.bracket 0 (strip text) :=
  map_filter_splitTop blank_plain 0 text

theorem closed_strip {text : Text} (h : Closed text) : Closed (strip text) :=
  (depthAfter_filter blank_plain 0 text).trans h

theorem commas_cons (q : Text) {qs : List Text} (h : qs ≠ []) :
    commas (q :: qs) = q ++ .sym ',' :: commas qs := by
  cases qs with
  | nil => exact absurd rfl h
  | cons r qs => rw [commas,commas,List.intercalate_cons_cons,List.append_assoc]; rfl

theorem commas_append {ps qs : List Text} (hp : ps ≠ []) (hq : qs ≠ []) :
    commas (ps ++ qs) = commas ps ++ .sym ',' :: commas qs := by
  induction ps with
  | nil => exact absurd rfl hp
  | cons p ps ih =>
    cases ps with
    | nil => simpa [commas] using commas_cons p hq
    | cons r ps =>
      rw [List.cons_append,commas_cons p (by simp),ih (by simp),commas_cons p (by simp)]
      simp

section Expand

variable {param : MethodParamInfo} {params : List MethodParamInfo}

theorem templateTypes_cons_some {decl : String} (h : param.type.getAsTemplateParamType = some decl) :
    templateTypes (param :: params) = decl :: templateTypes params := by
  simp [templateTypes,h]

theorem templateTypes_cons_none (h : param.type.getAsTemplateParamType = none) :
    templateTypes (param :: params) = templateTypes params := by
  simp [templateTypes,h]

theorem endsInTemplateType_cons (h : params ≠ []) :
    endsInTemplateType (param :: params) = endsInTemplateType params := by
  cases params with
  | nil => exact absurd rfl h
  | cons q params => simp [endsInTemplateType]

theorem endsInTemplateType_none (h : templateTypes params = []) : endsInTemplateType params = false := by
  rw [endsInTemplateType]
  rcases hlast : params.getLast? with _ | p
  · rfl
  · have hp := List.mem_of_getLast? hlast
    simpa [templateTypes,List.filterMap_eq_nil_iff] using List.filterMap_eq_nil_iff.mp h p hp

def strippedTypename (name : String) : Text := [.word "typename",.word name]

theorem strip_typename (name : String) : strip (typename name) = strippedTypename name := rfl

-- Without blanks: the entries joined by commas, and one comma too many when an ordinary parameter is last.
theorem strip_expandFrom {size i : Nat} (params : List MethodParamInfo)
    (hsize : i + params.length = size) :
    strip (expandTemplateTypesFrom size i params) =
      commas ((templateTypes params).map strippedTypename) ++
        (if danglingComma params then [.sym ','] else []) := by
  induction params generalizing i with
  | nil => rfl
  | cons p params ih =>
    have hrest := ih (i := i + 1) (by simpa [Nat.add_assoc,Nat.add_comm 1] using hsize)
    rw [expandTemplateTypesFrom,strip_append,hrest]
    cases htype : p.type.getAsTemplateParamType with
    | none =>
      rw [templateTypes_cons_none htype,strip_nil,List.nil_append,danglingComma,danglingComma,
        templateTypes_cons_none htype]
      rcases eq_or_ne params [] with rfl | hne
      · rfl
      · rw [endsInTemplateType_cons hne]
    | some decl =>
      have hsep : (i + 1 ≠ size) ↔ params ≠ [] := by
        rw [← hsize,List.length_cons,← List.length_pos_iff]
        omega
      rw [templateTypes_cons_some htype,danglingComma,danglingComma,templateTypes_cons_some htype,
        strip_append,strip_typename,List.map_cons]
      rcases eq_or_ne params [] with rfl | hne
      · rw [if_neg (by simpa using hsep)]
        simp [commas,templateTypes,endsInTemplateType,htype]
      · rw [if_pos (hsep.mpr hne),endsInTemplateType_cons hne]
        rcases eq_or_ne (templateTypes params) [] with hnone | hsome
        · simp [hnone,endsInTemplateType_none hnone,commas,kSeparatorCommaAndWhitespace]
        · rw [commas_cons _ (by simpa using hsome)]
          simp [hsome,kSeparatorCommaAndWhitespace]

theorem strip_expandTemplateTypes (params : List MethodParamInfo) :
    strip (expandTemplateTypes params) =
      commas ((templateTypes params).map strippedTypename) ++
        (if danglingComma params then [.sym ','] else []) :=
  strip_expandFrom params (Nat.zero_add _)

theorem expandTemplateTypes_empty : expandTemplateTypes params = [] ↔ templateTypes params = [] := by
  have hfrom (size i : Nat) : expandTemplateTypesFrom size i params = [] ↔ templateTypes params = [] := by
    induction params generalizing i with
    | nil => simp [expandTemplateTypesFrom,templateTypes]
    | cons p params ih =>
      rw [expandTemplateTypesFrom]
      cases htype : p.type.getAsTemplateParamType with
      | none => simpa [templateTypes_cons_none htype] using ih (i + 1)
      | some decl => simp [templateTypes_cons_some htype,typename]
  exact hfrom params.length 0

end Expand

section Head

variable {fullCompoundId : Text} (params : List MethodParamInfo)

def ownEntries (fullCompoundId : Text) : List Text :=
  [strippedTypename "T",strippedTypename "V",strip (enableIfGuard fullCompoundId)]

def headEntries (fullCompoundId : Text) (params : List MethodParamInfo) : List Text :=
  (templateTypes params).map strippedTypename ++ (if danglingComma params then [[]] else []) ++
    ownEntries fullCompoundId

theorem strip_templateHead : strip (templateHead fullCompoundId params) =
    commas (headEntries fullCompoundId params) := by
  have htail : strip ([.blank] ++ typename "T" ++ kSeparatorCommaAndWhitespace ++ typename "V" ++
      kSeparatorCommaAndWhitespace ++ enableIfGuard fullCompoundId) =
      commas (ownEntries fullCompoundId) := by
    simp [ownEntries,commas_cons,kSeparatorCommaAndWhitespace,strip_typename]
    simp [commas]
  rw [templateHead,strip_append,htail,headEntries]
  rcases eq_or_ne (templateTypes params) [] with hnone | hsome
  · have hempty : expandTemplateTypes params = [] := expandTemplateTypes_empty.mpr hnone
    simp [hempty,hnone,danglingComma]
  · have hempty : (expandTemplateTypes params).isEmpty = false := by
      rw [List.isEmpty_eq_false_iff]
      exact fun h => hsome (expandTemplateTypes_empty.mp h)
    have hne : (templateTypes params).map strippedTypename ≠ [] := by simpa using hsome
    have hown : ownEntries fullCompoundId ≠ [] := by simp [ownEntries]
    rw [hempty,if_neg (by simp),strip_append,strip_expandTemplateTypes]
    cases danglingComma params with
    | false => simp [commas_append hne hown]
    | true =>
      have hcons : [] :: ownEntries fullCompoundId ≠ [] := by simp
      simp [commas_append hne hcons,commas_cons [] hown]

theorem closed_angled {inner : Text} (h : Neutral Lexeme.bracket 1 inner) : Closed (angled inner) :=
  closed_group rfl rfl h

theorem closed_typeclassOf {bases : Text} (h : Neutral Lexeme.bracket 1 bases) :
    Closed (typeclassOf bases) :=
  closed_cons_word "Typeclass" (closed_angled h)

theorem closed_sameAsT (h : Neutral Lexeme.bracket 1 fullCompoundId) : Closed (sameAsT fullCompoundId) := by
  have hname : Closed (stdName "is_same") := rfl
  have hcomma : Neutral Lexeme.bracket 1 kSeparatorCommaAndWhitespace := rfl
  have hT : Neutral Lexeme.bracket 1 [.word "T"] := rfl
  have htypeclass := neutral_up (closed_typeclassOf h) 1
  exact neutral_append hname (closed_angled (neutral_append (neutral_append htypeclass hcomma) hT))

theorem closed_enableIfGuard (h : Neutral Lexeme.bracket 1 fullCompoundId) :
    Closed (enableIfGuard fullCompoundId) := by
  have hname : Closed ([.word "typename",.blank] ++ stdName "enable_if") := rfl
  have hvalue : Closed (memberName "value") := rfl
  have htype : Closed (memberName "type") := rfl
  have hdefault : Closed [.sym '*',.blank,.sym '=',.blank,.word "nullptr"] := rfl
  have hguard := closed_angled (neutral_up (neutral_append (closed_sameAsT h) hvalue) 1)
  exact neutral_append (neutral_append (neutral_append hname hguard) htype) hdefault

theorem closed_headEntries (h : Neutral Lexeme.bracket 1 fullCompoundId) :
    ∀ e ∈ headEntries fullCompoundId params, Closed e := by
  intro e he
  rw [headEntries,List.mem_append,List.mem_append] at he
  rcases he with (hparam | hempty) | hown
  · obtain ⟨name,-,rfl⟩ := List.mem_map.mp hparam
    rfl
  · obtain rfl : e = [] := by
      cases hcomma : danglingComma params <;> simp_all
    rfl
  · rw [ownEntries,List.mem_cons,List.mem_cons,List.mem_singleton] at hown
    rcases hown with rfl | rfl | rfl
    · rfl
    · rfl
    · exact closed_strip (closed_enableIfGuard h)

theorem entries_templateHead (h : Neutral Lexeme.bracket 1 fullCompoundId) :
    entries (templateHead fullCompoundId params) = headEntries fullCompoundId params := by
  rw [entries_strip,strip_templateHead,
    splitTop_commas (by simp [headEntries,ownEntries]) (closed_headEntries params h)]

end Head

section FirstOccurrences

variable {α : Type} [DecidableEq α]

theorem nodup_eraseDups (as : List α) : as.eraseDups.Nodup := by
  induction hn : as.length using Nat.strongRecOn generalizing as with
  | ind n ih =>
    cases as with
    | nil => simp
    | cons a as =>
      have hlt : (as.filter (fun b => !b == a)).length < n := by
        have hle := List.length_filter_le (fun b => !b == a) as
        rw [List.length_cons] at hn
        omega
      rw [List.eraseDups_cons,List.nodup_cons,List.mem_eraseDups]
      exact ⟨by simp,ih _ hlt _ rfl⟩

theorem eraseDups_of_nodup {as : List α} (h : as.Nodup) : as.eraseDups = as := by
  induction as with
  | nil => rfl
  | cons a as ih =>
    obtain ⟨ha,has⟩ := List.nodup_cons.mp h
    have hkeep : as.filter (fun b => !b == a) = as := by
      rw [List.filter_eq_self]
      intro b hb
      have hne : b ≠ a := fun heq => ha (heq ▸ hb)
      simpa using hne
    rw [List.eraseDups_cons,hkeep,ih has]

theorem eraseDups_eq_iff {as : List α} : as.eraseDups = as ↔ as.Nodup :=
  ⟨fun h => h ▸ nodup_eraseDups as,eraseDups_of_nodup⟩

end FirstOccurrences

structure WellFormedHead (fullCompoundId : Text) (params : List MethodParamInfo) : Prop where
  nonempty : ∀ e ∈ entries (templateHead fullCompoundId params), e ≠ []
  exact : entries (templateHead fullCompoundId params) =
    (templateTypes params).eraseDups.map strippedTypename ++ ownEntries fullCompoundId

theorem strippedTypename_injective : Function.Injective strippedTypename := by
  intro name other h
  simpa [strippedTypename] using h

section WellFormed

variable (bases : List ClassType) (params : List MethodParamInfo)

theorem depth_fullCompoundId : Neutral Lexeme.bracket 1 (fullCompoundId bases) := by
  rw [fullCompoundId_eq]
  exact closed_commaSeparated (closed_printed _ bases)

theorem depth_typeclassBasesCode : Neutral Lexeme.bracket 1 (typeclassBasesCode bases) := by
  rw [typeclassBasesCode_eq]
  exact closed_commas (closed_printed _ bases)

theorem danglingComma_eq_false : danglingComma params = false ↔
    templateTypes params = [] ∨ endsInTemplateType params = true := by
  rw [danglingComma]
  cases endsInTemplateType params <;> simp

theorem templateHead_wellFormed_iff : WellFormedHead (fullCompoundId bases) params ↔
    (templateTypes params).Nodup ∧
      (templateTypes params = [] ∨ endsInTemplateType params = true) := by
  have hentries := entries_templateHead params (depth_fullCompoundId bases)
  rw [← danglingComma_eq_false,← eraseDups_eq_iff]
  constructor
  · rintro ⟨hnonempty,hexact⟩
    rw [hentries] at hnonempty hexact
    have hcomma : danglingComma params = false := by
      rw [Bool.eq_false_iff]
      intro hcomma
      exact hnonempty [] (by simp [headEntries,hcomma]) rfl
    rw [headEntries,hcomma,if_neg (by simp),List.append_nil,List.append_cancel_right_eq] at hexact
    exact ⟨(List.map_injective_iff.mpr strippedTypename_injective hexact).symm,hcomma⟩
  · rintro ⟨hnodup,hcomma⟩
    have hhead : headEntries (fullCompoundId bases) params =
        (templateTypes params).map strippedTypename ++ ownEntries (fullCompoundId bases) := by
      simp [headEntries,hcomma]
    refine ⟨?_,by rw [hentries,hnodup,hhead]⟩
    rw [hentries,hhead]
    intro e he
    rcases List.mem_append.mp he with hparam | hown
    · obtain ⟨name,-,rfl⟩ := List.mem_map.mp hparam
      simp [strippedTypename]
    · rw [ownEntries,List.mem_cons,List.mem_cons,List.mem_singleton] at hown
      rcases hown with rfl | rfl | rfl <;> simp [strippedTypename,enableIfGuard]

end WellFormed

theorem addable_free : "Addable" ∉ keywords := by decide

def addable : ClassType := ⟨some .ttkStruct,.last ⟨"Addable",addable_free,rfl⟩ .none,ttkStruct_derivable⟩

def addParams : List MethodParamInfo :=
  [⟨⟨some "Value"⟩,"const Value &lhs","lhs"⟩,⟨⟨none⟩,"int times","times"⟩]

theorem ordinary_last_empty_entry :
    entries (templateHead (fullCompoundId [addable]) addParams) =
      [strippedTypename "Value",[],strippedTypename "T",strippedTypename "V",
        strip (enableIfGuard (fullCompoundId [addable]))] ∧
    ¬ WellFormedHead (fullCompoundId [addable]) addParams := by
  have hentries : entries (templateHead (fullCompoundId [addable]) addParams) =
      [strippedTypename "Value",[],strippedTypename "T",strippedTypename "V",
        strip (enableIfGuard (fullCompoundId [addable]))] := by decide
  refine ⟨hentries,fun h => h.nonempty [] ?_ rfl⟩
  rw [hentries]
  simp

end FlexTypeclass.Codegen
