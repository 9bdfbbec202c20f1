import FlexTypeclass.Spelling.Marks
import Mathlib.Data.List.Forall2

namespace FlexTypeclass.Spelling
open Lib

variable {p : PrintingPolicy}

theorem extractTypeName_path (q : Path) : extractTypeName (q.print p) = q.print p := by
  have hatom (a : Atom) (rest : Text) :
      extractTypeName (.word a.text :: rest) = .word a.text :: rest := by
    have hfree : ¬ (a.text = "struct" ∨ a.text = "class") := by
      rintro (h | h) <;> exact a.free (by rw [h]; decide)
    cases rest with
    | nil => rfl
    | cons l rest =>
      cases l with
      | blank => rw [extractTypeName,if_neg hfree]
      | word w => rfl
      | sym c => rfl
  cases q with
  | last name tpl => exact hatom name _
  | scope name tpl rest => exact hatom name _
  | anonymous rest => rfl

theorem extractTypeName_getAsString (c : ClassType) :
    extractTypeName (c.getAsString p) = c.path.print p := by
  have hprint : c.getAsString p = printTag p c.tag ++ c.path.print p := by
    simp [ClassType.getAsString,ClassType.ty,Ty.getAsString,Ty.before,Ty.after,Qualifiers.before,
      Qualifiers.words]
  rw [hprint]
  cases htag : c.tag with
  | none => exact extractTypeName_path c.path
  | some k =>
    rw [printTag]
    split
    · exact extractTypeName_path c.path
    · cases k with
      | ttkStruct => rfl
      | ttkClass => rfl
      | ttkUnion => exact absurd htag c.derivable.1
      | ttkEnum => exact absurd htag c.derivable.2

theorem typeclassKeys_foldl (bases : List ClassType) (keys : TypeclassKeys) :
    bases.foldl TypeclassKeys.pushBase keys =
      ⟨keys.fullBaseType ++
          (bases.map (·.path.print (printingPolicy .default))).flatMap (· ++ [kSingleComma]),
        keys.compoundId ++ bases.map (·.path.print (printingPolicy .default))⟩ := by
  induction bases generalizing keys with
  | nil => simp
  | cons c bases ih =>
    rw [List.foldl_cons,ih]
    simp [TypeclassKeys.pushBase,extractTypeName_getAsString]

theorem fullBaseType_eq (bases : List ClassType) :
    fullBaseType bases =
      commas (bases.map (·.path.print (printingPolicy .default))) := by
  rw [fullBaseType,typeclassKeys,typeclassKeys_foldl]
  exact dropLast_terminated kSingleComma _

theorem fullCompoundId_eq (bases : List ClassType) :
    fullCompoundId bases =
      commaSeparated (bases.map (·.path.print (printingPolicy .default))) := by
  rw [fullCompoundId,typeclassKeys,typeclassKeys_foldl]
  rfl

theorem typeclassBasesCode_eq (bases : List ClassType) :
    typeclassBasesCode bases = commas (bases.map (·.path.print (printingPolicy .cxx))) := by
  rw [typeclassBasesCode,dropLast_foldl kSingleComma]
  simp only [extractTypeName_getAsString]
  rfl

theorem commaSeparated_cons (q : Text) (qs : List Text) :
    commaSeparated (q :: qs) = commas (q :: qs.map (.blank :: ·)) := by
  rw [commaSeparated,commas]
  induction qs generalizing q with
  | nil => simp
  | cons r qs ih =>
    have hr := ih (.blank :: r)
    rw [List.intercalate_cons_cons_left] at hr
    rw [List.intercalate_cons_cons,List.map_cons,List.intercalate_cons_cons,← hr]
    simp

theorem splitTop_commas {pieces : List Text} (hne : pieces ≠ []) (h : ∀ q ∈ pieces, Closed q) :
    splitTop Lexeme.bracket 0 (commas pieces) = pieces := splitTop_intercalate rfl hne h

def SpelledInOrder (text : Text) (bases : List ClassType) : Prop :=
  List.Forall₂ (fun piece (c : ClassType) => c.ty.SpelledBy piece)
    (splitTop Lexeme.bracket 0 text) bases

def SpellsBases (p : PrintingPolicy) (bases : List ClassType) : Prop :=
  ∀ c ∈ bases, c.ty.SpelledBy (c.path.print p)

variable (base : ClassType) (bases : List ClassType)

theorem commas_spelled : SpelledInOrder (commas ((base :: bases).map (·.path.print p))) (base :: bases) ↔
    SpellsBases p (base :: bases) := by
  have hclosed := closed_printed p (base :: bases)
  rw [SpelledInOrder,splitTop_commas (by simp) hclosed,List.forall₂_map_left_iff,List.forall₂_same]
  rfl

theorem commaSeparated_spelled :
    SpelledInOrder (commaSeparated ((base :: bases).map (·.path.print p))) (base :: bases) ↔
      SpellsBases p (base :: bases) := by
  have hblank {q : Text} (h : Closed q) : Closed (.blank :: q) := neutral_append closed_blank h
  have hclosed : ∀ q ∈ base.path.print p :: (bases.map (·.path.print p)).map (.blank :: ·),
      Closed q := by
    refine List.forall_mem_cons.mpr ⟨Path.closed_print p base.path,?_⟩
    intro q hq
    obtain ⟨r,hr,rfl⟩ := List.mem_map.mp hq
    exact hblank (closed_printed p bases r hr)
  rw [SpelledInOrder,List.map_cons,commaSeparated_cons,splitTop_commas (by simp) hclosed,
    List.forall₂_cons,List.map_map,List.forall₂_map_left_iff,List.forall₂_same,SpellsBases,
    List.forall_mem_cons]
  simp only [Function.comp,Ty.SpelledBy,strip_blank]

theorem Path.print_head (q : Path) : ∃ l rest, q.print p = l :: rest ∧ l ≠ .blank ∧ l.isMark = false := by
  cases q with
  | last name tpl => exact ⟨_,_,rfl,by simp,not_mark name.free⟩
  | scope name tpl rest => exact ⟨_,_,rfl,by simp,not_mark name.free⟩
  | anonymous rest => exact ⟨.sym '(',_,rfl,by simp,rfl⟩

theorem Tag.isMark_word (k : Tag) : k.word.isMark = true := by cases k <;> rfl

-- What is left of a base has lost its own keyword, so the grammar can not read one either.
theorem spelled_path {c : ClassType} :
    c.ty.SpelledBy (c.path.print p) ↔ c.path.Spells (strip (c.path.print p)) := by
  obtain ⟨l,rest,hhead,hblank,hmark⟩ := Path.print_head (p := p) c.path
  constructor
  · rintro ⟨pre,post,⟨kw,txt,hkw,htxt,rfl,rfl⟩,htext⟩
    rcases hkw with rfl | ⟨k,-,rfl⟩
    · rw [htext,List.append_nil]
      exact htxt
    · rw [hhead,strip,List.filter_cons_of_pos (by simpa using hblank)] at htext
      rw [(List.cons.inj htext).1,k.isMark_word] at hmark
      cases hmark
  · intro h
    exact ⟨_,_,⟨[],_,.inl rfl,h,rfl,rfl⟩,by simp [Qualifiers.words]⟩

theorem spells_of_spellable (h : ∀ c ∈ bases, c.path.unspellable = 0) : SpellsBases p bases :=
  fun c hc => spelled_path.mpr (Path.spells_print c.path (h c hc))

theorem default_spells_iff : SpellsBases (printingPolicy .default) bases ↔
    ∀ c ∈ bases, c.path.unspellable = 0 := by
  refine ⟨fun h c hc => ?_,spells_of_spellable bases⟩
  have hle := Path.marks_spells c.path (spelled_path.mp (h c hc))
  rw [marks_strip,Path.marks_print ⟨rfl,rfl,rfl⟩] at hle
  omega

theorem keys_spell_bases_iff :
    (SpelledInOrder (fullBaseType (base :: bases)) (base :: bases) ∧
      SpelledInOrder (fullCompoundId (base :: bases)) (base :: bases) ∧
      SpelledInOrder (typeclassBasesCode (base :: bases)) (base :: bases)) ↔
    ∀ c ∈ base :: bases, c.path.unspellable = 0 := by
  rw [fullBaseType_eq,fullCompoundId_eq,typeclassBasesCode_eq,commas_spelled,
    commaSeparated_spelled,commas_spelled,default_spells_iff]
  exact ⟨fun h => h.1,fun h => ⟨h,h,spells_of_spellable _ h⟩⟩

def boolTraits : ClassType :=
  ⟨some .ttkStruct,.last ⟨"SummableTraits",by decide,rfl⟩
    (.some (.type (.builtin ⟨false,false⟩ .bool) .nil)),ttkStruct_derivable⟩

end FlexTypeclass.Spelling
