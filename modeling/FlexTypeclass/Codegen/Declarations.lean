import FlexTypeclass.Codegen.Generation
import FlexTypeclass.Codegen.NameLookup
import FlexTypeclass.Lib.AnyOrder

namespace FlexTypeclass.Codegen
open Lib Spelling

inductive Template where
  | TypeclassImplBase
  | Typeclass
  | InplaceTypeclassImplBase
  | InplaceTypeclass
  deriving DecidableEq, Repr

inductive HeaderEntry where
  | common (name : String)
  | specialization (template : Template) (fullBaseType : Text)
  | typeAlias (name : String) (template : Template) (fullBaseType : Text)
  | define (name : String) (fullBaseType : Text)
  deriving DecidableEq

-- The second of two declarations is ill-formed after the first, or reads the first as a macro.
def HeaderEntry.clashes : HeaderEntry → HeaderEntry → Bool
  | .common name, .typeAlias other _ _ => name = other
  | .specialization template types, .specialization otherTemplate otherTypes =>
    template = otherTemplate ∧ types = otherTypes
  | .typeAlias name template types, .typeAlias other otherTemplate otherTypes =>
    name = other ∧ (template ≠ otherTemplate ∨ types ≠ otherTypes)
  | .define name types, .define other otherTypes => name = other ∧ types ≠ otherTypes
  | .define name _, .typeAlias other _ _ => name = other
  | _, _ => false

structure Header where
  args : List Arg
  decl : RecordDecl
  file : GeneratedTypeclass
  generated : typeclass args decl = some file

namespace Header

def specializations (header : Header) : List HeaderEntry :=
  [.specialization .TypeclassImplBase header.file.fullBaseType,
    .specialization .Typeclass header.file.fullBaseType,
    .specialization .InplaceTypeclassImplBase header.file.fullBaseType,
    .specialization .InplaceTypeclass header.file.fullBaseType]

def targetTemplate (header : Header) : Template :=
  if targetGenerator header.args = "InPlace" then .InplaceTypeclass else .Typeclass

def aliases (header : Header) : List HeaderEntry :=
  [.typeAlias ("InHeap" ++ header.decl.name) .Typeclass header.file.fullBaseType,
    .typeAlias ("InPlace" ++ header.decl.name) .InplaceTypeclass header.file.fullBaseType,
    .typeAlias header.decl.name header.targetTemplate header.file.fullBaseType,
    .define ("DEFINE_" ++ header.decl.name) header.file.fullBaseType]

def named (header : Header) : Bool := !header.decl.name.isEmpty

def declared (header : Header) : List HeaderEntry :=
  if header.named then header.specializations ++ header.aliases else header.specializations

def bases (header : Header) : List Text :=
  header.decl.bases.map fun base => base.type.path.print (printingPolicy .default)

end Header

def Consistent (headers : List Header) : Prop :=
  (typeErasureCommon.map HeaderEntry.common ++ headers.flatMap Header.declared).Pairwise
    fun first second => ¬ first.clashes second

def targetTypeNames (headers : List Header) : List String :=
  (headers.filter Header.named).map fun header => header.decl.name

section Header

variable (header other : Header)

theorem Header.fullBaseType_eq : header.file.fullBaseType = commas header.bases := by
  rw [typeclass_file header.generated,typeclassFile,Spelling.fullBaseType_eq,List.map_map]
  rfl

theorem Header.bases_ne_nil : header.bases ≠ [] := by
  have hmergeable := (typeclass_isSome_iff header.args header.decl).mp (by rw [header.generated]; rfl)
  simpa [Header.bases] using hmergeable.bases

theorem Header.closed_bases : ∀ q ∈ header.bases, Closed q := by
  have hclosed := closed_printed (printingPolicy .default) (header.decl.bases.map BaseClass.type)
  rwa [List.map_map] at hclosed

theorem Header.fullBaseType_inj : header.file.fullBaseType = other.file.fullBaseType ↔
    header.bases = other.bases := by
  rw [header.fullBaseType_eq,other.fullBaseType_eq]
  constructor
  · intro h
    have hpieces := congrArg (splitTop Lexeme.bracket 0) h
    rwa [splitTop_commas header.bases_ne_nil header.closed_bases,
      splitTop_commas other.bases_ne_nil other.closed_bases] at hpieces
  · exact congrArg commas

end Header

def aliasPrefixes : List String := ["InHeap","InPlace","DEFINE_"]

section Names

variable {x y p q : String}

theorem append_ne_self (hp : p ∈ aliasPrefixes) : p ++ x ≠ x := by
  have hpositive : ∀ p ∈ aliasPrefixes, 0 < p.length := by decide
  intro h
  have hlength := congrArg String.length h
  rw [String.length_append] at hlength
  have hp := hpositive p hp
  omega

theorem append_inj (hp : p ∈ aliasPrefixes) (hq : q ∈ aliasPrefixes) : p ++ x = q ++ y ↔ p = q ∧ x = y := by
  have hheads : ∀ p ∈ aliasPrefixes, ∀ q ∈ aliasPrefixes, p.toList.take 3 = q.toList.take 3 → p = q := by
    decide
  have hlong : ∀ p ∈ aliasPrefixes, 3 ≤ p.toList.length := by decide
  constructor
  · intro h
    have hchars := congrArg String.toList h
    rw [String.toList_append,String.toList_append] at hchars
    have htaken := congrArg (List.take 3) hchars
    rw [List.take_append_of_le_length (hlong p hp),List.take_append_of_le_length (hlong q hq)] at htaken
    obtain rfl := hheads p hp q hq htaken
    exact ⟨rfl,(String.append_right_inj p).mp h⟩
  · rintro ⟨rfl,rfl⟩
    rfl

theorem append_not_common (hp : p ∈ aliasPrefixes) : p ++ x ∉ typeErasureCommon := by
  have hheads : ∀ p ∈ aliasPrefixes, ∀ c ∈ typeErasureCommon, c.toList.take 3 ≠ p.toList.take 3 := by
    decide
  have hlong : ∀ p ∈ aliasPrefixes, 3 ≤ p.toList.length := by decide
  intro hmem
  apply hheads p hp _ hmem
  rw [String.toList_append,List.take_append_of_le_length (hlong p hp)]

end Names

section Pairs

variable (header other : Header)

theorem forall_specializations {P : HeaderEntry → Prop} : (∀ entry ∈ header.specializations, P entry) ↔
    ∀ template, P (.specialization template header.file.fullBaseType) := by
  rw [Header.specializations]
  constructor
  · intro h template
    cases template <;> exact h _ (by simp)
  · intro h
    simp only [List.forall_mem_cons,List.not_mem_nil,false_implies,implies_true,and_true]
    exact ⟨h _,h _,h _,h _⟩

theorem forall_aliases {P : HeaderEntry → Prop} : (∀ entry ∈ header.aliases, P entry) ↔
    P (.typeAlias ("InHeap" ++ header.decl.name) .Typeclass header.file.fullBaseType) ∧
    P (.typeAlias ("InPlace" ++ header.decl.name) .InplaceTypeclass header.file.fullBaseType) ∧
    P (.typeAlias header.decl.name header.targetTemplate header.file.fullBaseType) ∧
    P (.define ("DEFINE_" ++ header.decl.name) header.file.fullBaseType) := by
  rw [Header.aliases]
  simp only [List.forall_mem_cons,List.not_mem_nil,false_implies,implies_true,and_true]

theorem forall_declared {P : HeaderEntry → Prop} : (∀ entry ∈ header.declared, P entry) ↔
    (∀ entry ∈ header.specializations, P entry) ∧
      (header.named = true → ∀ entry ∈ header.aliases, P entry) := by
  rw [Header.declared]
  cases header.named with
  | false => simp
  | true => simp only [if_true,List.forall_mem_append,true_implies]

theorem declared_consistent : header.declared.Pairwise fun first second => ¬ first.clashes second := by
  have hself {p : String} (hp : p ∈ aliasPrefixes) := append_ne_self (x := header.decl.name) hp
  have hinj {p q : String} (hp : p ∈ aliasPrefixes) (hq : q ∈ aliasPrefixes) :=
    append_inj (x := header.decl.name) (y := header.decl.name) hp hq
  simp only [aliasPrefixes,List.mem_cons,List.not_mem_nil,or_false] at hself hinj
  have hspecializations : header.specializations.Pairwise fun first second => ¬ first.clashes second := by
    simp [Header.specializations,HeaderEntry.clashes]
  have haliases : header.aliases.Pairwise fun first second => ¬ first.clashes second := by
    simp [Header.aliases,HeaderEntry.clashes,hself,hinj]
  rw [Header.declared]
  split
  · refine List.pairwise_append.mpr ⟨hspecializations,haliases,?_⟩
    simp only [forall_specializations,forall_aliases]
    simp [HeaderEntry.clashes]
  · exact hspecializations

theorem common_consistent_iff : (∀ c ∈ typeErasureCommon.map HeaderEntry.common, ∀ entry ∈ header.declared,
    ¬ c.clashes entry) ↔ (header.named = true → header.decl.name ∉ typeErasureCommon) := by
  have hcommon {p c : String} (hp : p ∈ aliasPrefixes) (hc : c ∈ typeErasureCommon) :
      c ≠ p ++ header.decl.name := fun h => append_not_common hp (h ▸ hc)
  simp only [aliasPrefixes,List.mem_cons,List.not_mem_nil,or_false] at hcommon
  simp only [List.forall_mem_map,forall_declared,forall_specializations,forall_aliases,
    HeaderEntry.clashes,Bool.false_eq_true,not_false_eq_true,implies_true,true_and,and_true,
    decide_eq_true_eq]
  constructor
  · intro h hnamed hmem
    exact (h _ hmem hnamed).2.2 rfl
  · intro h c hc hnamed
    exact ⟨hcommon (by simp) hc,hcommon (by simp) hc,fun heq => h hnamed (heq ▸ hc)⟩

def Separate : Prop := ∀ first ∈ header.declared, ∀ second ∈ other.declared, ¬ first.clashes second

theorem fullBaseType_ne_of_separate (h : Separate header other) :
    header.file.fullBaseType ≠ other.file.fullBaseType := by
  intro hbases
  rw [Separate,forall_declared,forall_specializations] at h
  have hsame := (forall_specializations other).mp ((forall_declared other).mp (h.1 .Typeclass)).1 .Typeclass
  simp [HeaderEntry.clashes,hbases] at hsame

theorem separate_iff : Separate header other ∧ Separate other header ↔
    header.bases ≠ other.bases ∧ (header.named = true → other.named = true →
      header.decl.name ≠ other.decl.name ∧ ∀ p ∈ aliasPrefixes,
        other.decl.name ≠ p ++ header.decl.name ∧ header.decl.name ≠ p ++ other.decl.name) := by
  have hinj {x y p q : String} (hp : p ∈ aliasPrefixes) (hq : q ∈ aliasPrefixes) :=
    append_inj (x := x) (y := y) hp hq
  simp only [aliasPrefixes,List.mem_cons,List.not_mem_nil,or_false] at hinj
  rw [ne_eq,← header.fullBaseType_inj]
  by_cases hbases : header.file.fullBaseType = other.file.fullBaseType
  · constructor
    · exact fun h => absurd hbases (fullBaseType_ne_of_separate header other h.1)
    · exact fun h => absurd hbases h.1
  · have hswap := Ne.symm hbases
    simp only [Separate,forall_declared,forall_specializations,forall_aliases,HeaderEntry.clashes,
      aliasPrefixes,List.forall_mem_cons]
    simp [hbases,hswap,hinj]
    grind

end Pairs

section Program

variable (headers : List Header)

theorem forall_targetTypeNames {P : String → Prop} : (∀ x ∈ targetTypeNames headers, P x) ↔
    ∀ header ∈ headers, header.named = true → P header.decl.name := by
  simp only [targetTypeNames,List.forall_mem_map,List.mem_filter,and_imp]

theorem pairwise_targetTypeNames {R : String → String → Prop} : (targetTypeNames headers).Pairwise R ↔
    headers.Pairwise fun header other =>
      header.named = true → other.named = true → R header.decl.name other.decl.name := by
  rw [targetTypeNames,List.pairwise_map,List.pairwise_filter]

theorem consistent_iff : Consistent headers ↔
    (headers.flatMap Header.declared).Pairwise (fun first second => ¬ first.clashes second) ∧
      ∀ header ∈ headers, header.named = true → header.decl.name ∉ typeErasureCommon := by
  have hcommon : (typeErasureCommon.map HeaderEntry.common).Pairwise
      fun first second => ¬ first.clashes second := by
    rw [List.pairwise_map]
    exact List.pairwise_of_forall fun _ _ => Bool.false_ne_true
  rw [Consistent,List.pairwise_append,and_iff_right hcommon,← forall₂_congr fun header _ =>
    common_consistent_iff header]
  refine and_congr_right fun _ => ⟨fun h header hheader c hc entry hentry => ?_,fun h c hc entry hentry => ?_⟩
  · exact h c hc entry (List.mem_flatMap_of_mem hheader hentry)
  · obtain ⟨header,hheader,hmem⟩ := List.mem_flatMap.mp hentry
    exact h header hheader c hc entry hmem

theorem consistent_inAnyOrder_iff : InAnyOrder Consistent headers ↔
    (headers.Pairwise fun header other => Separate header other ∧ Separate other header) ∧
      ∀ header ∈ headers, header.named = true → header.decl.name ∉ typeErasureCommon := by
  have hpairs : InAnyOrder (fun order => (order.flatMap Header.declared).Pairwise
      fun first second => ¬ first.clashes second) headers ↔
      headers.Pairwise fun header other => Separate header other ∧ Separate other header := by
    rw [flatMap_inAnyOrder_iff]
    exact and_iff_right fun header _ => declared_consistent header
  rw [← hpairs]
  constructor
  · intro h
    refine ⟨fun order hperm => ((consistent_iff order).mp (h order hperm)).1,?_⟩
    exact ((consistent_iff headers).mp (h headers (List.Perm.refl headers))).2
  · rintro ⟨hseparate,hcommon⟩ order hperm
    refine (consistent_iff order).mpr ⟨hseparate order hperm,fun header hheader => ?_⟩
    exact hcommon header (hperm.mem_iff.mp hheader)

-- The headers of a program can be included together, and in any order.
theorem headers_consistent_iff : InAnyOrder Consistent headers ↔
    (headers.map Header.bases).Nodup ∧ (targetTypeNames headers).Nodup ∧
      (∀ x ∈ targetTypeNames headers, x ∉ typeErasureCommon) ∧
      ∀ x ∈ targetTypeNames headers, ∀ y ∈ targetTypeNames headers, ∀ p ∈ aliasPrefixes, y ≠ p ++ x := by
  have hself : ∀ x ∈ targetTypeNames headers, ∀ p ∈ aliasPrefixes, x ≠ p ++ x :=
    fun x _ p hp => (append_ne_self hp).symm
  have hnames : ((targetTypeNames headers).Pairwise fun x y =>
      x ≠ y ∧ ∀ p ∈ aliasPrefixes, y ≠ p ++ x ∧ x ≠ p ++ y) ↔
      (targetTypeNames headers).Nodup ∧
        ∀ x ∈ targetTypeNames headers, ∀ y ∈ targetTypeNames headers, ∀ p ∈ aliasPrefixes, y ≠ p ++ x := by
    simp only [forall₂_and]
    rw [List.pairwise_and_iff,pairwise_both_iff hself,List.Nodup]
  rw [pairwise_targetTypeNames] at hnames
  rw [consistent_inAnyOrder_iff,forall_targetTypeNames]
  simp only [separate_iff]
  rw [List.pairwise_and_iff,hnames,← List.pairwise_map (f := Header.bases),List.Nodup]
  tauto

end Program

end FlexTypeclass.Codegen
