import FlexTypeclass.Dispatch.Generated
import FlexTypeclass.Codegen.MoveOnly

namespace FlexTypeclass.Dispatch
open Lib Codegen

variable {K B : Type} {L : Language B}

def exactCall (tc : TypeclassDecl K B) (I : B) (m : Method B) : Executed K B :=
  ⟨tc.key,m,I,.held,List.range m.params.length⟩

def Distinguished [DecidableEq B] (L : Language B) (m n : Method B) : Prop :=
  ∀ ds, conversions L (m.params.map L.forward) n.params = some ds →
    someBetter (ownConversions m.params) ds = true ∧ (m.info.isConst = true → n.info.isConst = true)

-- Where every header compiles, the names and overloads that still decide what the call runs.
structure Clean [DecidableEq B] (L : Language B) (P : Program K B) (tc : TypeclassDecl K B) (s : Storage)
    (m : Method B) : Prop where
  spelled : m.name ∉ macrosOf P.headers
  receiver : s.implBase ∉ m.names
  held : "concreteData_" ∉ m.names
  distinguished : ∀ n ∈ tc.methods, n ≠ m → n.name = m.name → Distinguished L m n

theorem identity_better_self (r : RefKind) (c : Bool) :
    (Conversion.identity r c).better (.identity r c) = false := by
  cases r <;> cases c <;> rfl

theorem someBetter_cons_self {r : RefKind} {c : Bool} {cs ds : List Conversion} :
    someBetter (.identity r c :: cs) (.identity r c :: ds) = someBetter cs ds := by
  rw [someBetter,identity_better_self,Bool.false_or]

theorem object_notWorse {c d : Bool} {cs ds : List Conversion} :
    notWorse (.identity .lvalue c :: cs) (.identity .lvalue d :: ds) = true ↔
      (c = true → d = true) ∧ notWorse cs ds = true := by
  cases c <;> cases d <;> simp [notWorse,Conversion.better]

theorem forwarded_some {m : Method B} {args : List (Arg B)}
    (h : forwardMethodParamNames L m = some args) :
    "" ∉ m.names ∧ args = m.params.map L.forward := by
  rw [forwardMethodParamNames] at h
  split at h
  · cases h
  · exact ⟨‹_›,(Option.some.inj h).symm⟩

theorem lookup_held {m : Method B} {name : String} :
    m.lookup name = .held ↔ name ∉ m.names := by
  rw [Method.lookup]
  split <;> simp_all

theorem through_held {o : Operand} {indices : List Nat} :
    o.through indices = .held ↔ o = .held := by
  cases o <;> simp [Operand.through]

theorem argIndices_eq {tc : TypeclassDecl K B} {m : Method B} (hm : m ∈ tc.methods)
    (hnamed : "" ∉ m.names) : m.argIndices = List.range m.params.length := by
  have hnodup : m.names.Nodup := by
    have h := tc.named m hm
    have hall : ∀ n ∈ m.names, decide (n ≠ "") = true := by
      intro n hn
      exact decide_eq_true fun he => hnamed (by rwa [he] at hn)
    rwa [List.filter_eq_self.mpr hall] at h
  refine List.ext_getElem (by simp [Method.argIndices,Method.names]) fun i h₁ h₂ => ?_
  simp only [Method.argIndices,List.getElem_map,List.getElem_range]
  exact hnodup.idxOf_getElem i _

section Resolution

variable {P : Program K B} {tc : TypeclassDecl K B} {m f : Method B}

theorem mem_templates {tcs : List (TypeclassDecl K B)} (hsub : tcs ⊆ P.typeclasses) (htc : tc ∈ tcs)
    {g : K × Method B} (hkey : g.1 = tc.key) : g ∈ templates tcs ↔ g.2 ∈ tc.methods := by
  simp only [templates,List.mem_flatMap,List.mem_map]
  constructor
  · rintro ⟨t,ht,m,hm,rfl⟩
    obtain rfl := same_of_key (hsub ht) (hsub htc) hkey
    exact hm
  · intro hm
    exact ⟨tc,htc,g.2,hm,by rw [← hkey]⟩

theorem before_typeclasses [DecidableEq K] [DecidableEq B] {key : K} {I : B} :
    typeclassesOf (P.before key I) ⊆ P.typeclasses :=
  ((List.takeWhile_sublist _).filterMap _).subset

variable [DecidableEq B]

theorem memberBeats_asymm {args : List (Arg B)} {f g : Method B} (h : memberBeats L args f g = true) :
    memberBeats L args g f = false := by
  rw [memberBeats] at h
  split at h
  · rename_i cs ds hf hg
    simp only [Bool.and_eq_true,Bool.or_eq_true,Bool.not_eq_true'] at h
    obtain ⟨hnot,hbetter | ⟨hfun,htemplate⟩⟩ := h
    · simp [memberBeats,hf,hg,notWorse_of_someBetter hbetter]
    · cases hworse : someBetter ds cs with
      | true =>
        rw [notWorse_of_someBetter hworse] at hnot
        cases hnot
      | false => simp [memberBeats,hf,hg,hfun,htemplate,hworse]
  · cases h

section Own

variable (hL : Forwards L)
include hL

theorem own_memberConversions (hplain : m.info.isTemplate = false) :
    memberConversions L (m.params.map L.forward) m =
      some (.identity .lvalue m.info.isConst :: ownConversions m.params) := by
  rw [memberConversions,hplain,conversions_forward hL]
  rfl

theorem own_freeConversions {T : K} : freeConversions L (m.params.map L.forward) (T,m) =
    some (.identity .lvalue true :: ownConversions m.params) := by
  rw [freeConversions,conversions_forward hL]
  rfl

theorem own_unbeaten {g : K × Method B} {T : K} :
    freeBeats L (m.params.map L.forward) g (T,m) = false := by
  rw [freeBeats,own_freeConversions hL]
  cases hg : conversions L (m.params.map L.forward) g.2.params with
  | none => simp [freeConversions,hg,outranks]
  | some ds =>
    have hnot : someBetter ds (ownConversions m.params) ≠ true := by
      intro hb
      have hown := own_notWorse hL m.params hg
      rw [notWorse_of_someBetter hb] at hown
      cases hown
    simp [freeConversions,hg,outranks,someBetter_cons_self,hnot]

theorem resolveMember_own (hm : m ∈ tc.methods) (hplain : m.info.isTemplate = false)
    (hdistinguished : ∀ n ∈ tc.methods, n ≠ m → n.name = m.name → Distinguished L m n) :
    resolveMember L tc m.name (m.params.map L.forward) = some m := by
  have hown := own_memberConversions hL hplain
  refine (best?_eq_some fun _ _ => memberBeats_asymm).mpr ⟨?_,fun n hn hne => ?_⟩
  · simp [memberCandidates,hm,hown]
  · simp only [memberCandidates,List.mem_filter,decide_eq_true_eq] at hn
    obtain ⟨hn,hname,hsome⟩ := hn
    obtain ⟨es,hes⟩ := Option.isSome_iff_exists.mp hsome
    have hviable := hes
    rw [memberConversions] at hviable
    obtain ⟨ds,hds,rfl⟩ := Option.map_eq_some_iff.mp (Option.ite_none_left_eq_some.mp hviable).2
    have ⟨hbetter,hconst⟩ := hdistinguished n hn hne hname ds hds
    have hworse := object_notWorse.mpr ⟨hconst,own_notWorse hL m.params hds⟩
    rw [memberBeats,hown,hes]
    simp [hworse,hbetter,someBetter]

end Own

variable [DecidableEq K] {s : Storage} {I : B}

theorem call_runs {e : Executed K B} (h : call L P s tc I m = .runs e) :
    P.Compiles L ∧ m.name ∉ macrosOf P.headers ∧ s.implBase ∉ m.names ∧ ∃ f e',
      resolveMember L tc m.name (m.params.map L.forward) = some f ∧
      overrideCall L (P.before tc.key I) tc.key I f = some e' ∧ e.method = e'.method ∧
      e.data = e'.data.through m.argIndices := by
  rw [call] at h
  split at h
  · rename_i hcompiles
    split at h
    · cases h
    · rename_i args hargs
      obtain ⟨-,rfl⟩ := forwarded_some hargs
      split at h
      · cases h
      · rename_i hheld
        split at h
        · cases h
        · rename_i e' hbind
          obtain ⟨f,hf,he'⟩ := Option.bind_eq_some_iff.mp hbind
          cases h
          exact ⟨hcompiles.1,hcompiles.2,lookup_held.mp hheld,f,e',hf,he',rfl,rfl⟩
  · cases h

theorem overrideCall_some {before : List (Header K B)} {e : Executed K B}
    (h : overrideCall L before tc.key I f = some e) :
    ∃ g, resolveFree L (typeclassesOf before) tc.key f.name (f.params.map L.forward) = some g ∧
      e.method = g.2 ∧ e.data = f.lookup "concreteData_" := by
  rw [overrideCall] at h
  obtain ⟨args,hargs,h⟩ := Option.bind_eq_some_iff.mp h
  obtain ⟨-,rfl⟩ := forwarded_some hargs
  obtain ⟨g,hg,h⟩ := Option.bind_eq_some_iff.mp h
  obtain ⟨-,he⟩ := Option.ite_none_right_eq_some.mp h
  cases he
  exact ⟨g,hg,rfl,rfl⟩

section Free

variable (hL : Forwards L) {tcs : List (TypeclassDecl K B)} (hsub : tcs ⊆ P.typeclasses) (htc : tc ∈ tcs)
include hL hsub htc

theorem own_freeCandidate (hm : m ∈ tc.methods) :
    (tc.key,m) ∈ freeCandidates L tcs tc.key m.name (m.params.map L.forward) := by
  simp [freeCandidates,mem_templates hsub htc,hm,own_freeConversions hL]

theorem resolveFree_self (hm : m ∈ tc.methods) {g : K × Method B}
    (h : resolveFree L tcs tc.key m.name (m.params.map L.forward) = some g) : g = (tc.key,m) := by
  by_contra hne
  have hbeats := best?_beats h (own_freeCandidate hL hsub htc hm) (Ne.symm hne)
  rw [own_unbeaten hL] at hbeats
  cases hbeats

theorem resolveFree_own (hm : m ∈ tc.methods) (h : Settled (freeBeats L (m.params.map L.forward))
    (freeCandidates L tcs tc.key m.name (m.params.map L.forward))) :
    resolveFree L tcs tc.key m.name (m.params.map L.forward) = some (tc.key,m) := by
  have hmem := own_freeCandidate hL hsub htc hm
  exact (best?_eq_some fun _ _ => outranks_asymm).mpr
    ⟨hmem,settled_unbeaten h hmem fun _ _ => own_unbeaten hL⟩

theorem distinguished_of_resolved (hplain : ∀ n ∈ tc.methods, n.info.isTemplate = false)
    (hm : m ∈ tc.methods) {n : Method B} (hn : n ∈ tc.methods) (hne : n ≠ m) (hname : n.name = m.name)
    (hmember : resolveMember L tc m.name (m.params.map L.forward) = some m)
    (hfree : resolveFree L tcs tc.key m.name (m.params.map L.forward) = some (tc.key,m)) :
    Distinguished L m n := by
  intro ds hds
  have hnmember : memberConversions L (m.params.map L.forward) n =
      some (.identity .lvalue n.info.isConst :: ds) := by
    rw [memberConversions,hplain n hn,hds]
    rfl
  have hnfree : freeConversions L (m.params.map L.forward) (tc.key,n) =
      some (.identity .lvalue true :: ds) := by rw [freeConversions,hds]; rfl
  constructor
  · have hbeats := best?_beats hfree (g := (tc.key,n))
      (by simp [freeCandidates,mem_templates hsub htc,hn,hname,hnfree]) (by simpa using hne)
    rw [freeBeats,own_freeConversions hL,hnfree,outranks,someBetter_cons_self,Bool.and_eq_true] at hbeats
    exact hbeats.2
  · have hbeats := best?_beats hmember (g := n) (by simp [memberCandidates,hn,hname,hnmember]) hne
    rw [memberBeats,own_memberConversions hL (hplain m hm),hnmember] at hbeats
    exact (object_notWorse.mp (Bool.and_eq_true_iff.mp hbeats).1).1

end Free

variable (hL : Forwards L) (htc : tc ∈ P.typeclasses) (hI : (tc.key,I) ∈ P.instances)
include hL htc hI

theorem clean_call (hP : P.Compiles L) (hm : m ∈ tc.methods) (hc : Clean L P tc s m) :
    call L P s tc I m = .runs (exactCall tc I m) := by
  obtain ⟨before,-,hforwarded⟩ := typeclass_compiles hP htc
  obtain ⟨hbefore,inst,⟨-,-,-,hoverridable,-⟩,hoverridden⟩ := instance_compiles hP htc hI
  have hnamed := (hforwarded m hm .heap (by simp)).1
  have hargs : forwardMethodParamNames L m = some (m.params.map L.forward) := if_neg hnamed
  have hplain := m.plain (hoverridable m hm).1
  have hfree := resolveFree_own hL before_typeclasses hbefore hm (hoverridden m hm).1
  have hover : overrideCall L (P.before tc.key I) tc.key I m = some (exactCall tc I m) := by
    simp only [overrideCall,hargs,Option.bind_some,hfree,lookup_held.mpr hc.held,deducedV,
      argIndices_eq hm hnamed]
    exact if_pos List.mem_cons_self
  simp only [call,if_pos (And.intro hP hc.spelled),hargs,lookup_held.mpr hc.receiver,
    resolveMember_own hL hm hplain hc.distinguished,Option.bind_some,hover,argIndices_eq hm hnamed]
  congr 2
  refine List.ext_getElem (by simp [exactCall]) fun i h₁ h₂ => ?_
  rw [List.length_range] at h₂
  simp [exactCall,h₂]

theorem clean_of_call (hm : m ∈ tc.methods) (h : call L P s tc I m = .runs (exactCall tc I m)) :
    P.Compiles L ∧ Clean L P tc s m := by
  obtain ⟨hP,hspelled,hreceiver,f,e,hmember,hover,hmethod,hdata⟩ := call_runs h
  obtain ⟨g,hfree,hg,hoperand⟩ := overrideCall_some hover
  obtain ⟨hbefore,inst,⟨-,-,-,hoverridable,-⟩,-⟩ := instance_compiles hP htc hI
  have hf : f ∈ tc.methods := (List.mem_filter.mp (best?_mem hmember)).1
  have hgf := resolveFree_self hL before_typeclasses hbefore hf hfree
  obtain rfl : f = m := by rw [← (show g.2 = f by rw [hgf]),← hg,← hmethod]; rfl
  rw [hoperand] at hdata
  refine ⟨hP,hspelled,hreceiver,lookup_held.mp (through_held.mp hdata.symm),fun n hn hne hname => ?_⟩
  exact distinguished_of_resolved hL before_typeclasses hbefore
    (fun n hn => n.plain (hoverridable n hn).1) hm hn hne hname hmember (by rw [hfree,hgf])

end Resolution

section Spells

inductive SpellType where
  | fireSpell
  | waterSpell
  | chars
  | int
  deriving DecidableEq, Repr

def spellLanguage : Language SpellType where
  typeNames text := if text = "const FireSpell &concreteData_" then [(.plain,"FireSpell")] else []
  templateNames _ := []
  optional _ := false
  deducible _ := true
  forward p := ⟨p.type.base,p.type.const,match p.type.ref with | .rvalue => .rvalue | _ => .lvalue⟩
  convert _ _ := none
  acceptsOn _ _ _ _ := false

theorem spellLanguage_forwards : Forwards spellLanguage where
  base _ := rfl
  const _ := rfl
  lvalue p h := by simp [spellLanguage,h]
  rvalue p h := by simp [spellLanguage,h]

def spellMethod (name : String) (p : Param SpellType) : Method SpellType where
  info := { hasEnoughMana with name := name, params := [p.info] }
  params := [p]
  declared := rfl
  plain _ := rfl

def enoughForSpell : Method SpellType :=
  spellMethod "has_enough_mana" ⟨⟨⟨none⟩,"const char *spellname","spellname"⟩,⟨.chars,false,.value⟩⟩

def enoughForPower : Method SpellType :=
  spellMethod "has_enough_mana" ⟨⟨⟨none⟩,"int power","power"⟩,⟨.int,false,.value⟩⟩

def absorb : Method SpellType :=
  spellMethod "absorb"
    ⟨⟨⟨none⟩,"const FireSpell &concreteData_","concreteData_"⟩,⟨.fireSpell,true,.lvalue⟩⟩

def magicItemDecl : TypeclassDecl String SpellType where
  key := "MagicItemTraits"
  targetTypeName := "MagicItem"
  bases := [(.plain,"MagicItemTraits")]
  specifiers := [(.base,"MagicItemTraits")]
  settings := []
  accepted := true
  moveOnly := false
  methods := [enoughForSpell,enoughForPower]
  wrapped := by decide
  untemplated := by decide
  distinct := by decide
  named := by decide

def absorberDecl : TypeclassDecl String SpellType where
  key := "AbsorberTraits"
  targetTypeName := "Absorber"
  bases := [(.plain,"AbsorberTraits")]
  specifiers := [(.base,"AbsorberTraits")]
  settings := []
  accepted := true
  moveOnly := false
  methods := [enoughForSpell,absorb]
  wrapped := by decide
  untemplated := by decide
  distinct := by decide
  named := by decide

def spellInstance (key : String) (impl : SpellType) (target : String) : Header String SpellType :=
  .typeclassInstance ⟨key,impl,[(.plain,target)],true,false,[]⟩

def spells : Program String SpellType where
  headers := [.typeclass magicItemDecl,.typeclass absorberDecl,
    spellInstance "MagicItemTraits" .fireSpell "FireSpell",
    spellInstance "AbsorberTraits" .fireSpell "FireSpell",
    spellInstance "MagicItemTraits" .waterSpell "WaterSpell",
    spellInstance "AbsorberTraits" .waterSpell "WaterSpell"]
  keysDistinct := by decide

theorem spells_compiles : spells.Compiles spellLanguage := by decide +kernel

theorem magicItem_clean (s : Storage) {m : Method SpellType} (hm : m ∈ magicItemDecl.methods) :
    Clean spellLanguage spells magicItemDecl s m := by
  have hnames : ∀ m ∈ magicItemDecl.methods, ∀ n ∈ ["implBase_","__implBase","concreteData_"],
      n ∉ m.names := by decide
  refine ⟨?_,?_,hnames m hm _ (by simp),fun n hn hne _ ds hds => ?_⟩
  · revert m
    decide
  · cases s <;> exact hnames m hm _ (by simp [Storage.implBase])
  · simp only [magicItemDecl,List.mem_cons,List.not_mem_nil,or_false] at hm hn
    rcases hm with rfl | rfl <;> rcases hn with rfl | rfl
    · exact absurd rfl hne
    · cases hds
    · cases hds
    · exact absurd rfl hne

-- One method of any name, wrapped for one type.
def spellNamed (name : String) : Program String SpellType where
  headers := [.typeclass { magicItemDecl with
      methods := [spellMethod name ⟨⟨⟨none⟩,"int power","power"⟩,⟨.int,false,.value⟩⟩]
      wrapped := fun _ hm => by rw [List.mem_singleton.mp hm]; rfl
      untemplated := fun _ hm => by rw [List.mem_singleton.mp hm]; rfl
      distinct := List.pairwise_singleton _ _
      named := fun _ hm => by
        rw [List.mem_singleton.mp hm]
        exact (List.pairwise_singleton _ _).filter _ },
    spellInstance "MagicItemTraits" .fireSpell "FireSpell"]
  keysDistinct := List.pairwise_singleton _ _

example : ∀ name ∈ ["has_enough_mana","bad_cast","static_validate"],
    (spellNamed name).Compiles spellLanguage := by decide +kernel

example : ∀ name ∈ ["T","typeclass","kIsMoveOnly","InHeapMagicItem","DEFINE_MagicItem","MagicItemTraits",
    "FireSpell","Typeclass"], ¬ (spellNamed name).Compiles spellLanguage := by decide +kernel

end Spells

end FlexTypeclass.Dispatch
