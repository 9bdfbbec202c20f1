import FlexTypeclass.Dispatch.Headers
import FlexTypeclass.Lib.PastTime
import Mathlib.Data.List.TakeWhile

namespace FlexTypeclass.Dispatch
open Lib Codegen

inductive Storage where
  | heap
  | inplace
  deriving DecidableEq, Repr

inductive Operand where
  | held
  | param (i : Nat)
  deriving DecidableEq, Repr

structure Executed (K B : Type) where
  key : K
  method : Method B
  impl : B
  data : Operand
  args : List Nat
  deriving DecidableEq

inductive Outcome (K B : Type) where
  | runs (e : Executed K B)
  | onParameter (i : Nat)
  | rejected
  deriving DecidableEq

section Names

variable {B : Type}

def Storage.implBase : Storage → String
  | .heap => "implBase_"
  | .inplace => "__implBase"

-- What the wrappers call the override on.
def Storage.receiver : Storage → String
  | .heap => "implBase_"
  | .inplace => "__implBase()"

def Method.lookup (m : Method B) (name : String) : Operand :=
  if name ∈ m.names then .param (m.names.idxOf name) else .held

def Method.argIndices (m : Method B) : List Nat := m.names.map (fun n => m.names.idxOf n)

def forwardMethodParamNames (L : Language B) (m : Method B) : Option (List (Arg B)) :=
  if "" ∈ m.names then none else some (m.params.map L.forward)

end Names

section Calls

variable {K B : Type} [DecidableEq K] [DecidableEq B] (L : Language B)

def memberConversions (args : List (Arg B)) (f : Method B) : Option (List Conversion) :=
  if f.info.isTemplate && !L.deducible f.info then none
  else (conversions L args f.params).map (Conversion.identity .lvalue f.info.isConst :: ·)

-- Between equal conversions a function goes before a template.
def memberBeats (args : List (Arg B)) (f g : Method B) : Bool :=
  match memberConversions L args f, memberConversions L args g with
  | some cs, some ds => notWorse cs ds && (someBetter cs ds || (!f.info.isTemplate && g.info.isTemplate))
  | _, _ => false

def memberCandidates (tc : TypeclassDecl K B) (name : String) (args : List (Arg B)) : List (Method B) :=
  tc.methods.filter (fun f => f.name = name ∧ (memberConversions L args f).isSome)

def resolveMember (tc : TypeclassDecl K B) (name : String) (args : List (Arg B)) :
    Option (Method B) :=
  best? (memberBeats L args) (memberCandidates L tc name args)

def templates (tcs : List (TypeclassDecl K B)) : List (K × Method B) :=
  tcs.flatMap (fun t => t.methods.map (fun m => (t.key,m)))

def freeConversions (args : List (Arg B)) (g : K × Method B) : Option (List Conversion) :=
  (conversions L args g.2.params).map (Conversion.identity .lvalue true :: ·)

def freeBeats (args : List (Arg B)) (f g : K × Method B) : Bool :=
  outranks (freeConversions L args f) (freeConversions L args g)

-- The guard `is_same<Typeclass<bases>, T>` keeps the templates of one typeclass.
def freeCandidates (tcs : List (TypeclassDecl K B)) (T : K) (name : String) (args : List (Arg B)) :
    List (K × Method B) :=
  (templates tcs).filter (fun g => g.2.name = name ∧ g.1 = T ∧ (freeConversions L args g).isSome)

def resolveFree (tcs : List (TypeclassDecl K B)) (T : K) (name : String) (args : List (Arg B)) :
    Option (K × Method B) :=
  best? (freeBeats L args) (freeCandidates L tcs T name args)

def deducedV (I : B) (f : Method B) : Operand → B
  | .held => I
  | .param i => ((f.params[i]?).map (fun p => p.type.base)).getD I

-- The override stands behind `before` in the header of the instance, which declares one specialization more.
def overrideCall (before : List (Header K B)) (key : K) (I : B) (f : Method B) : Option (Executed K B) :=
  (forwardMethodParamNames L f).bind fun args =>
    (resolveFree L (typeclassesOf before) key f.name args).bind fun g =>
      if (key,deducedV I f (f.lookup "concreteData_")) ∈ (key,I) :: instancesOf before then
        some ⟨g.1,g.2,deducedV I f (f.lookup "concreteData_"),f.lookup "concreteData_",f.argIndices⟩
      else none

end Calls

section Compiling

variable {K B : Type} [DecidableEq K] [DecidableEq B] (L : Language B)

-- One member fits the call in the forwarder best, or a parameter in its place takes the call.
def TypeclassDecl.Forwarded (tc : TypeclassDecl K B) (s : Storage) (m : Method B) : Prop :=
  "" ∉ m.names ∧
    (s.implBase ∉ m.names → Settled (memberBeats L (m.params.map L.forward))
      (memberCandidates L tc m.name (m.params.map L.forward))) ∧
    ∀ p ∈ m.params, p.name = s.implBase →
      L.acceptsOn s.receiver p ("__" ++ m.name) (m.params.map L.forward) = true

-- One free function fits the call in the override best, and its specialization stands there.
def TypeclassDecl.Overridden (before : List (Header K B)) (tc : TypeclassDecl K B) (I : B) (m : Method B) :
    Prop :=
  Settled (freeBeats L (m.params.map L.forward))
      (freeCandidates L (typeclassesOf before) tc.key m.name (m.params.map L.forward)) ∧
    (tc.key,deducedV I m (m.lookup "concreteData_")) ∈ (tc.key,I) :: instancesOf before

def TypeclassDecl.Compiles (before : List (Header K B)) (tc : TypeclassDecl K B) : Prop :=
  tc.Declares L before ∧ ∀ m ∈ tc.methods, ∀ s ∈ [Storage.heap,.inplace], tc.Forwarded L s m

def InstanceDecl.Compiles (before : List (Header K B)) (inst : InstanceDecl K B) : Prop :=
  (inst.key,inst.impl) ∉ instancesOf before ∧ ∃ tc ∈ typeclassesOf before, tc.key = inst.key ∧
    inst.Declares L before tc ∧ ∀ m ∈ tc.methods, tc.Overridden L before inst.impl m

def Header.Compiles (before : List (Header K B)) : Header K B → Prop
  | .typeclass tc => tc.Compiles L before
  | .typeclassInstance inst => inst.Compiles L before

def Program.Compiles (P : Program K B) : Prop := Everywhere (Header.Compiles L) P.headers

section Decidability

variable {L} {before : List (Header K B)}

instance (tc : TypeclassDecl K B) (s : Storage) (m : Method B) : Decidable (tc.Forwarded L s m) :=
  inferInstanceAs (Decidable (_ ∧ _ ∧ _))

instance (tc : TypeclassDecl K B) (I : B) (m : Method B) : Decidable (tc.Overridden L before I m) :=
  inferInstanceAs (Decidable (_ ∧ _))

instance (tc : TypeclassDecl K B) : Decidable (tc.Compiles L before) :=
  inferInstanceAs (Decidable (_ ∧ _))

instance (inst : InstanceDecl K B) : Decidable (inst.Compiles L before) :=
  inferInstanceAs (Decidable (_ ∧ ∃ tc ∈ typeclassesOf before, _ ∧ _ ∧ _))

instance (before : List (Header K B)) (h : Header K B) : Decidable (h.Compiles L before) :=
  match h with
  | .typeclass tc => inferInstanceAs (Decidable (tc.Compiles L before))
  | .typeclassInstance inst => inferInstanceAs (Decidable (inst.Compiles L before))

instance (P : Program K B) : Decidable (P.Compiles L) :=
  inferInstanceAs (Decidable (Everywhere _ P.headers))

end Decidability

def Header.instantiates (key : K) (I : B) : Header K B → Bool
  | .typeclass _ => false
  | .typeclassInstance inst => inst.key = key && inst.impl = I

def Program.before (P : Program K B) (key : K) (I : B) : List (Header K B) :=
  P.headers.takeWhile fun h => !h.instantiates key I

def Operand.through (indices : List Nat) : Operand → Operand
  | .held => .held
  | .param i => .param (indices.getD i 0)

-- The call stands behind all headers, and only a program that compiles makes it.
def call (P : Program K B) (s : Storage) (tc : TypeclassDecl K B) (I : B) (m : Method B) :
    Outcome K B :=
  if P.Compiles L ∧ m.name ∉ macrosOf P.headers then
    match forwardMethodParamNames L m with
    | none => .rejected
    | some args =>
      match m.lookup s.implBase with
      | .param i => .onParameter i
      | .held =>
        match (resolveMember L tc m.name args).bind (overrideCall L (P.before tc.key I) tc.key I) with
        | none => .rejected
        | some e =>
          .runs { e with
            data := e.data.through m.argIndices
            args := e.args.map (fun i => m.argIndices.getD i 0) }
  else .rejected

end Compiling

section Compiled

variable {K B : Type} [DecidableEq K] [DecidableEq B] {L : Language B} {P : Program K B}
  {tc : TypeclassDecl K B} {I : B}

theorem instance_found (hI : (tc.key,I) ∈ P.instances) : ∃ inst after,
    P.headers = P.before tc.key I ++ .typeclassInstance inst :: after ∧ inst.key = tc.key ∧ inst.impl = I := by
  obtain ⟨h,hh,heq⟩ := List.mem_filterMap.mp hI
  have hinstantiates : h.instantiates tc.key I = true := by
    cases h with
    | typeclass t => cases heq
    | typeclassInstance inst =>
      obtain ⟨hkey,himpl⟩ := Prod.mk.inj (Option.some.inj heq)
      simp [Header.instantiates,hkey,himpl]
  have hrest : P.headers.dropWhile (fun h => !h.instantiates tc.key I) ≠ [] := by
    rw [ne_eq,List.dropWhile_eq_nil_iff]
    intro hall
    have hnot := hall h hh
    rw [hinstantiates] at hnot
    cases hnot
  obtain ⟨g,after,hafter⟩ := List.exists_cons_of_ne_nil hrest
  have hg := List.head_dropWhile_not (fun h : Header K B => !h.instantiates tc.key I) hrest
  simp only [hafter,List.head_cons,Bool.not_eq_false'] at hg
  cases g with
  | typeclass t => cases hg
  | typeclassInstance inst =>
    simp only [Header.instantiates,Bool.and_eq_true,decide_eq_true_eq] at hg
    refine ⟨inst,after,?_,hg.1,hg.2⟩
    rw [← hafter]
    exact List.takeWhile_append_dropWhile.symm

theorem typeclass_compiles (hP : P.Compiles L) (htc : tc ∈ P.typeclasses) :
    ∃ before, tc.Compiles L before := by
  obtain ⟨before,after,hsplit⟩ := List.append_of_mem (mem_typeclassesOf.mp htc)
  exact ⟨before,hP before _ after hsplit⟩

theorem instance_compiles (hP : P.Compiles L) (htc : tc ∈ P.typeclasses)
    (hI : (tc.key,I) ∈ P.instances) : tc ∈ typeclassesOf (P.before tc.key I) ∧
      ∃ inst : InstanceDecl K B, inst.Declares L (P.before tc.key I) tc ∧
        ∀ m ∈ tc.methods, tc.Overridden L (P.before tc.key I) I m := by
  obtain ⟨inst,after,hsplit,hkey,rfl⟩ := instance_found hI
  obtain ⟨-,t,ht,htkey,hdeclares,hoverridden⟩ := hP _ _ _ hsplit
  have htP : t ∈ P.typeclasses := by
    rw [Program.typeclasses,hsplit,typeclassesOf_append]
    exact List.mem_append_left _ ht
  obtain rfl := same_of_key htP htc (htkey.trans hkey)
  exact ⟨ht,inst,hdeclares,hoverridden⟩

end Compiled

end FlexTypeclass.Dispatch
