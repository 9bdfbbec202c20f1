import FlexTypeclass.Codegen.GeneratedScopes
import FlexTypeclass.Lib.BestMatch

namespace FlexTypeclass.Dispatch
open Lib Codegen

inductive RefKind where
  | value
  | lvalue
  | rvalue
  deriving DecidableEq, Repr

structure ParamType (B : Type) where
  base : B
  const : Bool
  ref : RefKind
  deriving DecidableEq, Repr

structure Param (B : Type) where
  info : MethodParamInfo
  type : ParamType B
  deriving DecidableEq, Repr

def Param.name {B : Type} (p : Param B) : String := p.info.name

inductive Category where
  | lvalue
  | rvalue
  deriving DecidableEq, Repr

structure Arg (B : Type) where
  base : B
  const : Bool
  category : Category
  deriving DecidableEq, Repr

inductive Conversion where
  | identity (ref : RefKind) (const : Bool)
  | ranked (rank : Nat)
  deriving DecidableEq, Repr

-- Two reference bindings of one type: an rvalue reference first, then the less const one.
def Conversion.better : Conversion → Conversion → Bool
  | .identity r c, .identity r' c' =>
      (r == .rvalue && r' == .lvalue) || (r == r' && r != .value && !c && c')
  | .identity _ _, .ranked _ => true
  | .ranked _, .identity _ _ => false
  | .ranked k, .ranked k' => k < k'

def notWorse : List Conversion → List Conversion → Bool
  | c :: cs, d :: ds => !d.better c && notWorse cs ds
  | _, _ => true

def someBetter : List Conversion → List Conversion → Bool
  | c :: cs, d :: ds => c.better d || someBetter cs ds
  | _, _ => false

theorem notWorse_of_someBetter {cs ds : List Conversion} (h : someBetter cs ds = true) :
    notWorse ds cs = false := by
  induction cs generalizing ds with
  | nil => cases h
  | cons c cs ih =>
    cases ds with
    | nil => cases h
    | cons d ds =>
      rcases Bool.or_eq_true_iff.mp h with hc | hrest
      · simp [notWorse,hc]
      · simp [notWorse,ih hrest]

def outranks (x y : Option (List Conversion)) : Bool :=
  match x, y with
  | some cs, some ds => notWorse cs ds && someBetter cs ds
  | _, _ => false

theorem outranks_asymm {x y : Option (List Conversion)} (h : outranks x y = true) :
    outranks y x = false := by
  cases x with
  | none => cases h
  | some cs =>
    cases y with
    | none => cases h
    | some ds =>
      simp only [outranks,Bool.and_eq_true] at h
      simp [outranks,notWorse_of_someBetter h.2]

-- Code outside the repository: how `forwardMethodParamNames` spells an argument, how the compiler ranks
-- conversions between different types, and whether it accepts the call of a member `name` on what the
-- parameter `p` makes of `receiver`.
structure Language (B : Type) extends Reading where
  forward : Param B → Arg B
  convert : Arg B → ParamType B → Option Nat
  acceptsOn (receiver : String) (p : Param B) (name : String) (args : List (Arg B)) : Bool

structure Forwards {B : Type} (L : Language B) : Prop where
  base : ∀ p, (L.forward p).base = p.type.base
  const : ∀ p, (L.forward p).const = p.type.const
  lvalue : ∀ p, p.type.ref = .lvalue → (L.forward p).category = .lvalue
  rvalue : ∀ p, p.type.ref = .rvalue → (L.forward p).category = .rvalue

section Ranking

variable {B : Type} [DecidableEq B] (L : Language B)

def binds (a : Arg B) (p : ParamType B) : Bool :=
  match p.ref with
  | .value => true
  | .lvalue => p.const || (a.category == .lvalue && !a.const)
  | .rvalue => a.category == .rvalue && (p.const || !a.const)

def conversion (a : Arg B) (p : ParamType B) : Option Conversion :=
  if a.base = p.base then
    if binds a p then some (.identity p.ref p.const) else none
  else (L.convert a p).map .ranked

def conversions : List (Arg B) → List (Param B) → Option (List Conversion)
  | [], ps => if ps.all (fun p => L.optional p.info.fullDecl) then some [] else none
  | a :: as, p :: ps =>
    (conversion L a p.type).bind fun c => (conversions as ps).map (c :: ·)
  | _ :: _, [] => none

def ownConversions (params : List (Param B)) : List Conversion :=
  params.map (fun p => .identity p.type.ref p.type.const)

variable {L} (hL : Forwards L)
include hL

theorem conversion_forward (p : Param B) :
    conversion L (L.forward p) p.type = some (.identity p.type.ref p.type.const) := by
  have hbinds : binds (L.forward p) p.type = true := by
    rw [binds]
    cases hr : p.type.ref with
    | value => rfl
    | lvalue => cases hc : p.type.const <;> simp [hL.lvalue p hr,hL.const p,hc]
    | rvalue => cases hc : p.type.const <;> simp [hL.rvalue p hr,hL.const p,hc]
  rw [conversion,if_pos (hL.base p),if_pos hbinds]

theorem conversions_forward (params : List (Param B)) :
    conversions L (params.map L.forward) params = some (ownConversions params) := by
  induction params with
  | nil => rfl
  | cons p params ih =>
    rw [List.map_cons,conversions,conversion_forward hL,ih]
    rfl

theorem forward_unbeaten (p : Param B) {q : ParamType B} {c : Conversion}
    (h : conversion L (L.forward p) q = some c) :
    c.better (.identity p.type.ref p.type.const) = false := by
  rw [conversion] at h
  split at h
  · split at h
    · rename_i hbinds
      cases h
      have hconst := hL.const p
      have hl := hL.lvalue p
      have hr := hL.rvalue p
      rw [binds] at hbinds
      cases hp : p.type.ref <;> cases hq : q.ref <;> cases hpc : p.type.const <;>
        cases hqc : q.const <;> simp_all [Conversion.better]
    · cases h
  · obtain ⟨k,-,rfl⟩ := Option.map_eq_some_iff.mp h
    rfl

theorem own_notWorse (params : List (Param B)) {ps : List (Param B)} {ds : List Conversion}
    (h : conversions L (params.map L.forward) ps = some ds) :
    notWorse (ownConversions params) ds = true := by
  induction params generalizing ps ds with
  | nil => rfl
  | cons p params ih =>
    cases ps with
    | nil => cases h
    | cons q ps =>
      obtain ⟨c,hc,hrest⟩ := Option.bind_eq_some_iff.mp h
      obtain ⟨cs,hcs,rfl⟩ := Option.map_eq_some_iff.mp hrest
      simp only [ownConversions,List.map_cons,notWorse,Bool.and_eq_true]
      exact ⟨by simp [forward_unbeaten hL p hc],ih hcs⟩

end Ranking

end FlexTypeclass.Dispatch
