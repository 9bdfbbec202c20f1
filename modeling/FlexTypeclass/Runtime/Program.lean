import FlexTypeclass.Lib.Exec
import Mathlib.Data.Finset.Basic
import Mathlib.Tactic.Tauto

namespace FlexTypeclass.Runtime

structure Concrete where
  Ty : Type
  Val : Ty → Type
  Method : Type
  Result : Type
  movedFrom : ∀ t, Val t → Val t
  interrupted : ∀ t, Val t → Val t
  call : ∀ t, Method → Val t → Result × Val t

structure Data (C : Concrete) where
  ty : C.Ty
  val : C.Val ty

def Concrete.counter : Concrete where
  Ty := Unit
  Val _ := Nat
  Method := Unit
  Result := Nat
  movedFrom _ _ := 0
  interrupted _ _ := 0
  call _ _ n := (n,n + 1)

def Data.count (n : Nat) : Data Concrete.counter := ⟨(),n⟩

namespace Data

variable {C : Concrete}

def movedFrom (d : Data C) : Data C := ⟨d.ty,C.movedFrom d.ty d.val⟩

def interrupted (d : Data C) : Data C := ⟨d.ty,C.interrupted d.ty d.val⟩

def result (d : Data C) (m : C.Method) : C.Result := (C.call d.ty m d.val).1

def after (d : Data C) (m : C.Method) : Data C := ⟨d.ty,(C.call d.ty m d.val).2⟩

end Data

abbrev Var := Nat

inductive Throw where
  | never
  | alloc
  | construct
  deriving DecidableEq, Repr

-- `fault` is undefined behaviour; `illFormed` marks programs that name a variable out of scope.
inductive Stop where
  | fault
  | illFormed
  deriving DecidableEq, Repr

inductive Op (C : Concrete) where
  | defaultConstruct (x : Var)
  | convertConstruct (x : Var) (d : Data C)
  | copyConstruct (x rhs : Var)
  | moveConstruct (x rhs : Var)
  | convertAssign (x : Var) (d : Data C)
  | copyAssign (x rhs : Var)
  | moveAssign (x rhs : Var)
  | call (x : Var) (m : C.Method)
  | endOfLife (x : Var)

namespace Op

variable {C : Concrete}

def inScope (alive : Var → Bool) : Op C → Bool
  | .defaultConstruct x => !alive x
  | .convertConstruct x _ => !alive x
  | .copyConstruct x rhs => !alive x && alive rhs
  | .moveConstruct x rhs => !alive x && alive rhs
  | .convertAssign x _ => alive x
  | .copyAssign x rhs => alive x && alive rhs
  | .moveAssign x rhs => alive x && alive rhs
  | .call x _ => alive x
  | .endOfLife x => alive x

def constructs : Op C → Option Var
  | .defaultConstruct x => some x
  | .convertConstruct x _ => some x
  | .copyConstruct x _ => some x
  | .moveConstruct x _ => some x
  | _ => none

def assigns : Op C → Option Var
  | .convertAssign x _ => some x
  | .copyAssign x _ => some x
  | .moveAssign x _ => some x
  | _ => none

def reads : Op C → Option Var
  | .copyConstruct _ rhs => some rhs
  | .moveConstruct _ rhs => some rhs
  | .copyAssign _ rhs => some rhs
  | .moveAssign _ rhs => some rhs
  | .call x _ => some x
  | _ => none

def touches : Op C → List Var
  | .defaultConstruct x => [x]
  | .convertConstruct x _ => [x]
  | .copyConstruct x _ => [x]
  | .moveConstruct x rhs => [x,rhs]
  | .convertAssign x _ => [x]
  | .copyAssign x _ => [x]
  | .moveAssign x rhs => [x,rhs]
  | .call x _ => [x]
  | .endOfLife x => [x]

def ends : Op C → Option Var
  | .endOfLife x => some x
  | _ => none

def selfAssigns (op : Op C) : Bool :=
  match op with
  | .copyAssign x rhs => x == rhs
  | .moveAssign x rhs => x == rhs
  | _ => false

theorem touches_cases {op : Op C} {y : Var} (h : y ∈ op.touches) :
    op.constructs = some y ∨ op.assigns = some y ∨ op.reads = some y ∨ op.ends = some y := by
  cases op <;> simp_all [touches,constructs,assigns,reads,ends] <;> tauto

section Scope

variable {op : Op C} {alive : Var → Bool} {x y : Var} (hscope : op.inScope alive = true)
include hscope

theorem reads_alive (hop : op.reads = some y) : alive y = true := by
  cases op <;> simp_all [reads,inScope]

theorem assigns_alive (hop : op.assigns = some x) : alive x = true := by
  cases op <;> simp_all [assigns,inScope]

theorem constructs_dead (hop : op.constructs = some x) : alive x = false := by
  cases op <;> simp_all [constructs,inScope]

end Scope

def isDefault : Op C → Bool
  | .defaultConstruct _ => true
  | _ => false

def scopeNext (op : Op C) (alive : Finset Var) : Option (Finset Var) :=
  if op.inScope (· ∈ alive) then
    match op.constructs, op.ends with
    | some x, _ => some (insert x alive)
    | none, some x => some (alive.erase x)
    | none, none => some alive
  else none

end Op

def scopeRun {C : Concrete} : List (Op C) → Finset Var → Option (Finset Var)
  | [], alive => some alive
  | op :: ops, alive => (op.scopeNext alive).bind (scopeRun ops)

end FlexTypeclass.Runtime
