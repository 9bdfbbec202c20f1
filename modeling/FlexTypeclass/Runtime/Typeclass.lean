import FlexTypeclass.Lib.Ledger
import FlexTypeclass.Runtime.Program
import Mathlib.Logic.Function.Basic

namespace FlexTypeclass.Runtime.Typeclass
open Lib

variable {C : Concrete}

-- A variable in scope maps to its `implBase_`; the ledger lists every `TypeclassImpl` ever made.
structure State (C : Concrete) where
  vars : Var → Option (Option ObjId)
  impls : Ledger (Data C)

def init : State C := ⟨fun _ => none,[]⟩

def alive (s : State C) (x : Var) : Bool := (s.vars x).isSome

abbrev M (C : Concrete) := Exec Stop (State C)

def implBase (x : Var) : M C (Option ObjId) := fun s =>
  match s.vars x with
  | some p => .ok p s
  | none => .stop .illFormed

def deref (p : Option ObjId) : M C (ObjId × Data C) := fun s =>
  match p with
  | none => .stop .fault
  | some o =>
    match s.impls.value? o with
    | some d => .ok (o,d) s
    | none => .stop .fault

def setImplBase (x : Var) (p : Option (Option ObjId)) : M C Unit :=
  Exec.modify (fun s => { s with vars := Function.update s.vars x p })

def writeConcrete (o : ObjId) (d : Data C) : M C Unit :=
  Exec.modify (fun s => { s with impls := s.impls.write o d })

def construct (d : Data C) : M C ObjId := fun s =>
  .ok s.impls.length { s with impls := s.impls.construct d }

def deleteImpl (p : Option ObjId) : M C Unit :=
  match p with
  | none => pure ()
  | some _ => do
      let (o,_) ← deref p
      Exec.modify (fun s => { s with impls := s.impls.destroy o })

def makeUnique (t : Throw) (d : Data C) : M C ObjId :=
  match t with
  | .never => construct d
  | .alloc => Exec.throw
  | .construct => Exec.throw

def cloneAsUniquePtr (t : Throw) (p : Option ObjId) : M C ObjId := do
  let (_,d) ← deref p
  makeUnique t d

def moveCloneAsUniquePtr (t : Throw) (p : Option ObjId) : M C ObjId := do
  let (o,d) ← deref p
  match t with
  | .never => do
      let q ← construct d
      writeConcrete o d.movedFrom
      pure q
  | .alloc => Exec.throw
  | .construct => do
      writeConcrete o d.interrupted
      Exec.throw

-- `implBase_ = std::move(q)` stores the new pointer and then deletes the old object.
def reset (x : Var) (q : ObjId) : M C Unit := do
  let old ← implBase x
  setImplBase x (some (some q))
  deleteImpl old

def defaultConstructor (x : Var) : M C Unit := setImplBase x (some none)

def convertingConstructor (t : Throw) (x : Var) (impl : Data C) : M C Unit := do
  let q ← makeUnique t impl
  setImplBase x (some (some q))

def copyConstructor (t : Throw) (x rhs : Var) : M C Unit := do
  let p ← implBase rhs
  let q ← cloneAsUniquePtr t p
  setImplBase x (some (some q))

def moveConstructor (t : Throw) (x rhs : Var) : M C Unit := do
  let p ← implBase rhs
  let q ← moveCloneAsUniquePtr t p
  setImplBase x (some (some q))

def convertingAssignment (t : Throw) (x : Var) (impl : Data C) : M C Unit := do
  let q ← makeUnique t impl
  reset x q

def copyAssignment (t : Throw) (x rhs : Var) : M C Unit := do
  let p ← implBase rhs
  let q ← cloneAsUniquePtr t p
  reset x q

def moveAssignment (t : Throw) (x rhs : Var) : M C Unit := do
  let p ← implBase rhs
  let q ← moveCloneAsUniquePtr t p
  reset x q

def callMethod (x : Var) (m : C.Method) : M C C.Result := do
  let p ← implBase x
  let (o,d) ← deref p
  writeConcrete o (d.after m)
  pure (d.result m)

def destructor (x : Var) : M C Unit := do
  let p ← implBase x
  setImplBase x none
  deleteImpl p

def body (t : Throw) : Op C → M C (Option C.Result)
  | .defaultConstruct x => do defaultConstructor x; pure none
  | .convertConstruct x d => do convertingConstructor t x d; pure none
  | .copyConstruct x rhs => do copyConstructor t x rhs; pure none
  | .moveConstruct x rhs => do moveConstructor t x rhs; pure none
  | .convertAssign x d => do convertingAssignment t x d; pure none
  | .copyAssign x rhs => do copyAssignment t x rhs; pure none
  | .moveAssign x rhs => do moveAssignment t x rhs; pure none
  | .call x m => do
      let r ← callMethod x m
      pure (some r)
  | .endOfLife x => do destructor x; pure none

def step (t : Throw) (op : Op C) : M C (Option C.Result) := fun s =>
  if op.inScope (alive s) then body t op s else .stop .illFormed

end FlexTypeclass.Runtime.Typeclass
