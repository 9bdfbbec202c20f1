import FlexTypeclass.Lib.Ledger
import FlexTypeclass.Runtime.Program
import Mathlib.Logic.Function.Basic

namespace FlexTypeclass.Runtime.InplaceTypeclass
open Lib

variable {C : Concrete}

structure Build where
  launder : Bool
  ndebug : Bool
  deriving DecidableEq, Repr

-- An address is the variable whose `storage_` it points to.
abbrev Addr := Var

structure Wrapper where
  storage : Option ObjId
  implBase : Option Addr
  deriving DecidableEq, Repr

structure State (C : Concrete) where
  vars : Var → Option Wrapper
  impls : Ledger (Data C)

def init : State C := ⟨fun _ => none,[]⟩

def alive (s : State C) (x : Var) : Bool := (s.vars x).isSome

abbrev M (C : Concrete) := Exec Stop (State C)

def wrapper (x : Var) : M C Wrapper := fun s =>
  match s.vars x with
  | some w => .ok w s
  | none => .stop .illFormed

def setWrapper (x : Var) (w : Option Wrapper) : M C Unit :=
  Exec.modify (fun s => { s with vars := Function.update s.vars x w })

def implBase (b : Build) (x : Var) : M C (Option Addr) := do
  let w ← wrapper x
  pure (if b.launder then some x else w.implBase)

def deref (p : Option Addr) : M C (ObjId × Data C) := fun s =>
  match p with
  | none => .stop .fault
  | some y =>
    match (s.vars y).bind Wrapper.storage with
    | none => .stop .fault
    | some o =>
      match s.impls.value? o with
      | some d => .ok (o,d) s
      | none => .stop .fault

def assertSet (b : Build) (x : Var) : M C Unit :=
  if b.ndebug then pure ()
  else do
    let p ← implBase b x
    if p.isNone then Exec.stop .fault else pure ()

def writeConcrete (o : ObjId) (d : Data C) : M C Unit :=
  Exec.modify (fun s => { s with impls := s.impls.write o d })

def destroyImpl (b : Build) (x : Var) : M C Unit := do
  let p ← implBase b x
  let (o,_) ← deref p
  Exec.modify (fun s => { s with impls := s.impls.destroy o })

def construct (addr : Addr) (d : Data C) : M C Addr := do
  let w ← wrapper addr
  let s ← Exec.get
  Exec.modify (fun s => { s with impls := s.impls.construct d })
  setWrapper addr (some { w with storage := some s.impls.length })
  pure addr

def placementNew (t : Throw) (addr : Addr) (d : Data C) : M C Addr :=
  match t with
  | .construct => Exec.throw
  | _ => construct addr d

def cloneAsRawPtr (t : Throw) (p : Option Addr) (addr : Addr) : M C Addr := do
  let (_,d) ← deref p
  placementNew t addr d

def moveCloneAsRawPtr (t : Throw) (p : Option Addr) (addr : Addr) : M C Addr := do
  let (o,d) ← deref p
  match t with
  | .construct => do
      writeConcrete o d.interrupted
      Exec.throw
  | _ => do
      let q ← construct addr d
      writeConcrete o d.movedFrom
      pure q

def saveImplBase (b : Build) (x : Var) (q : Addr) : M C Unit :=
  if b.launder then pure ()
  else do
    let w ← wrapper x
    setWrapper x (some { w with implBase := some q })

def emptyWrapper : Wrapper := ⟨none,none⟩

-- A constructor that throws leaves no variable behind.
def constructing (x : Var) (ctor : M C Unit) : M C Unit := fun s =>
  match ctor { s with vars := Function.update s.vars x (some emptyWrapper) } with
  | .ok _ u => .ok () u
  | .threw u => .threw { u with vars := Function.update u.vars x none }
  | .stop e => .stop e

def defaultConstructor (x : Var) : M C Unit := constructing x (pure ())

def convertingConstructor (b : Build) (t : Throw) (x : Var) (impl : Data C) : M C Unit :=
  constructing x do
    let q ← placementNew t x impl
    saveImplBase b x q

def copyConstructor (b : Build) (t : Throw) (x rhs : Var) : M C Unit :=
  constructing x do
    let p ← implBase b rhs
    let q ← cloneAsRawPtr t p x
    saveImplBase b x q

def moveConstructor (b : Build) (t : Throw) (x rhs : Var) : M C Unit :=
  constructing x do
    let p ← implBase b rhs
    let q ← moveCloneAsRawPtr t p x
    saveImplBase b x q

def convertingAssignment (b : Build) (t : Throw) (x : Var) (impl : Data C) : M C Unit := do
  assertSet b x
  destroyImpl b x
  let q ← placementNew t x impl
  saveImplBase b x q

def copyAssignment (b : Build) (t : Throw) (x rhs : Var) : M C Unit := do
  assertSet b x
  destroyImpl b x
  let p ← implBase b rhs
  let q ← cloneAsRawPtr t p x
  saveImplBase b x q

def moveAssignment (b : Build) (t : Throw) (x rhs : Var) : M C Unit := do
  assertSet b x
  destroyImpl b x
  let p ← implBase b rhs
  let q ← moveCloneAsRawPtr t p x
  saveImplBase b x q

def callMethod (b : Build) (x : Var) (m : C.Method) : M C C.Result := do
  let p ← implBase b x
  let (o,d) ← deref p
  writeConcrete o (d.after m)
  pure (d.result m)

-- The class declares no destructor: the storage goes away and its object is left as it is.
def endOfLife (x : Var) : M C Unit := setWrapper x none

def body (b : Build) (t : Throw) : Op C → M C (Option C.Result)
  | .defaultConstruct x => do defaultConstructor x; pure none
  | .convertConstruct x d => do convertingConstructor b t x d; pure none
  | .copyConstruct x rhs => do copyConstructor b t x rhs; pure none
  | .moveConstruct x rhs => do moveConstructor b t x rhs; pure none
  | .convertAssign x d => do convertingAssignment b t x d; pure none
  | .copyAssign x rhs => do copyAssignment b t x rhs; pure none
  | .moveAssign x rhs => do moveAssignment b t x rhs; pure none
  | .call x m => do
      let r ← callMethod b x m
      pure (some r)
  | .endOfLife x => do endOfLife x; pure none

def step (b : Build) (t : Throw) (op : Op C) : M C (Option C.Result) := fun s =>
  if op.inScope (alive s) then body b t op s else .stop .illFormed

end FlexTypeclass.Runtime.InplaceTypeclass
