import FlexTypeclass.Codegen.Reflection

namespace FlexTypeclass.Codegen
open Spelling

def kIsMoveOnlyFieldName : String := "kIsMoveOnly"

inductive Constructor where
  | default
  | copy
  | move
  | converting
  | fromConstRef
  | fromRvalue
  | variadic
  | variadicConstRef
  deriving DecidableEq, Repr

inductive Assignment where
  | converting
  | copy
  | move
  deriving DecidableEq, Repr

inductive CloneKind where
  | pureVirtual
  | overrideFinal
  deriving DecidableEq, Repr

-- `callee` is what the body of a forwarder or an override calls.
structure MethodDecl where
  templateHead : Option (List String)
  forwarding : MethodForwarding
  name : String
  params : List MethodParamInfo
  trailing : MethodTrailing
  overrideFinal : Bool
  callee : Option String
  deriving DecidableEq, Repr

inductive Member where
  | constructor (k : Constructor)
  | assignment (k : Assignment)
  | virtualDestructor
  | clone (name : String) (kind : CloneKind)
  | moveClone (name : String) (kind : CloneKind)
  | method (decl : MethodDecl)
  | data (name : String)
  deriving DecidableEq, Repr

structure FreeFunction where
  forwarding : MethodForwarding
  name : String
  params : List MethodParamInfo
  noexcept : Bool
  deriving DecidableEq, Repr

def MethodInfo.templateHead (method : MethodInfo) : Option (List String) :=
  if method.isTemplate then some method.tplParams else none

def methodLoop {α : Type} (methods : List MethodInfo) (emit : MethodInfo → α) : List α :=
  (methods.filter isTypeclassMethod).map emit

def freeFunction (method : MethodInfo) : FreeFunction where
  forwarding := printMethodForwarding method .allButVirtual
  name := method.name
  params := method.params
  noexcept := (printMethodTrailing method .noexceptOnly).noexcept

def explicitSpecialization (method : MethodInfo) : FreeFunction where
  forwarding := printMethodForwarding method .allButVirtual
  name := method.name
  params := method.params
  noexcept := (printMethodTrailing method .noexceptOnly).noexcept

def implBaseMethod (method : MethodInfo) : MethodDecl where
  templateHead := method.templateHead
  forwarding := printMethodForwarding method .all
  name := "__" ++ method.name
  params := method.params
  trailing := printMethodTrailing method .all
  overrideFinal := false
  callee := none

def wrapperMethod (implBase : String) (method : MethodInfo) : MethodDecl where
  templateHead := method.templateHead
  forwarding := printMethodForwarding method .allButVirtual
  name := method.name
  params := method.params
  trailing := printMethodTrailing method .constNoexcept
  overrideFinal := false
  callee := some (implBase ++ "->__" ++ method.name)

def implMethod (method : MethodInfo) : MethodDecl where
  templateHead := method.templateHead
  forwarding := printMethodForwarding method .allButVirtual
  name := "__" ++ method.name
  params := method.params
  trailing := printMethodTrailing method .constNoexcept
  overrideFinal := true
  callee := some method.name

def copyMember (moveOnly : Bool) (m : Member) : List Member := if !moveOnly then [m] else []

def implBaseMembers (clone moveClone : String) (moveOnly : Bool) (methods : List MethodInfo) :
    List Member :=
  [.constructor .default,.virtualDestructor] ++ copyMember moveOnly (.clone clone .pureVirtual) ++
    [.moveClone moveClone .pureVirtual] ++ methodLoop methods (fun m => .method (implBaseMethod m))

def TypeclassImplBase : Bool → List MethodInfo → List Member :=
  implBaseMembers "clone_as_unique_ptr" "move_clone_as_unique_ptr"

def InplaceTypeclassImplBase : Bool → List MethodInfo → List Member :=
  implBaseMembers "clone_as_raw_ptr" "move_clone_as_raw_ptr"

def wrapperMembers (implBase : String) (moveOnly : Bool) (methods : List MethodInfo) :
    List Member :=
  [.constructor .default] ++ copyMember moveOnly (.constructor .copy) ++
    [.constructor .move,.constructor .converting,.assignment .converting] ++
    copyMember moveOnly (.assignment .copy) ++ [.assignment .move] ++
    methodLoop methods (fun m => .method (wrapperMethod implBase m))

def Typeclass : Bool → List MethodInfo → List Member := wrapperMembers "implBase_"

def InplaceTypeclass : Bool → List MethodInfo → List Member := wrapperMembers "__implBase()"

def typeclassType (decl : RecordDecl) : RecordDecl :=
  ⟨"type",[],[kIsMoveOnlyFieldName],[],decl.bases⟩

-- Unlike the heap wrapper, the in-place one writes the flag as a non-static member.
def inplaceTypeclassType (decl : RecordDecl) : RecordDecl :=
  ⟨"type",[kIsMoveOnlyFieldName],[],[],decl.bases⟩

def implMembers (clone moveClone : String) (moveOnly : Bool) (methods : List MethodInfo) :
    List Member :=
  copyMember moveOnly (.constructor .fromConstRef) ++
    [.constructor .fromRvalue,.constructor .variadic,.constructor .variadicConstRef] ++
    copyMember moveOnly (.clone clone .overrideFinal) ++ [.moveClone moveClone .overrideFinal] ++
    methodLoop methods (fun m => .method (implMethod m)) ++ [.data "concreteData_"]

def TypeclassImpl (moveOnly : Bool) (methods : List MethodInfo) : List Member :=
  .data kIsMoveOnlyFieldName ::
    implMembers "clone_as_unique_ptr" "move_clone_as_unique_ptr" moveOnly methods

def InplaceTypeclassImpl : Bool → List MethodInfo → List Member :=
  implMembers "clone_as_raw_ptr" "move_clone_as_raw_ptr"

end FlexTypeclass.Codegen
