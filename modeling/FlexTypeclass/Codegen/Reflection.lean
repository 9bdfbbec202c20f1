import FlexTypeclass.Spelling.Types

namespace FlexTypeclass.Codegen
open Spelling

-- `templateParam` is the name of the template parameter that the type is, if it is one.
structure TypeInfo where
  templateParam : Option String
  deriving DecidableEq, Repr

def TypeInfo.getAsTemplateParamType (type : TypeInfo) : Option String := type.templateParam

structure MethodParamInfo where
  type : TypeInfo
  fullDecl : String
  name : String
  deriving DecidableEq, Repr

structure MethodInfo where
  name : String
  returnType : String
  params : List MethodParamInfo
  tplParams : List String
  isTemplate : Bool
  isImplicit : Bool
  isOperator : Bool
  isCtor : Bool
  isDtor : Bool
  isVirtual : Bool
  isConst : Bool
  isNoExcept : Bool
  isPure : Bool
  isDeleted : Bool
  isDefault : Bool
  body : Option String
  deriving DecidableEq, Repr

def isTypeclassMethod (methodInfo : MethodInfo) : Bool :=
  !methodInfo.isImplicit && !methodInfo.isOperator && !methodInfo.isCtor && !methodInfo.isDtor

structure BaseClass where
  type : ClassType
  name : String
  methods : List MethodInfo

-- `fields` lists the non-static data members, `staticMembers` the static ones.
structure RecordDecl where
  name : String
  fields : List String
  staticMembers : List String
  methods : List MethodInfo
  bases : List BaseClass

structure ClassInfo where
  name : String
  methods : List MethodInfo

def reflectBase (base : BaseClass) : ClassInfo := ⟨base.name,base.methods⟩

def reflectRecord (decl : RecordDecl) : ClassInfo := ⟨decl.name,decl.methods⟩

def ClassInfo.pushMethods (info refled : ClassInfo) : ClassInfo :=
  { info with methods := info.methods ++ refled.methods }

structure MethodForwarding where
  virtual : Bool
  returnType : String
  deriving DecidableEq, Repr

structure ForwardingOptions where
  virtual : Bool
  deriving DecidableEq, Repr

namespace ForwardingOptions

def all : ForwardingOptions := ⟨true⟩

def allButVirtual : ForwardingOptions := ⟨false⟩

end ForwardingOptions

def printMethodForwarding (method : MethodInfo) (options : ForwardingOptions) : MethodForwarding :=
  ⟨method.isVirtual && options.virtual,method.returnType⟩

structure TrailingOptions where
  const : Bool
  noexcept : Bool
  pure : Bool
  deleted : Bool
  default : Bool
  body : Bool
  deriving DecidableEq, Repr

namespace TrailingOptions

def noexceptOnly : TrailingOptions := ⟨false,true,false,false,false,false⟩

def constNoexcept : TrailingOptions := ⟨true,true,false,false,false,false⟩

def all : TrailingOptions := ⟨true,true,true,true,true,true⟩

end TrailingOptions

structure MethodTrailing where
  const : Bool
  noexcept : Bool
  pure : Bool
  deleted : Bool
  default : Bool
  body : Option String
  deriving DecidableEq, Repr

def printMethodTrailing (method : MethodInfo) (options : TrailingOptions) : MethodTrailing where
  const := method.isConst && options.const
  noexcept := method.isNoExcept && options.noexcept
  pure := method.isPure && options.pure
  deleted := method.isDeleted && options.deleted
  default := method.isDefault && options.default
  body := if options.body then method.body else none

end FlexTypeclass.Codegen
