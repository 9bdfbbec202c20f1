import FlexTypeclass.Lib.SplitTop

namespace FlexTypeclass.Spelling
open Lib

inductive Lexeme where
  | word (text : String)
  | sym (c : Char)
  | blank
  deriving DecidableEq, Repr

abbrev Text := List Lexeme

def Lexeme.bracket : Lexeme → Bracket
  | .sym c =>
      if c = '<' ∨ c = '(' ∨ c = '[' ∨ c = '{' then .opens
      else if c = '>' ∨ c = ')' ∨ c = ']' ∨ c = '}' then .closes
      else if c = ',' then .separator
      else .plain
  | _ => .plain

def keywords : List String :=
  ["_Bool","bool","struct","class","union","enum","namespace","alignof","__alignof","const","volatile",
    "noexcept","void","char","signed","unsigned","short","int","long","float","double","wchar_t",
    "char16_t","char32_t"]

def isNameChar (c : Char) : Bool := c.isAlphanum || c = '_' || 128 ≤ c.toNat

-- The name in front of a leading `::` is empty.
structure Atom where
  text : String
  free : text ∉ keywords
  name : text.toList.all isNameChar = true

-- An operator, a literal or another keyword of an expression, which every policy prints alike.
structure Token where
  text : String
  free : text ∉ keywords
  solid : ' ' ∉ text.toList

inductive Builtin where
  | bool
  | void
  | char
  | signedChar
  | unsignedChar
  | short
  | unsignedShort
  | int
  | unsignedInt
  | long
  | unsignedLong
  | longLong
  | unsignedLongLong
  | float
  | double
  | longDouble
  | wchar
  | char16
  | char32
  deriving DecidableEq, Repr

inductive Tag where
  | ttkStruct
  | ttkClass
  | ttkUnion
  | ttkEnum
  deriving DecidableEq, Repr

structure Qualifiers where
  const : Bool
  volatile : Bool
  deriving DecidableEq, Repr

inductive RefQualifier where
  | none
  | lvalue
  | rvalue
  deriving DecidableEq, Repr

inductive Delimiter where
  | round
  | square
  | curly
  | angle
  deriving DecidableEq, Repr

structure FunctionQualifiers where
  method : Qualifiers
  ref : RefQualifier
  noexcept : Bool
  deriving DecidableEq, Repr

mutual

inductive Ty where
  | builtin (quals : Qualifiers) (b : Builtin)
  | named (quals : Qualifiers) (tag : Option Tag) (path : Path)
  | pointer (quals : Qualifiers) (t : Ty)
  | memberPointer (quals : Qualifiers) (tag : Option Tag) (cls : Path) (t : Ty)
  | lvalueRef (t : Ty)
  | rvalueRef (t : Ty)
  | function (ret : Ty) (params : Params) (quals : FunctionQualifiers)
  | array (t : Ty) (size : Expr)

inductive Path where
  | last (name : Atom) (tpl : TemplateArgs)
  | scope (name : Atom) (tpl : TemplateArgs) (rest : Path)
  | anonymous (rest : Path)

inductive TemplateArgs where
  | none
  | some (args : Args)

inductive Args where
  | nil
  | type (t : Ty) (rest : Args)
  | template (path : Path) (rest : Args)
  | value (e : Expr) (rest : Args)

inductive Params where
  | nil
  | ellipsis
  | cons (t : Ty) (rest : Params)

-- `construct` is a class that a functional cast names, where the grammar takes no keyword.
inductive Expr where
  | nil
  | blank (rest : Expr)
  | token (a : Token) (rest : Expr)
  | name (path : Path) (rest : Expr)
  | type (t : Ty) (rest : Expr)
  | construct (tag : Option Tag) (cls : Path) (rest : Expr)
  | alignof (rest : Expr)
  | group (delimiter : Delimiter) (inner : Exprs) (rest : Expr)

inductive Exprs where
  | nil
  | cons (e : Expr) (rest : Exprs)

end

structure LangOptions where
  CPlusPlus : Bool
  CPlusPlus11 : Bool
  Bool : Bool
  deriving DecidableEq, Repr

def LangOptions.default : LangOptions := ⟨false,false,false⟩

def LangOptions.cxx : LangOptions := ⟨true,true,true⟩

structure PrintingPolicy where
  SuppressTagKeyword : Bool
  UseVoidForZeroParams : Bool
  Alignof : Bool
  Bool : Bool
  deriving DecidableEq, Repr

def printingPolicy (lo : LangOptions) : PrintingPolicy :=
  ⟨lo.CPlusPlus,!lo.CPlusPlus,lo.CPlusPlus11,lo.Bool⟩

def Builtin.words : Builtin → List String
  | .bool => ["bool"]
  | .void => ["void"]
  | .char => ["char"]
  | .signedChar => ["signed","char"]
  | .unsignedChar => ["unsigned","char"]
  | .short => ["short"]
  | .unsignedShort => ["unsigned","short"]
  | .int => ["int"]
  | .unsignedInt => ["unsigned","int"]
  | .long => ["long"]
  | .unsignedLong => ["unsigned","long"]
  | .longLong => ["long","long"]
  | .unsignedLongLong => ["unsigned","long","long"]
  | .float => ["float"]
  | .double => ["double"]
  | .longDouble => ["long","double"]
  | .wchar => ["wchar_t"]
  | .char16 => ["char16_t"]
  | .char32 => ["char32_t"]

def Builtin.print (p : PrintingPolicy) : Builtin → Text
  | .bool => [.word (if p.Bool then "bool" else "_Bool")]
  | b => List.intercalate [.blank] (b.words.map (fun w => [.word w]))

def Tag.word : Tag → Lexeme
  | .ttkStruct => .word "struct"
  | .ttkClass => .word "class"
  | .ttkUnion => .word "union"
  | .ttkEnum => .word "enum"

def Qualifiers.words (quals : Qualifiers) : List Lexeme :=
  (if quals.const then [.word "const"] else []) ++ (if quals.volatile then [.word "volatile"] else [])

def Qualifiers.before (quals : Qualifiers) : Text := quals.words.flatMap (fun w => [w,.blank])

def Qualifiers.after (quals : Qualifiers) : Text := quals.words.intersperse .blank

def RefQualifier.print : RefQualifier → Text
  | .none => []
  | .lvalue => [.blank,.sym '&']
  | .rvalue => [.blank,.sym '&',.sym '&']

def FunctionQualifiers.print (quals : FunctionQualifiers) : Text :=
  quals.method.words.flatMap (fun w => [.blank,w]) ++ quals.ref.print ++
    (if quals.noexcept then [.blank,.word "noexcept"] else [])

def printTag (p : PrintingPolicy) : Option Tag → Text
  | some tag => if p.SuppressTagKeyword then [] else [tag.word,.blank]
  | none => []

def Ty.wraps : Ty → Bool
  | .function _ _ _ => true
  | .array _ _ => true
  | _ => false

def Ty.endsInSymbol : Ty → Bool
  | .pointer quals _ => quals.words.isEmpty
  | .memberPointer quals _ _ _ => quals.words.isEmpty
  | .lvalueRef _ => true
  | .rvalueRef _ => true
  | _ => false

def Params.isNil : Params → Bool
  | .nil => true
  | _ => false

def Delimiter.opening : Delimiter → Lexeme
  | .round => .sym '('
  | .square => .sym '['
  | .curly => .sym '{'
  | .angle => .sym '<'

def Delimiter.closing : Delimiter → Lexeme
  | .round => .sym ')'
  | .square => .sym ']'
  | .curly => .sym '}'
  | .angle => .sym '>'

def printAnonymous : Text :=
  [.sym '(',.word "anonymous",.blank,.word "namespace",.sym ')',.sym ':',.sym ':']

def openDeclarator (t : Ty) : Text :=
  if t.wraps then [.sym '('] else if t.endsInSymbol then [] else [.blank]

def closeDeclarator (t : Ty) : Text := if t.wraps then [.sym ')'] else []

def closeArgs (body : Text) : Text :=
  if body.getLast? = some (.sym '>') then [.blank,.sym '>'] else [.sym '>']

def commaSeparated (pieces : List Text) : Text := List.intercalate [.sym ',',.blank] pieces

mutual

def Ty.before (p : PrintingPolicy) : Ty → Text
  | .builtin quals b => quals.before ++ b.print p
  | .named quals tag path => quals.before ++ printTag p tag ++ path.print p
  | .pointer quals t => t.before p ++ (openDeclarator t ++ [.sym '*'] ++ quals.after)
  | .memberPointer quals tag cls t =>
      t.before p ++ (openDeclarator t ++ (printTag p tag ++ cls.print p) ++
        [.sym ':',.sym ':',.sym '*'] ++ quals.after)
  | .lvalueRef t => t.before p ++ (openDeclarator t ++ [.sym '&'])
  | .rvalueRef t => t.before p ++ (openDeclarator t ++ [.sym '&',.sym '&'])
  | .function ret _ _ => ret.before p ++ [.blank]
  | .array t _ => t.before p ++ [.blank]

def Ty.after (p : PrintingPolicy) : Ty → Text
  | .builtin _ _ => []
  | .named _ _ _ => []
  | .pointer _ t => closeDeclarator t ++ t.after p
  | .memberPointer _ _ _ t => closeDeclarator t ++ t.after p
  | .lvalueRef t => closeDeclarator t ++ t.after p
  | .rvalueRef t => closeDeclarator t ++ t.after p
  | .function ret params quals =>
      (.sym '(' :: (commaSeparated (if params.isNil && p.UseVoidForZeroParams then [[.word "void"]]
        else params.print p) ++ [.sym ')'])) ++ quals.print ++ ret.after p
  | .array t size => (.sym '[' :: (size.print p ++ [.sym ']'])) ++ t.after p

def Path.print (p : PrintingPolicy) : Path → Text
  | .last name tpl => .word name.text :: tpl.print p
  | .scope name tpl rest => .word name.text :: (tpl.print p ++ ([.sym ':',.sym ':'] ++ rest.print p))
  | .anonymous rest => printAnonymous ++ rest.print p

def TemplateArgs.print (p : PrintingPolicy) : TemplateArgs → Text
  | .none => []
  | .some args =>
      .sym '<' :: (commaSeparated (args.print p) ++ closeArgs (commaSeparated (args.print p)))

def Args.print (p : PrintingPolicy) : Args → List Text
  | .nil => []
  | .type t rest => (t.before p ++ t.after p) :: rest.print p
  | .template path rest => path.print p :: rest.print p
  | .value e rest => e.print p :: rest.print p

def Params.print (p : PrintingPolicy) : Params → List Text
  | .nil => []
  | .ellipsis => [[.sym '.',.sym '.',.sym '.']]
  | .cons t rest => (t.before p ++ t.after p) :: rest.print p

def Expr.print (p : PrintingPolicy) : Expr → Text
  | .nil => []
  | .blank rest => .blank :: rest.print p
  | .token a rest => .word a.text :: rest.print p
  | .name path rest => path.print p ++ rest.print p
  | .type t rest => (t.before p ++ t.after p) ++ rest.print p
  | .construct tag cls rest => (printTag p tag ++ cls.print p) ++ rest.print p
  | .alignof rest => .word (if p.Alignof then "alignof" else "__alignof") :: rest.print p
  | .group delimiter inner rest =>
      (delimiter.opening :: (commaSeparated (inner.print p) ++ [delimiter.closing])) ++ rest.print p

def Exprs.print (p : PrintingPolicy) : Exprs → List Text
  | .nil => []
  | .cons e rest => e.print p :: rest.print p

end

def Ty.getAsString (p : PrintingPolicy) (t : Ty) : Text := t.before p ++ t.after p

mutual

-- What is printed and no C++ spelling has: the C options' `_Bool` and `__alignof`, their keyword before
-- a class where the grammar takes none, and an unnamed namespace under any options.
def Ty.unspellable : Ty → Nat
  | .builtin _ b => if b = .bool then 1 else 0
  | .named _ _ path => path.unspellable
  | .pointer _ t => t.unspellable
  | .memberPointer _ tag cls t => (if tag.isSome then 1 else 0) + cls.unspellable + t.unspellable
  | .lvalueRef t => t.unspellable
  | .rvalueRef t => t.unspellable
  | .function ret params _ => ret.unspellable + params.unspellable
  | .array t size => t.unspellable + size.unspellable

def Path.unspellable : Path → Nat
  | .last _ tpl => tpl.unspellable
  | .scope _ tpl rest => tpl.unspellable + rest.unspellable
  | .anonymous rest => 1 + rest.unspellable

def TemplateArgs.unspellable : TemplateArgs → Nat
  | .none => 0
  | .some args => args.unspellable

def Args.unspellable : Args → Nat
  | .nil => 0
  | .type t rest => t.unspellable + rest.unspellable
  | .template path rest => path.unspellable + rest.unspellable
  | .value e rest => e.unspellable + rest.unspellable

def Params.unspellable : Params → Nat
  | .nil => 0
  | .ellipsis => 0
  | .cons t rest => t.unspellable + rest.unspellable

def Expr.unspellable : Expr → Nat
  | .nil => 0
  | .blank rest => rest.unspellable
  | .token _ rest => rest.unspellable
  | .name path rest => path.unspellable + rest.unspellable
  | .type t rest => t.unspellable + rest.unspellable
  | .construct tag cls rest => (if tag.isSome then 1 else 0) + cls.unspellable + rest.unspellable
  | .alignof rest => 1 + rest.unspellable
  | .group _ inner rest => inner.unspellable + rest.unspellable

def Exprs.unspellable : Exprs → Nat
  | .nil => 0
  | .cons e rest => e.unspellable + rest.unspellable

end

-- A base class is a struct or a class, or a typedef name when there is no tag.
structure ClassType where
  tag : Option Tag
  path : Path
  derivable : tag ≠ some .ttkUnion ∧ tag ≠ some .ttkEnum

theorem ttkStruct_derivable :
    some Tag.ttkStruct ≠ some .ttkUnion ∧ some Tag.ttkStruct ≠ some .ttkEnum := by
  decide

namespace ClassType

def ty (c : ClassType) : Ty := .named ⟨false,false⟩ c.tag c.path

def getAsString (p : PrintingPolicy) (c : ClassType) : Text := c.ty.getAsString p

end ClassType

def extractTypeName : Text → Text
  | .word w :: .blank :: rest =>
      if w = "struct" ∨ w = "class" then rest else .word w :: .blank :: rest
  | text => text

def kSingleComma : Lexeme := .sym ','

structure TypeclassKeys where
  fullBaseType : Text
  compoundId : List Text

def TypeclassKeys.pushBase (keys : TypeclassKeys) (base : ClassType) : TypeclassKeys :=
  let preparedFullBaseType := extractTypeName (base.getAsString (printingPolicy .default))
  ⟨keys.fullBaseType ++ (preparedFullBaseType ++ [kSingleComma]),
    keys.compoundId ++ [preparedFullBaseType]⟩

def typeclassKeys (bases : List ClassType) : TypeclassKeys :=
  let keys := bases.foldl TypeclassKeys.pushBase ⟨[],[]⟩
  { keys with fullBaseType := keys.fullBaseType.dropLast }

def fullBaseType (bases : List ClassType) : Text := (typeclassKeys bases).fullBaseType

def fullCompoundId (bases : List ClassType) : Text := commaSeparated (typeclassKeys bases).compoundId

def typeclassBasesCode (bases : List ClassType) : Text :=
  (bases.foldl (fun code base =>
    code ++ (extractTypeName (base.getAsString (printingPolicy .cxx)) ++ [kSingleComma])) []).dropLast

end FlexTypeclass.Spelling
