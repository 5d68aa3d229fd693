import Bantam.Span
import Bantam.Ty

/-! Programs as trees. Every expression carries the span it was read from and, once it has been
checked, its type. Parentheses leave no node; they only widen the span of what they enclose. -/
namespace Bantam

inductive BinaryOp where
  | add
  | sub
  | mul
  | div
  | mod
  | and
  | or
  | eq
  | ne
  | lt
  | le
  | gt
  | ge
  deriving DecidableEq, Repr

namespace BinaryOp

def all : List BinaryOp := [add, sub, mul, div, mod, and, or, eq, ne, lt, le, gt, ge]

def sign : BinaryOp → String
  | add => "+"
  | sub => "-"
  | mul => "*"
  | div => "/"
  | mod => "%"
  | and => "&&"
  | or => "||"
  | eq => "=="
  | ne => "!="
  | lt => "<"
  | le => "<="
  | gt => ">"
  | ge => ">="

def isArithmetic : BinaryOp → Bool
  | add | sub | mul | div | mod => true
  | _ => false

def isRelational : BinaryOp → Bool
  | lt | le | gt | ge => true
  | _ => false

def isEquality : BinaryOp → Bool
  | eq | ne => true
  | _ => false

def isLogical : BinaryOp → Bool
  | and | or => true
  | _ => false

end BinaryOp

inductive UnaryOp where
  | neg
  | not
  | preInc
  | preDec
  | postInc
  | postDec
  deriving DecidableEq, Repr

namespace UnaryOp

def all : List UnaryOp := [neg, not, preInc, preDec, postInc, postDec]

def sign : UnaryOp → String
  | neg => "-"
  | not => "!"
  | preInc | postInc => "++"
  | preDec | postDec => "--"

/-- The operator changes the variable that it is applied to. -/
def isIncrement : UnaryOp → Bool
  | neg | not => false
  | preInc | preDec | postInc | postDec => true

end UnaryOp

/-- What every expression carries: where it stands, and its type once it is known. -/
structure Info where
  span : Span
  type : Option Ty := none
  deriving DecidableEq, Repr

inductive Expr where
  | int (info : Info) (value : Nat)
  | bool (info : Info) (value : Bool)
  /-- A string constant holds the text between the quotes, with its escapes as they were written. -/
  | string (info : Info) (text : String)
  /-- A variable, perhaps qualified by what stands before a dot, perhaps indexed. -/
  | var (info : Info) (qualifier : Option Expr) (name : String) (index : Option Expr)
  | assign (info : Info) (qualifier : Option Expr) (name : String) (index : Option Expr)
      (value : Expr)
  | call (info : Info) (receiver : Option Expr) (method : String) (arguments : List Expr)
  | new (info : Info) (className : String)
  | newArray (info : Info) (element : String) (size : Expr)
  | instanceOf (info : Info) (operand : Expr) (type : Ty)
  | cast (info : Info) (type : Ty) (operand : Expr)
  | binary (info : Info) (op : BinaryOp) (left right : Expr)
  | unary (info : Info) (op : UnaryOp) (operand : Expr)

namespace Expr

def info : Expr → Info
  | int info _ | bool info _ | string info _ | var info _ _ _ | assign info _ _ _ _
  | call info _ _ _ | new info _ | newArray info _ _ | instanceOf info _ _ | cast info _ _
  | binary info _ _ _ | unary info _ _ => info

def span (expr : Expr) : Span := expr.info.span

def type? (expr : Expr) : Option Ty := expr.info.type

def withInfo (info : Info) : Expr → Expr
  | int _ value => int info value
  | bool _ value => bool info value
  | string _ text => string info text
  | var _ qualifier name index => var info qualifier name index
  | assign _ qualifier name index value => assign info qualifier name index value
  | call _ receiver method arguments => call info receiver method arguments
  | new _ className => new info className
  | newArray _ element size => newArray info element size
  | instanceOf _ operand type => instanceOf info operand type
  | cast _ type operand => cast info type operand
  | binary _ op left right => binary info op left right
  | unary _ op operand => unary info op operand

def withSpan (span : Span) (expr : Expr) : Expr := expr.withInfo { expr.info with span }

def isVar : Expr → Bool
  | var .. => true
  | _ => false

/-- The name of a variable that is neither qualified nor indexed. -/
def bareName? : Expr → Option String
  | var _ none name none => some name
  | _ => none

end Expr

inductive Stmt where
  | expr (span : Span) (value : Expr)
  | decl (span : Span) (type : Ty) (name : String) (init : Expr)
  | block (span : Span) (body : List Stmt)
  | branch (span : Span) (condition : Expr) (thenBranch : Stmt) (elseBranch : Option Stmt)
  | whileLoop (span : Span) (condition : Expr) (body : Stmt)
  | forLoop (span : Span) (init condition update : Option Expr) (body : Stmt)
  | leave (span : Span)
  | giveBack (span : Span) (value : Option Expr)

def Stmt.span : Stmt → Span
  | expr span _ | decl span _ _ _ | block span _ | branch span _ _ _ | whileLoop span _ _
  | forLoop span _ _ _ _ | leave span | giveBack span _ => span

structure Field where
  type : Ty
  name : String
  init : Option Expr
  span : Span

structure Formal where
  type : Ty
  name : String
  span : Span
  deriving DecidableEq, Repr

structure Method where
  returns : Ty
  name : String
  formals : List Formal
  body : List Stmt
  span : Span

inductive Member where
  | field (field : Field)
  | method (method : Method)

namespace Member

def name : Member → String
  | field f => f.name
  | method m => m.name

def span : Member → Span
  | field f => f.span
  | method m => m.span

def field? : Member → Option Field
  | field f => some f
  | method _ => none

def method? : Member → Option Method
  | field _ => none
  | method m => some m

end Member

/-- A class as it is declared: its parent is the name after `extends`, if there is one. -/
structure ClassDecl where
  name : String
  parent : Option String
  members : List Member
  file : String
  span : Span

namespace ClassDecl

def fields (decl : ClassDecl) : List Field := decl.members.filterMap Member.field?

def methods (decl : ClassDecl) : List Method := decl.members.filterMap Member.method?

def findMethod? (decl : ClassDecl) (name : String) : Option Method :=
  decl.methods.find? (·.name == name)

end ClassDecl

structure Program where
  classes : List ClassDecl

def Program.findClass? (program : Program) (name : String) : Option ClassDecl :=
  program.classes.find? (·.name == name)

end Bantam
