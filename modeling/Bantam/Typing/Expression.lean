import Bantam.Typing.Context

/-! Typing of expressions. Every expression has a type, also one with issues, so that checking goes
on behind an error; the type does not depend on the issues. -/
namespace Bantam

/-- The type that an operator asks of both operands; operators that compare for equality ask for
none. -/
def BinaryOp.operandType? (op : BinaryOp) : Option Ty :=
  if op.isEquality then none else if op.isLogical then some .boolean else some .int

def BinaryOp.resultType (op : BinaryOp) : Ty := if op.isArithmetic then .int else .boolean

def UnaryOp.type (op : UnaryOp) : Ty := if op = .not then .boolean else .int

namespace Context

mutual

def typeOf (ctx : Context) : Expr → Ty
  | .int .. => .int
  | .bool .. => .boolean
  | .string .. => .string
  | .var _ qualifier name index => ctx.variableType (ctx.qualifierOf qualifier) name index.isSome
  | .assign _ qualifier name index _ =>
    ctx.variableType (ctx.qualifierOf qualifier) name index.isSome
  | .call _ receiver method _ => ctx.callType ((ctx.qualifierOf receiver).map Qualifier.type) method
  | .new _ className => orObject (ctx.resolveClass className)
  | .newArray _ element _ => orObject ((ctx.checkType (.named element)).map Ty.array)
  | .instanceOf .. => .boolean
  | .cast _ type _ => orObject (ctx.checkType type)
  | .binary _ op _ _ => op.resultType
  | .unary _ op _ => op.type

/-- What an expression before a dot contributes. -/
def qualifierOf (ctx : Context) : Option Expr → Option Qualifier
  | none => none
  | some expr => some ⟨expr.bareName?, ctx.typeOf expr⟩

end

def nameIssues (ctx : Context) (span : Span) (qualifier : Option Expr) (name : String)
    (indexed writing : Bool) : List Issue :=
  let qualifier := ctx.qualifierOf qualifier
  Issue.ofCondition (writing && isReadOnly qualifier name indexed) span (.readOnly name) ++
    Issue.ofOutcome span (ctx.resolveVariable qualifier name indexed)

def indexIssues (ctx : Context) (span : Span) (qualifier : Option Expr) (name : String) :
    Option Expr → List Issue
  | none => []
  | some index =>
    let type := orObject (ctx.resolveVariable (ctx.qualifierOf qualifier) name true)
    Issue.ofCondition (ctx.typeOf index != .int) index.span (.wrongIndex (ctx.typeOf index)) ++
      Issue.ofCondition (!type.isArray) span (.notArray name)

def receiverIssues (ctx : Context) (method : String) : Option Expr → List Issue
  | none => []
  | some receiver =>
    let type := ctx.typeOf receiver
    Issue.ofCondition (ctx.hierarchy.classOf? type).isNone receiver.span (.notObject method type)

/-- The issues of arguments against the types that a method takes, counted from a position. -/
def argumentIssues (ctx : Context) (method : String) (position : Nat) :
    List Ty → List Expr → List Issue
  | expected :: types, argument :: arguments =>
    let actual := ctx.typeOf argument
    Issue.ofCondition (!ctx.conforms actual expected) argument.span
      (.wrongArgument position method actual expected) ++
      ctx.argumentIssues method (position + 1) types arguments
  | _, _ => []

def callIssues (ctx : Context) (span : Span) (receiver : Option Expr) (method : String)
    (arguments : List Expr) : List Issue :=
  match ctx.receiverClass? ((ctx.qualifierOf receiver).map Qualifier.type) with
  | none => []
  | some owner =>
    match ctx.hierarchy.lookupMethod owner method with
    | none => [⟨span, .missingMethod (ctx.hierarchy.nameOf owner) method⟩]
    | some signature =>
      let types := signature.types
      if types.length ≠ arguments.length then
        [⟨span, .wrongArgumentCount method types.length arguments.length⟩]
      else ctx.argumentIssues method 1 types arguments

def testIssues (ctx : Context) (span : Span) (actual type : Ty) : List Issue :=
  match ctx.checkType type with
  | .error error => [⟨span, error⟩]
  | .ok _ => Issue.ofCondition (!ctx.conforms actual type) span (.notSupertype type actual)

def castIssues (ctx : Context) (span : Span) (actual type : Ty) : List Issue :=
  match ctx.checkType type with
  | .error error => [⟨span, error⟩]
  | .ok _ =>
    Issue.ofCondition (!ctx.conforms actual type && !ctx.conforms type actual) span
      (.impossibleCast actual type)

def binaryIssues (ctx : Context) (span : Span) (op : BinaryOp) (left right : Ty) : List Issue :=
  match op.operandType? with
  | none =>
    Issue.ofCondition (!ctx.conforms left right && !ctx.conforms right left) span
      (.incomparable op left right)
  | some expected =>
    Issue.ofCondition (left != expected || right != expected) span
      (.wrongOperands op expected left right)

def unaryIssues (ctx : Context) (span : Span) (op : UnaryOp) (operand : Expr) : List Issue :=
  Issue.ofCondition (op.isIncrement && !operand.isVar) span (.notVariable op) ++
    Issue.ofCondition (ctx.typeOf operand != op.type) span
      (.wrongOperand op op.type (ctx.typeOf operand))

mutual

def issuesOf (ctx : Context) : Expr → List Issue
  | .int .. | .bool .. | .string .. => []
  | .var info qualifier name index =>
    ctx.issuesOfOption qualifier ++ ctx.nameIssues info.span qualifier name index.isSome false ++
      ctx.issuesOfOption index ++ ctx.indexIssues info.span qualifier name index
  | .assign info qualifier name index value =>
    let expected := ctx.variableType (ctx.qualifierOf qualifier) name index.isSome
    let actual := ctx.typeOf value
    ctx.issuesOfOption qualifier ++ ctx.nameIssues info.span qualifier name index.isSome true ++
      ctx.issuesOfOption index ++ ctx.indexIssues info.span qualifier name index ++
      ctx.issuesOf value ++
      Issue.ofCondition (!ctx.conforms actual expected) value.span (.wrongValue actual expected)
  | .call info receiver method arguments =>
    ctx.issuesOfOption receiver ++ ctx.receiverIssues method receiver ++
      ctx.issuesOfList arguments ++ ctx.callIssues info.span receiver method arguments
  | .new info className => Issue.ofOutcome info.span (ctx.resolveClass className)
  | .newArray info element size =>
    ctx.issuesOf size ++
      Issue.ofCondition (ctx.typeOf size != .int) size.span (.wrongSize (ctx.typeOf size)) ++
      Issue.ofOutcome info.span (ctx.checkType (.named element))
  | .instanceOf info operand type =>
    ctx.issuesOf operand ++ ctx.testIssues info.span (ctx.typeOf operand) type
  | .cast info type operand =>
    ctx.issuesOf operand ++ ctx.castIssues info.span (ctx.typeOf operand) type
  | .binary info op left right =>
    ctx.issuesOf left ++ ctx.issuesOf right ++
      ctx.binaryIssues info.span op (ctx.typeOf left) (ctx.typeOf right)
  | .unary info op operand => ctx.issuesOf operand ++ ctx.unaryIssues info.span op operand

def issuesOfOption (ctx : Context) : Option Expr → List Issue
  | none => []
  | some expr => ctx.issuesOf expr

def issuesOfList (ctx : Context) : List Expr → List Issue
  | [] => []
  | expr :: rest => ctx.issuesOf expr ++ ctx.issuesOfList rest

end

mutual

/-- The same expression with its type and those of all within it. -/
def annotate (ctx : Context) (expr : Expr) : Expr :=
  let known (info : Info) : Info := { info with type := some (ctx.typeOf expr) }
  match expr with
  | .int info value => .int (known info) value
  | .bool info value => .bool (known info) value
  | .string info text => .string (known info) text
  | .var info qualifier name index =>
    .var (known info) (ctx.annotateOption qualifier) name (ctx.annotateOption index)
  | .assign info qualifier name index value =>
    .assign (known info) (ctx.annotateOption qualifier) name (ctx.annotateOption index)
      (ctx.annotate value)
  | .call info receiver method arguments =>
    .call (known info) (ctx.annotateOption receiver) method (ctx.annotateList arguments)
  | .new info className => .new (known info) className
  | .newArray info element size => .newArray (known info) element (ctx.annotate size)
  | .instanceOf info operand type => .instanceOf (known info) (ctx.annotate operand) type
  | .cast info type operand => .cast (known info) type (ctx.annotate operand)
  | .binary info op left right => .binary (known info) op (ctx.annotate left) (ctx.annotate right)
  | .unary info op operand => .unary (known info) op (ctx.annotate operand)

def annotateOption (ctx : Context) : Option Expr → Option Expr
  | none => none
  | some expr => some (ctx.annotate expr)

def annotateList (ctx : Context) : List Expr → List Expr
  | [] => []
  | expr :: rest => ctx.annotate expr :: ctx.annotateList rest

end

end Context

end Bantam
