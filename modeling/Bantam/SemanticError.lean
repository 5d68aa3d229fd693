import Bantam.Diagnostic
import Bantam.Program

/-! What can be wrong with a program that can be parsed. -/
namespace Bantam

inductive Conditional where
  | branch
  | whileLoop
  | forLoop
  deriving DecidableEq, Repr

def Conditional.word : Conditional → String
  | branch => "if"
  | whileLoop => "while"
  | forLoop => "for"

inductive Clause where
  | initialization
  | update
  deriving DecidableEq, Repr

def Clause.word : Clause → String
  | initialization => "initialization"
  | update => "update"

inductive Declared where
  | field
  | localVariable
  deriving DecidableEq, Repr

def Declared.word : Declared → String
  | field => "field"
  | localVariable => "variable"

inductive SemanticError where
  | reservedName (name : String)
  | duplicateClass (className : String)
  | undefinedParent (className parent : String)
  | builtinParent (className parent : String)
  | cyclicClass (className : String)
  | missingMainClass
  | missingMainMethod
  | duplicateField (field className : String)
  | duplicateMethod (method className : String)
  | duplicateFormal (formal method : String)
  | duplicateVariable (name method : String)
  | misplacedVoid
  | unknownType (type : Ty)
  | unknownReturnType (type : Ty) (method : String)
  | signatureMismatch (method : String)
  | wrongInitializer (actual expected : Ty) (declared : Declared) (name : String)
  | wrongCondition (construct : Conditional) (actual : Ty)
  | wrongClause (clause : Clause) (actual : Ty)
  | misplacedBreak
  | valueInVoidMethod
  | missingReturnValue (expected : Ty)
  | wrongReturnValue (actual expected : Ty)
  | undeclaredVariable (name : String)
  | missingField (className field : String)
  | inaccessibleField
  | notArray (name : String)
  | wrongIndex (actual : Ty)
  | readOnly (name : String)
  | wrongValue (actual expected : Ty)
  | wrongSize (actual : Ty)
  | notSupertype (type actual : Ty)
  | impossibleCast (actual type : Ty)
  | incomparable (op : BinaryOp) (left right : Ty)
  | wrongOperands (op : BinaryOp) (expected left right : Ty)
  | notVariable (op : UnaryOp)
  | wrongOperand (op : UnaryOp) (expected actual : Ty)
  | notObject (method : String) (type : Ty)
  | missingMethod (className method : String)
  | wrongArgumentCount (method : String) (expected actual : Nat)
  | wrongArgument (position : Nat) (method : String) (actual expected : Ty)
  deriving DecidableEq, Repr

def SemanticError.message : SemanticError → String
  | reservedName name => s!"'{name}' is a reserved name"
  | duplicateClass className => s!"class '{className}' is already defined"
  | undefinedParent className parent => s!"class '{className}' extends undefined class '{parent}'"
  | builtinParent className parent =>
    s!"class '{className}' cannot extend built-in class '{parent}'"
  | cyclicClass className => s!"class '{className}' is part of an inheritance cycle"
  | missingMainClass => "missing class 'Main'"
  | missingMainMethod => "class 'Main' is missing a 'main' method with no parameters"
  | duplicateField field className => s!"field '{field}' is already defined in class '{className}'"
  | duplicateMethod method className =>
    s!"method '{method}' is already defined in class '{className}'"
  | duplicateFormal formal method =>
    s!"parameter '{formal}' is already defined in method '{method}'"
  | duplicateVariable name method => s!"variable '{name}' is already defined in method '{method}'"
  | misplacedVoid => "'void' is only valid as a return type"
  | unknownType type => s!"unknown type '{type}'"
  | unknownReturnType type method => s!"unknown return type '{type}' for method '{method}'"
  | signatureMismatch method =>
    s!"method '{method}' overrides an inherited method with a different signature"
  | wrongInitializer actual expected declared name =>
    s!"type '{actual}' of initializer is not compatible with declared type '{expected}' of " ++
      s!"{declared.word} '{name}'"
  | wrongCondition construct actual =>
    s!"condition of '{construct.word}' must be boolean, found '{actual}'"
  | wrongClause clause actual => s!"{clause.word} of 'for' must be int, found '{actual}'"
  | misplacedBreak => "'break' outside of a loop"
  | valueInVoidMethod => "void method cannot return a value"
  | missingReturnValue expected => s!"missing return value in method returning '{expected}'"
  | wrongReturnValue actual expected =>
    s!"return type '{actual}' is not compatible with declared type '{expected}'"
  | undeclaredVariable name => s!"undeclared variable '{name}'"
  | missingField className field => s!"class '{className}' has no field '{field}'"
  | inaccessibleField => "fields can only be accessed through 'this' or 'super'"
  | notArray name => s!"variable '{name}' is not an array"
  | wrongIndex actual => s!"array index must be int, found '{actual}'"
  | readOnly name => s!"cannot assign to '{name}'"
  | wrongValue actual expected => s!"cannot assign '{actual}' to variable of type '{expected}'"
  | wrongSize actual => s!"array size must be int, found '{actual}'"
  | notSupertype type actual => s!"'instanceof' type '{type}' is not a supertype of '{actual}'"
  | impossibleCast actual type => s!"cannot cast '{actual}' to '{type}'"
  | incomparable op left right => s!"operator '{op.sign}' cannot compare '{left}' and '{right}'"
  | wrongOperands op expected left right =>
    s!"operator '{op.sign}' requires {expected} operands, found '{left}' and '{right}'"
  | notVariable op => s!"operand of '{op.sign}' must be a variable"
  | wrongOperand op expected actual =>
    s!"operator '{op.sign}' requires an operand of type {expected}, found '{actual}'"
  | notObject method type => s!"cannot call method '{method}' on type '{type}'"
  | missingMethod className method => s!"class '{className}' has no method '{method}'"
  | wrongArgumentCount method expected actual =>
    s!"method '{method}' expects {expected} argument(s), found {actual}"
  | wrongArgument position method actual expected =>
    s!"argument {position} of method '{method}' has type '{actual}', expected '{expected}'"

/-- An error at a place of the file that holds it. -/
structure Issue where
  span : Span
  error : SemanticError
  deriving DecidableEq, Repr

namespace Issue

/-- The issue of what failed with an error, or none. -/
def ofOutcome {α : Type} (span : Span) : Except SemanticError α → List Issue
  | .ok _ => []
  | .error error => [⟨span, error⟩]

def ofCondition (wrong : Bool) (span : Span) (error : SemanticError) : List Issue :=
  if wrong then [⟨span, error⟩] else []

def toDiagnostic (file : String) (issue : Issue) : Diagnostic :=
  ⟨.semantic, file, issue.span, issue.error.message⟩

end Issue

end Bantam
