import Bantam.Typing.Expression

/-! Typing of statements. Blocks, branches and loop bodies are checked in scopes of their own; what
they declare is not seen behind them. -/
namespace Bantam

namespace Context

def initializerIssues (ctx : Context) (type : Ty) (declared : Declared) (name : String)
    (init : Expr) : List Issue :=
  match ctx.checkType type with
  | .error _ => []
  | .ok _ =>
    let actual := ctx.typeOf init
    Issue.ofCondition (!ctx.conforms actual type) init.span
      (.wrongInitializer actual type declared name)

def conditionIssues (ctx : Context) (construct : Conditional) (condition : Expr) : List Issue :=
  let actual := ctx.typeOf condition
  ctx.issuesOf condition ++
    Issue.ofCondition (actual != .boolean) condition.span (.wrongCondition construct actual)

def clauseIssues (ctx : Context) (clause : Clause) : Option Expr → List Issue
  | none => []
  | some expr =>
    let actual := ctx.typeOf expr
    ctx.issuesOf expr ++ Issue.ofCondition (actual != .int) expr.span (.wrongClause clause actual)

/-- The issues of a value that is returned, or of its absence. -/
def returnIssues (ctx : Context) (span : Span) : Option Expr → List Issue
  | none => Issue.ofCondition (ctx.returns != .void) span (.missingReturnValue ctx.returns)
  | some value =>
    let actual := ctx.typeOf value
    ctx.issuesOf value ++
      if ctx.returns = .void then [⟨value.span, .valueInVoidMethod⟩]
      else Issue.ofCondition (ctx.hierarchy.hasType ctx.returns && !ctx.conforms actual ctx.returns)
        value.span (.wrongReturnValue actual ctx.returns)

mutual

def issuesOfStmt (ctx : Context) : Stmt → List Issue
  | .expr _ value => ctx.issuesOf value
  | .decl span type name init =>
    Issue.ofOutcome span (ctx.checkType type) ++ ctx.issuesOf init ++
      ctx.initializerIssues type .localVariable name init ++
      Issue.ofOutcome span (ctx.declareVariable name type)
  | .block _ body => ctx.nested.issuesOfBlock body
  | .branch _ condition thenBranch elseBranch =>
    ctx.conditionIssues .branch condition ++ ctx.nested.issuesOfStmt thenBranch ++
      ctx.nested.issuesOfElse elseBranch
  | .whileLoop _ condition body =>
    ctx.conditionIssues .whileLoop condition ++ ctx.inBody.issuesOfStmt body
  | .forLoop _ init condition update body =>
    ctx.clauseIssues .initialization init ++
      (condition.map (ctx.conditionIssues .forLoop)).getD [] ++
      ctx.clauseIssues .update update ++ ctx.inBody.issuesOfStmt body
  | .leave span => Issue.ofCondition (!ctx.inLoop) span .misplacedBreak
  | .giveBack span value => ctx.returnIssues span value

def issuesOfElse (ctx : Context) : Option Stmt → List Issue
  | none => []
  | some stmt => ctx.issuesOfStmt stmt

/-- The issues of statements each of which is checked behind the ones before it. -/
def issuesOfBlock (ctx : Context) : List Stmt → List Issue
  | [] => []
  | stmt :: rest => ctx.issuesOfStmt stmt ++ (ctx.after stmt).issuesOfBlock rest

end

mutual

def annotateStmt (ctx : Context) : Stmt → Stmt
  | .expr span value => .expr span (ctx.annotate value)
  | .decl span type name init => .decl span type name (ctx.annotate init)
  | .block span body => .block span (ctx.nested.annotateBlock body)
  | .branch span condition thenBranch elseBranch =>
    .branch span (ctx.annotate condition) (ctx.nested.annotateStmt thenBranch)
      (ctx.nested.annotateElse elseBranch)
  | .whileLoop span condition body =>
    .whileLoop span (ctx.annotate condition) (ctx.inBody.annotateStmt body)
  | .forLoop span init condition update body =>
    .forLoop span (ctx.annotateOption init) (ctx.annotateOption condition)
      (ctx.annotateOption update) (ctx.inBody.annotateStmt body)
  | .leave span => .leave span
  | .giveBack span value => .giveBack span (ctx.annotateOption value)

def annotateElse (ctx : Context) : Option Stmt → Option Stmt
  | none => none
  | some stmt => some (ctx.annotateStmt stmt)

def annotateBlock (ctx : Context) : List Stmt → List Stmt
  | [] => []
  | stmt :: rest => ctx.annotateStmt stmt :: (ctx.after stmt).annotateBlock rest

end

end Context

end Bantam
