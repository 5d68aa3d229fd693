import Bantam.Parsing.Expression

/-! The grammar of statements. A word that opens a statement decides what is read; without one, the
next two or three tokens tell a declaration from an expression. -/
namespace Bantam

inductive Opening where
  | block
  | branch
  | whileLoop
  | forLoop
  | giveBack
  | leave
  deriving DecidableEq, Repr

def Opening.ofKeyword? : String → Option Opening
  | "if" => some .branch
  | "while" => some .whileLoop
  | "for" => some .forLoop
  | "return" => some .giveBack
  | "break" => some .leave
  | _ => none

def Opening.ofToken? (token : Token) : Option (Opening × Span) :=
  match token.kind with
  | .leftBrace => some (.block, token.span)
  | .identifier => (Opening.ofKeyword? token.spelling).map fun opening => (opening, token.span)
  | _ => none

/-- A declaration starts with a type and a word behind it, or with a name and a pair of brackets. -/
def startsDeclaration : List Token → Bool
  | name :: next :: rest =>
    name.isName && (next.kind == .identifier ||
      next.kind == .leftBracket && rest.head?.any (·.kind == .rightBracket))
  | _ => false

def readClause (closing : Kind) (tokens : List Token) : Outcome (Option Expr × Span) tokens :=
  match readKind? closing tokens with
  | some close => return close.give (none, close.value)
  | none => do
    let expr ← readExpr tokens
    let close ← readKind closing expr.rest
    return (expr.followedBy close).give (some expr.value, close.value)

def readCondition (tokens : List Token) : Outcome Expr tokens := do
  let paren ← readKind .leftParen tokens
  let condition ← readExpr paren.rest
  let close ← readKind .rightParen condition.rest
  return (paren.followedBy (condition.followedBy close)).give condition.value

structure LoopHead where
  init : Option Expr
  condition : Option Expr
  update : Option Expr

def readLoopHead (tokens : List Token) : Outcome LoopHead tokens := do
  let paren ← readKind .leftParen tokens
  let init ← readClause .semicolon paren.rest
  let condition ← readClause .semicolon init.rest
  let update ← readClause .rightParen condition.rest
  return (paren.followedBy (init.followedBy (condition.followedBy update))).give
    ⟨init.value.1, condition.value.1, update.value.1⟩

/-- Reads a declaration, which always has an initial value. -/
def readDeclaration (tokens : List Token) : Outcome Stmt tokens := do
  let type ← readType tokens
  let name ← readName type.rest
  let sign ← readKind .assign name.rest
  let init ← readExpr sign.rest
  let close ← readKind .semicolon init.rest
  return (type.followedBy (name.followedBy (sign.followedBy (init.followedBy close)))).give
    (.decl (type.value.span.merge close.value) type.value.type name.value.text init.value)

def readEffect (tokens : List Token) : Outcome Stmt tokens := do
  let expr ← readExpr tokens
  let close ← readKind .semicolon expr.rest
  return (expr.followedBy close).give (.expr (expr.value.span.merge close.value) expr.value)

mutual

def readStatement (tokens : List Token) : Outcome Stmt tokens :=
  match readToken? Opening.ofToken? tokens with
  | none => if startsDeclaration tokens then readDeclaration tokens else readEffect tokens
  | some opening => do
    let start := opening.value.2
    match opening.value.1 with
    | .block =>
      let body ← readStatements opening.rest
      return (opening.followedBy body).give (.block (start.merge body.value.2) body.value.1)
    | .branch =>
      let condition ← readCondition opening.rest
      let thenBranch ← readStatement condition.rest
      let both := opening.followedBy (condition.followedBy thenBranch)
      let span := start.merge thenBranch.value.span
      match readWord? "else" thenBranch.rest with
      | none => return both.give (.branch span condition.value thenBranch.value none)
      | some word =>
        let elseBranch ← readStatement word.rest
        return (both.followedBy (word.followedBy elseBranch)).give
          (.branch (span.merge elseBranch.value.span) condition.value thenBranch.value
            (some elseBranch.value))
    | .whileLoop =>
      let condition ← readCondition opening.rest
      let body ← readStatement condition.rest
      return (opening.followedBy (condition.followedBy body)).give
        (.whileLoop (start.merge body.value.span) condition.value body.value)
    | .forLoop =>
      let head ← readLoopHead opening.rest
      let body ← readStatement head.rest
      return (opening.followedBy (head.followedBy body)).give
        (.forLoop (start.merge body.value.span) head.value.init head.value.condition
          head.value.update body.value)
    | .giveBack =>
      let value ← readClause .semicolon opening.rest
      return (opening.followedBy value).give (.giveBack (start.merge value.value.2) value.value.1)
    | .leave =>
      let close ← readKind .semicolon opening.rest
      return (opening.followedBy close).give (.leave (start.merge close.value))
termination_by 2 * tokens.length
decreasing_by
  · have := opening.shorter; omega
  · have := opening.shorter; have := condition.shorter; omega
  · have := opening.shorter; have := condition.shorter; have := thenBranch.shorter
    have := word.shorter; omega
  · have := opening.shorter; have := condition.shorter; omega
  · have := opening.shorter; have := head.shorter; omega

def readStatements (tokens : List Token) : Outcome (List Stmt × Span) tokens :=
  match readKind? .rightBrace tokens with
  | some close => return close.give ([], close.value)
  | none => do
    if tokens.isEmpty then throw ⟨.expected (.kind .rightBrace), tokens⟩
    let first ← readStatement tokens
    let more ← readStatements first.rest
    return (first.followedBy more).give (first.value :: more.value.1, more.value.2)
termination_by 2 * tokens.length + 1
decreasing_by
  · omega
  · have := first.shorter; omega

end

end Bantam
