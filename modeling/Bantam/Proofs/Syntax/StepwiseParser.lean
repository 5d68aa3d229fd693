import Bantam.Parsing.Parser
import Bantam.TokenStream
import Bantam.Proofs.Syntax.RememberedParentheses

/-! Parsing step by step. This parser has a current token and takes the others from a stream, one
after the other; it skips comments as it goes, looks ahead in the stream where it has to, remembers
the parentheses that it closed last, and stops where it fails. Its procedures call each other as the
grammar does, and its loops go round until there is nothing to go on with. What it does is written
down as steps and calls, which come to an outcome or go on for ever: nothing in their form says that
they end. -/
namespace Bantam.Stepwise

structure State where
  stream : TokenStream
  current : Token
  /-- The span of the parentheses that were closed last. -/
  grouped : Option Span := none
  /-- The tokens that were current before. -/
  taken : List Token := []

/-- What the parser calls, again and again. A loop is called for each of its rounds. -/
inductive Procedure : Type → Type
  | nextSignificant : Procedure Token
  | lookaheadFrom (n seen offset : Nat) : Procedure Kind
  | expr : Procedure Expr
  | operators (level : Level) : Procedure Expr
  | moreOperators (level : Level) (left : Expr) : Procedure Expr
  | unary : Procedure Expr
  | selections (head : Expr) (selected : Bool) : Procedure (Expr × Bool)
  | moreArguments : Procedure (List Expr)
  | statement : Procedure Stmt
  | statements : Procedure (List Stmt)
  | moreFormals : Procedure (List Formal)
  | members : Procedure (List Member)
  | classes : Procedure (List ClassDecl)

/-- What a parser does: changes of its state, and calls. A failure leaves the state in which it
happens. -/
inductive Action (α : Type) : Type 1
  | done (outcome : Except SyntaxError α)
  | step {β : Type} (change : State → β × State) (next : β → Action α)
  | call {β : Type} (procedure : Procedure β) (next : β → Action α)

namespace Action
variable {α β γ : Type}

def bind : Action α → (α → Action β) → Action β
  | done (.ok value), next => next value
  | done (.error error), _ => done (.error error)
  | step change first, next => step change fun value => (first value).bind next
  | call procedure first, next => call procedure fun value => (first value).bind next

instance : Monad Action where
  pure value := done (.ok value)
  bind := bind

instance : MonadStateOf State Action where
  get := step (fun state => (state, state)) pure
  set state := step (fun _ => ((), state)) pure
  modifyGet change := step change pure

theorem bind_return (action : Action α) : (action.bind fun value => done (.ok value)) = action := by
  induction action with
  | done outcome => cases outcome <;> rfl
  | step change next ih => exact congrArg (step change) (funext ih)
  | call procedure next ih => exact congrArg (Action.call procedure) (funext ih)

theorem bind_bind (action : Action α) (next : α → Action β) (last : β → Action γ) :
    (action.bind next).bind last = action.bind fun value => (next value).bind last := by
  induction action with
  | done outcome => cases outcome <;> rfl
  | step change first ih => exact congrArg (step change) (funext ih)
  | call procedure first ih => exact congrArg (Action.call procedure) (funext ih)

instance : LawfulMonad Action := .mk' Action bind_return (fun _ _ => rfl) bind_bind

end Action

variable {α : Type}

def call (procedure : Procedure α) : Action α := .call procedure pure

def nextSignificant : Action Token := call .nextSignificant

def nextToken : Action Token :=
  modifyGet fun state =>
    let (token, stream) := state.stream.next
    (token, { state with stream })

/-- Takes a token from the stream, and again if it is a comment. -/
def takeSignificant : Action Token := do
  let token ← nextToken
  if token.kind = .comment then nextSignificant else return token

/-- Before the first token is taken none is current; the end of input stands for it. -/
def State.ofTextAfter (earlier : List Diagnostic) (file source : String) : State where
  stream := { TokenStream.ofText file source with reported := earlier }
  current := (Cursor.ofText source).endOfInput

def State.ofText (file source : String) : State := .ofTextAfter [] file source

def State.report (state : State) (error : SyntaxError) : State :=
  let reported := state.stream.reported ++ [error.toDiagnostic state.stream.file]
  { state with stream := { state.stream with reported } }

def start : Action Unit := do
  let current ← nextSignificant
  modify fun state => { state with current }

/-- Goes on to the next token, and returns the one that was current. -/
def advance : Action Token := do
  let state ← get
  let current ← nextSignificant
  modify fun after => { after with current, taken := state.taken ++ [state.current] }
  return state.current

def look (offset : Nat) : Action Token :=
  modifyGet fun state =>
    let (token, stream) := state.stream.peek offset
    (token, { state with stream })

def lookaheadFrom (n seen offset : Nat) : Action Kind := call (.lookaheadFrom n seen offset)

/-- The kind of the token behind `n` others, of which some have been seen, without comments. -/
def lookAt (n seen offset : Nat) : Action Kind := do
  let token ← look offset
  if token.kind = .endOfInput then return token.kind
  else if token.kind = .comment then lookaheadFrom n seen (offset + 1)
  else if seen = n then return token.kind
  else lookaheadFrom n (seen + 1) (offset + 1)

def lookahead (n : Nat) : Action Kind := lookaheadFrom n 0 0

def current : Action Token := return (← get).current

def atEnd : Action Bool := return (← current).kind == .endOfInput

def check (kind : Kind) : Action Bool := return (← current).kind == kind

/-- Reports an error and fails with it. -/
def fail (error : SyntaxError) : Action α := do
  modify (·.report error)
  .done (.error error)

def unexpected (expectation : Expectation) : Action α := do
  fail (.unexpected expectation (← current))

/-- Goes on to the next token if a value can be taken from the current one. -/
def accept (choose : Token → Option α) : Action (Option α) := do
  match choose (← current) with
  | some value =>
    let _ ← advance
    return some value
  | none => return none

def expect (choose : Token → Option α) (expectation : Expectation) : Action α := do
  match ← accept choose with
  | some value => return value
  | none => unexpected expectation

def expectKind (kind : Kind) : Action Span := expect (spanOfKind kind) (.kind kind)

def expectWord (word : String) : Action Span := expect (spanOfWord word) (.word word)

def expectName : Action Name := expect Name.ofToken? (.kind .identifier)

def parseType : Action Ty := do
  let name ← expectName
  match ← accept (spanOfKind .leftBracket) with
  | some _ =>
    let _ ← expectKind .rightBracket
    return (Ty.named name.text).array
  | none => return Ty.named name.text

-- Each round of a loop tells whether there is another one.
/-- Unless a closing brace follows, or the end of input, there is another item. -/
def braceRound (item : Action α) : Action (Option α) := do
  if (← check .rightBrace) || (← atEnd) then return none else return some (← item)

/-- All items of a loop, where the others are what its next rounds come to. -/
def collect (round : Action (Option α)) (others : Action (List α)) : Action (List α) := do
  match ← round with
  | some first => return first :: (← others)
  | none => return []

/-- An item, and whether a comma announces another one. -/
def commaRound (item : Action α) : Action (α × Bool) := do
  let value ← item
  return (value, (← accept (spanOfKind .comma)).isSome)

def separated (item : Action α) (others : Action (List α)) : Action (List α) := do
  let (first, more) ← commaRound item
  if more then return first :: (← others) else return [first]

def parseExpr : Action Expr := call .expr

def parseUnary : Action Expr := call .unary

def parseOperators (level : Level) : Action Expr := call (.operators level)

def parseMoreOperators (level : Level) (left : Expr) : Action Expr :=
  call (.moreOperators level left)

def parseSelections (head : Expr) (selected : Bool) : Action (Expr × Bool) :=
  call (.selections head selected)

def parseMoreArguments : Action (List Expr) := call .moreArguments

def assignment : Action Expr := do
  let left ← parseOperators .or
  if !(← check .assign) then return left
  match Remembered.assignment? (← get).grouped left with
  | some assign =>
    let _ ← advance
    return assign (← parseExpr)
  | none => fail (.invalidTarget left.span)

def parseOperand (level : Level) : Action Expr :=
  match level.tighter? with
  | some tighter => parseOperators tighter
  | none => parseUnary

def operation (level : Level) : Action Expr := do
  parseMoreOperators level (← parseOperand level)

def operatorRound (level : Level) (left : Expr) : Action (Option Expr) := do
  match ← accept level.typeTest? with
  | some _ =>
    let span := (← current).span
    let type ← parseType
    return some (.instanceOf ⟨left.span.merge span, none⟩ left type)
  | none =>
    match ← accept (signed level.operator?) with
    | some (op, _) =>
      let right ← parseOperand level
      return some (.binary ⟨left.span.merge right.span, none⟩ op left right)
    | none => return none

def moreOperators (level : Level) (left : Expr) : Action Expr := do
  match ← operatorRound level left with
  | some joined => parseMoreOperators level joined
  | none => return left

def parseArguments : Action (List Expr × Span) := do
  let _ ← expectKind .leftParen
  let arguments ← if ← check .rightParen then pure [] else parseMoreArguments
  return (arguments, ← expectKind .rightParen)

def moreArguments : Action (List Expr) := separated parseExpr parseMoreArguments

/-- What follows a name, which makes it a call or a variable. -/
def parseSuffix (qualifier : Option Expr) (name : Name) : Action Expr := do
  let start := (qualifier.map Expr.span).getD name.span
  if ← check .leftParen then
    let (arguments, close) ← parseArguments
    return .call ⟨start.merge close, none⟩ qualifier name.text arguments
  let span := start.merge name.span
  match ← accept (spanOfKind .leftBracket) with
  | some _ =>
    let index ← parseExpr
    let close ← expectKind .rightBracket
    return .var ⟨span.merge close, none⟩ qualifier name.text (some index)
  | none => return .var ⟨span, none⟩ qualifier name.text none

def parseNamed (qualifier : Option Expr) : Action Expr := do
  parseSuffix qualifier (← expectName)

def selectionRound (head : Expr) : Action (Option Expr) := do
  match ← accept (spanOfKind .dot) with
  | some _ => return some (← parseNamed (some head))
  | none => return none

/-- Goes on as long as dots follow, and says whether there was one. -/
def selections (head : Expr) (selected : Bool) : Action (Expr × Bool) := do
  match ← selectionRound head with
  | some selection => parseSelections selection true
  | none => return (head, selected)

/-- An expression in parentheses, a constant, or what a name begins. -/
def parseAtom : Action Expr := do
  match ← accept (spanOfKind .leftParen) with
  | some span =>
    let inner ← parseExpr
    let close ← expectKind .rightParen
    return inner.withSpan (span.merge close)
  | none =>
    match ← accept Expr.constant? with
    | some constant => return constant
    | none => if (← current).isName then parseNamed none else unexpected .expression

def parsePrimary : Action Expr := do
  let first ← current
  let (expr, selected) ← parseSelections (← parseAtom) false
  if first.kind = .leftParen ∧ !selected then
    modify fun state => { state with grouped := some expr.span }
  return expr

def parsePostfix : Action Expr := do
  let operand ← parsePrimary
  match ← accept (signed UnaryOp.behind?) with
  | some (op, span) => return .unary ⟨operand.span.merge span, none⟩ op operand
  | none => return operand

def parseNew : Action Expr := do
  let span ← expectWord "new"
  let name ← expectName
  match ← accept (spanOfKind .leftParen) with
  | some _ =>
    let close ← expectKind .rightParen
    return .new ⟨span.merge close, none⟩ name.text
  | none =>
    match ← accept (spanOfKind .leftBracket) with
    | some _ =>
      let size ← parseExpr
      let close ← expectKind .rightBracket
      return .newArray ⟨span.merge close, none⟩ name.text size
    | none => unexpected .parenOrBracket

def parseCast : Action Expr := do
  let span ← expectWord "cast"
  let _ ← expectKind .leftParen
  let type ← parseType
  let _ ← expectKind .comma
  let operand ← parseExpr
  let close ← expectKind .rightParen
  return .cast ⟨span.merge close, none⟩ type operand

def unary : Action Expr := do
  match ← accept (signed UnaryOp.before?) with
  | some (op, span) =>
    let operand ← parseUnary
    return .unary ⟨span.merge operand.span, none⟩ op operand
  | none =>
    if (← current).isWord "new" then parseNew
    else if (← current).isWord "cast" then parseCast
    else parsePostfix

/-- Tells from the tokens behind a word whether the word begins a declaration. -/
def atDeclaration : Action Bool := do
  if isKeyword (← current).spelling then return false
  match ← lookahead 0 with
  | .identifier => return true
  | .leftBracket => return (← lookahead 1) == .rightBracket
  | _ => return false

def parseOptional (closing : Kind) : Action (Option Expr) := do
  if ← check closing then return none else return some (← parseExpr)

def parseDeclaration : Action Stmt := do
  let start := (← current).span
  let type ← parseType
  let name ← expectName
  let _ ← expectKind .assign
  let init ← parseExpr
  let close ← expectKind .semicolon
  return .decl (start.merge close) type name.text init

def parseReturn : Action Stmt := do
  let start ← expectWord "return"
  let value ← parseOptional .semicolon
  let close ← expectKind .semicolon
  return .giveBack (start.merge close) value

def parseEffect : Action Stmt := do
  let expr ← parseExpr
  let close ← expectKind .semicolon
  return .expr (expr.span.merge close) expr

def parseCondition : Action Expr := do
  let _ ← expectKind .leftParen
  let condition ← parseExpr
  let _ ← expectKind .rightParen
  return condition

def parseLoopHead : Action LoopHead := do
  let _ ← expectKind .leftParen
  let init ← parseOptional .semicolon
  let _ ← expectKind .semicolon
  let condition ← parseOptional .semicolon
  let _ ← expectKind .semicolon
  let update ← parseOptional .rightParen
  let _ ← expectKind .rightParen
  return ⟨init, condition, update⟩

def parseStatement : Action Stmt := call .statement

def parseStatements : Action (List Stmt) := call .statements

def parseBlock : Action (List Stmt × Span) := do
  let start ← expectKind .leftBrace
  let body ← parseStatements
  let close ← expectKind .rightBrace
  return (body, start.merge close)

def parseBranch : Action Stmt := do
  let start ← expectWord "if"
  let condition ← parseCondition
  let thenBranch ← parseStatement
  let span := start.merge thenBranch.span
  match ← accept (spanOfWord "else") with
  | some _ =>
    let elseBranch ← parseStatement
    return .branch (span.merge elseBranch.span) condition thenBranch (some elseBranch)
  | none => return .branch span condition thenBranch none

def parseWhile : Action Stmt := do
  let start ← expectWord "while"
  let condition ← parseCondition
  let body ← parseStatement
  return .whileLoop (start.merge body.span) condition body

def parseFor : Action Stmt := do
  let start ← expectWord "for"
  let head ← parseLoopHead
  let body ← parseStatement
  return .forLoop (start.merge body.span) head.init head.condition head.update body

def statement : Action Stmt := do
  let token ← current
  match token.kind with
  | .leftBrace =>
    let (body, span) ← parseBlock
    return .block span body
  | .identifier =>
    if ← atDeclaration then parseDeclaration
    else
      match Opening.ofKeyword? token.spelling with
      | some .branch => parseBranch
      | some .whileLoop => parseWhile
      | some .forLoop => parseFor
      | some .giveBack => parseReturn
      | some .leave =>
        let _ ← advance
        let close ← expectKind .semicolon
        return .leave (token.span.merge close)
      | _ => parseEffect
  | _ => parseEffect

def statements : Action (List Stmt) := collect (braceRound parseStatement) parseStatements

def parseMoreFormals : Action (List Formal) := call .moreFormals

def parseFormal : Action Formal := do
  let start := (← current).span
  let type ← parseType
  let name ← expectName
  return ⟨type, name.text, start.merge name.span⟩

def moreFormals : Action (List Formal) := separated parseFormal parseMoreFormals

def parseFormals : Action (List Formal) := do
  if ← check .rightParen then return [] else parseMoreFormals

def parseInit : Action (Option Expr) := do
  match ← accept (spanOfKind .assign) with
  | some _ => return some (← parseExpr)
  | none => return none

def parseMember : Action Member := do
  let start := (← current).span
  let type ← parseType
  let name ← expectName
  match ← accept (spanOfKind .leftParen) with
  | some _ =>
    let formals ← parseFormals
    let _ ← expectKind .rightParen
    let (body, span) ← parseBlock
    return .method ⟨type, name.text, formals, body, start.merge span⟩
  | none =>
    let init ← parseInit
    let close ← expectKind .semicolon
    return .field ⟨type, name.text, init, start.merge close⟩

def parseMembers : Action (List Member) := call .members

def members : Action (List Member) := collect (braceRound parseMember) parseMembers

def parseParent : Action (Option String) := do
  match ← accept (spanOfWord "extends") with
  | some _ => return some (← expectName).text
  | none => return none

def parseClass : Action ClassDecl := do
  let start ← expectWord "class"
  let name ← expectName
  let parent ← parseParent
  let _ ← expectKind .leftBrace
  let members ← parseMembers
  let close ← expectKind .rightBrace
  return ⟨name.text, parent, members, (← get).stream.file, start.merge close⟩

def parseClasses : Action (List ClassDecl) := call .classes

def classRound : Action (Option ClassDecl) := do
  if ← atEnd then return none else return some (← parseClass)

def classes : Action (List ClassDecl) := collect classRound parseClasses

def parseProgram : Action Program := return ⟨← parseClasses⟩

def Procedure.body : {α : Type} → Procedure α → Action α
  | _, nextSignificant => takeSignificant
  | _, lookaheadFrom n seen offset => lookAt n seen offset
  | _, expr => assignment
  | _, operators level => operation level
  | _, moreOperators level left => Stepwise.moreOperators level left
  | _, unary => Stepwise.unary
  | _, selections head selected => Stepwise.selections head selected
  | _, moreArguments => Stepwise.moreArguments
  | _, statement => Stepwise.statement
  | _, statements => Stepwise.statements
  | _, moreFormals => Stepwise.moreFormals
  | _, members => Stepwise.members
  | _, classes => Stepwise.classes

/-- From a state on, the action comes to an outcome, and to a state behind it. If it goes on for
ever, it comes to nothing. -/
inductive Runs : {α : Type} → Action α → State → Except SyntaxError α → State → Prop
  | done {α : Type} (outcome : Except SyntaxError α) (state : State) :
      Runs (.done outcome) state outcome state
  | step {α β : Type} {change : State → β × State} {next : β → Action α} {before after : State}
      {outcome : Except SyntaxError α}
      (rest : Runs (next (change before).1) (change before).2 outcome after) :
      Runs (.step change next) before outcome after
  | returned {α β : Type} {procedure : Procedure β} {next : β → Action α} {value : β}
      {before between after : State} {outcome : Except SyntaxError α}
      (inner : Runs procedure.body before (.ok value) between)
      (rest : Runs (next value) between outcome after) :
      Runs (.call procedure next) before outcome after
  | failed {α β : Type} {procedure : Procedure β} {next : β → Action α} {error : SyntaxError}
      {before after : State} (inner : Runs procedure.body before (.error error) after) :
      Runs (.call procedure next) before (.error error) after

end Bantam.Stepwise
