import Bantam.Parsing.Parser
import Bantam.Proofs.Syntax.RememberedParentheses

/-! Programs with remembered parentheses. What a parser has remembered is handed from expression to
expression, through statements, members and classes, and it is still there when the parser is asked
again. Whatever it is, a text is parsed as by the parser with marked operands. -/
namespace Bantam
open Grammar

namespace Remembered

def readClause (closing : Kind) (tokens : List Token) : Run (Option Expr × Span) tokens :=
  match readKind? closing tokens with
  | some close => return close.give (none, close.value)
  | none => do
    let expr ← readExpr tokens
    let close ← readKind closing expr.rest
    return (expr.followedBy close).give (some expr.value, close.value)

def readCondition (tokens : List Token) : Run Expr tokens := do
  let paren ← readKind .leftParen tokens
  let condition ← readExpr paren.rest
  let close ← readKind .rightParen condition.rest
  return (paren.followedBy (condition.followedBy close)).give condition.value

def readLoopHead (tokens : List Token) : Run LoopHead tokens := do
  let paren ← readKind .leftParen tokens
  let init ← readClause .semicolon paren.rest
  let condition ← readClause .semicolon init.rest
  let update ← readClause .rightParen condition.rest
  return (paren.followedBy (init.followedBy (condition.followedBy update))).give
    ⟨init.value.1, condition.value.1, update.value.1⟩

def readDeclaration (tokens : List Token) : Run Stmt tokens := do
  let type ← readType tokens
  let name ← readName type.rest
  let sign ← readKind .assign name.rest
  let init ← readExpr sign.rest
  let close ← readKind .semicolon init.rest
  return (type.followedBy (name.followedBy (sign.followedBy (init.followedBy close)))).give
    (.decl (type.value.span.merge close.value) type.value.type name.value.text init.value)

def readEffect (tokens : List Token) : Run Stmt tokens := do
  let expr ← readExpr tokens
  let close ← readKind .semicolon expr.rest
  return (expr.followedBy close).give (.expr (expr.value.span.merge close.value) expr.value)

mutual

def readStatement (tokens : List Token) : Run Stmt tokens :=
  match readToken? Opening.ofToken? tokens with
  | none => if startsDeclaration tokens then readDeclaration tokens else readEffect tokens
  | some opening => do
    let start := opening.value.2
    match opening.value.1 with
    | .block =>
      let body ← readStatements opening.rest
      return (opening.followedBy body).give (.block (start.merge body.value.2) body.value.1)
    | .branch =>
      let condition ← readCondition opening.rest
      let thenBranch ← readStatement condition.rest
      let both := opening.followedBy (condition.followedBy thenBranch)
      let span := start.merge thenBranch.value.span
      match readWord? "else" thenBranch.rest with
      | none => return both.give (.branch span condition.value thenBranch.value none)
      | some word =>
        let elseBranch ← readStatement word.rest
        return (both.followedBy (word.followedBy elseBranch)).give
          (.branch (span.merge elseBranch.value.span) condition.value thenBranch.value
            (some elseBranch.value))
    | .whileLoop =>
      let condition ← readCondition opening.rest
      let body ← readStatement condition.rest
      return (opening.followedBy (condition.followedBy body)).give
        (.whileLoop (start.merge body.value.span) condition.value body.value)
    | .forLoop =>
      let head ← readLoopHead opening.rest
      let body ← readStatement head.rest
      return (opening.followedBy (head.followedBy body)).give
        (.forLoop (start.merge body.value.span) head.value.init head.value.condition
          head.value.update body.value)
    | .giveBack =>
      let value ← readClause .semicolon opening.rest
      return (opening.followedBy value).give (.giveBack (start.merge value.value.2) value.value.1)
    | .leave =>
      let close ← readKind .semicolon opening.rest
      return (opening.followedBy close).give (.leave (start.merge close.value))
termination_by 2 * tokens.length
decreasing_by
  · have := opening.shorter; omega
  · have := opening.shorter; have := condition.shorter; omega
  · have := opening.shorter; have := condition.shorter; have := thenBranch.shorter
    have := word.shorter; omega
  · have := opening.shorter; have := condition.shorter; omega
  · have := opening.shorter; have := head.shorter; omega

def readStatements (tokens : List Token) : Run (List Stmt × Span) tokens :=
  match readKind? .rightBrace tokens with
  | some close => return close.give ([], close.value)
  | none => do
    if tokens.isEmpty then throw ⟨.expected (.kind .rightBrace), tokens⟩
    let first ← readStatement tokens
    let more ← readStatements first.rest
    return (first.followedBy more).give (first.value :: more.value.1, more.value.2)
termination_by 2 * tokens.length + 1
decreasing_by
  · omega
  · have := first.shorter; omega

end

def readBlock (tokens : List Token) : Run (List Stmt × Span) tokens := do
  let brace ← readKind .leftBrace tokens
  let body ← readStatements brace.rest
  return (brace.followedBy body).give (body.value.1, brace.value.merge body.value.2)

def readField (start : Span) (type : Ty) (name : String) (tokens : List Token) :
    Run Field tokens := do
  match readKind? .assign tokens with
  | some sign =>
    let init ← readExpr sign.rest
    let close ← readKind .semicolon init.rest
    return (sign.followedBy (init.followedBy close)).give
      ⟨type, name, some init.value, start.merge close.value⟩
  | none =>
    let close ← readKind .semicolon tokens
    return close.give ⟨type, name, none, start.merge close.value⟩

def readMethod (start : Span) (returns : Ty) (name : String) (tokens : List Token) :
    Run Method tokens := do
  let formals ← readFormals tokens
  let body ← readBlock formals.rest
  return (formals.followedBy body).give
    ⟨returns, name, formals.value, body.value.1, start.merge body.value.2⟩

def readMember (tokens : List Token) : Run Member tokens := do
  let type ← readType tokens
  let name ← readName type.rest
  let head := type.followedBy name
  let start := type.value.span
  match readKind? .leftParen name.rest with
  | some paren =>
    let method ← readMethod start type.value.type name.value.text paren.rest
    return (head.followedBy (paren.followedBy method)).give (.method method.value)
  | none =>
    let field ← readField start type.value.type name.value.text name.rest
    return (head.followedBy field).give (.field field.value)

def readMembers (tokens : List Token) : Run (List Member × Span) tokens :=
  match readKind? .rightBrace tokens with
  | some close => return close.give ([], close.value)
  | none => do
    if tokens.isEmpty then throw ⟨.expected (.kind .rightBrace), tokens⟩
    let first ← readMember tokens
    let more ← readMembers first.rest
    return (first.followedBy more).give (first.value :: more.value.1, more.value.2)
termination_by tokens.length
decreasing_by exact first.shorter

def readClass (file : String) (tokens : List Token) : Run ClassDecl tokens := do
  let word ← readWord "class" tokens
  let head ← readClassHead word.rest
  let brace ← readKind .leftBrace head.rest
  let body ← readMembers brace.rest
  return (word.followedBy (head.followedBy (brace.followedBy body))).give
    ⟨head.value.1, head.value.2, body.value.1, file, word.value.merge body.value.2⟩

def readClasses (file : String) (tokens : List Token) :
    StateT (Option Span) (Except Failure) (List ClassDecl) :=
  if tokens.isEmpty then return []
  else do
    let first ← readClass file tokens
    return first.value :: (← readClasses file first.rest)
termination_by tokens.length
decreasing_by exact first.shorter

/-- What a parser comes to that has remembered something before. -/
def outcome (remembered : Option Span) (parser : Parser) : Except SyntaxError Program :=
  (((readClasses parser.file parser.unread remembered).map Prod.fst).map Program.mk).mapError
    (SyntaxError.ofFailure parser.finish)

section Agreement
variable {source : String} {marker : Option Span} {tokens others : List Token} {α β : Type}

namespace Agrees
variable {plain : Outcome α tokens} {next : Reading α tokens → Reading β others}

/-- The last reading decides. -/
theorem last {run : Run α tokens} (agrees : Agrees source id Whatever marker plain run) :
    Agrees source id Whatever marker (plain >>= fun reading => pure (next reading))
      (run >>= fun reading => pure (next reading)) :=
  agrees.bind fun _ _ _ known _ => .give known trivial

theorem lastLift (known : Known source marker) :
    Agrees source id Whatever marker (plain >>= fun reading => pure (next reading))
      (liftM plain >>= fun reading => pure (next reading)) :=
  .lift fun _ _ => .give known trivial

end Agrees

theorem readClause_agrees (closing : Kind) (inside : tokens <:+ meaningful source)
    (known : Known source marker) :
    Agrees source id Whatever marker (Bantam.readClause closing tokens)
      (readClause closing tokens) := by
  rw [Bantam.readClause, readClause]
  rcases readKind? closing tokens with _ | close
  · refine (readExpr_agrees inside known).bind fun expr later _ known _ => ?_
    exact .lastLift known
  · exact .give known trivial

theorem readCondition_agrees (inside : tokens <:+ meaningful source)
    (known : Known source marker) :
    Agrees source id Whatever marker (Bantam.readCondition tokens) (readCondition tokens) := by
  refine .lift fun paren _ => ?_
  refine (readExpr_agrees (paren.isSuffix.trans inside) known).bind fun test later _ known _ => ?_
  exact .lastLift known

theorem readLoopHead_agrees (inside : tokens <:+ meaningful source)
    (known : Known source marker) :
    Agrees source id Whatever marker (Bantam.readLoopHead tokens) (readLoopHead tokens) := by
  refine .lift fun paren _ => ?_
  have inside := paren.isSuffix.trans inside
  refine (readClause_agrees .semicolon inside known).bind fun init later _ known _ => ?_
  have inside := init.isSuffix.trans inside
  refine (readClause_agrees .semicolon inside known).bind fun test later _ known _ => ?_
  have inside := test.isSuffix.trans inside
  exact (readClause_agrees .rightParen inside known).last

theorem readDeclaration_agrees (inside : tokens <:+ meaningful source)
    (known : Known source marker) :
    Agrees source id Whatever marker (Bantam.readDeclaration tokens) (readDeclaration tokens) := by
  refine .lift fun type _ => .lift fun name _ => .lift fun sign _ => ?_
  have inside := sign.isSuffix.trans (name.isSuffix.trans (type.isSuffix.trans inside))
  refine (readExpr_agrees inside known).bind fun init later _ known _ => ?_
  exact .lastLift known

theorem readEffect_agrees (inside : tokens <:+ meaningful source) (known : Known source marker) :
    Agrees source id Whatever marker (Bantam.readEffect tokens) (readEffect tokens) := by
  refine (readExpr_agrees inside known).bind fun expr later _ known _ => ?_
  exact .lastLift known

mutual

theorem readStatement_agrees {tokens : List Token} (inside : tokens <:+ meaningful source)
    {marker : Option Span} (known : Known source marker) :
    Agrees source id Whatever marker (Bantam.readStatement tokens) (readStatement tokens) := by
  rw [Bantam.readStatement, readStatement]
  rcases readToken? Opening.ofToken? tokens with _ | opening
  · dsimp only
    split
    · exact readDeclaration_agrees inside known
    · exact readEffect_agrees inside known
  · dsimp only
    have inside := opening.isSuffix.trans inside
    cases opening.value.1 with
    | block =>
      exact (readStatements_agrees inside known).last
    | branch =>
      refine (readCondition_agrees inside known).bind fun condition later _ known _ => ?_
      have inside := condition.isSuffix.trans inside
      refine (readStatement_agrees inside known).bind fun thenBranch later _ known _ => ?_
      have inside := thenBranch.isSuffix.trans inside
      dsimp only [Reading.give]
      rcases readWord? "else" thenBranch.rest with _ | word
      · exact .give known trivial
      · dsimp only
        exact (readStatement_agrees (word.isSuffix.trans inside) known).last
    | whileLoop =>
      refine (readCondition_agrees inside known).bind fun condition later _ known _ => ?_
      have inside := condition.isSuffix.trans inside
      exact (readStatement_agrees inside known).last
    | forLoop =>
      refine (readLoopHead_agrees inside known).bind fun head later _ known _ => ?_
      have inside := head.isSuffix.trans inside
      exact (readStatement_agrees inside known).last
    | giveBack =>
      exact (readClause_agrees .semicolon inside known).last
    | leave => exact .lastLift known
termination_by 2 * tokens.length
decreasing_by
  · have := opening.shorter; omega
  · have := opening.shorter; have := condition.shorter; omega
  · have := opening.shorter; have := condition.shorter; have := thenBranch.shorter
    have := word.shorter; omega
  · have := opening.shorter; have := condition.shorter; omega
  · have := opening.shorter; have := head.shorter; omega

theorem readStatements_agrees {tokens : List Token} (inside : tokens <:+ meaningful source)
    {marker : Option Span} (known : Known source marker) :
    Agrees source id Whatever marker (Bantam.readStatements tokens) (readStatements tokens) := by
  rw [Bantam.readStatements, readStatements]
  rcases readKind? .rightBrace tokens with _ | close
  · dsimp only
    split
    · exact .fail _
    · refine (readStatement_agrees inside known).bind fun first later _ known _ => ?_
      have inside := first.isSuffix.trans inside
      exact (readStatements_agrees inside known).last
  · exact .give known trivial
termination_by 2 * tokens.length + 1
decreasing_by
  · omega
  · have := first.shorter; omega

end

theorem readBlock_agrees (inside : tokens <:+ meaningful source) (known : Known source marker) :
    Agrees source id Whatever marker (Bantam.readBlock tokens) (readBlock tokens) := by
  refine .lift fun brace _ => ?_
  have inside := brace.isSuffix.trans inside
  exact (readStatements_agrees inside known).last

theorem readField_agrees (start : Span) (type : Ty) (name : String)
    (inside : tokens <:+ meaningful source) (known : Known source marker) :
    Agrees source id Whatever marker (Bantam.readField start type name tokens)
      (readField start type name tokens) := by
  rw [Bantam.readField, readField]
  rcases readKind? .assign tokens with _ | sign
  · exact .lastLift known
  · refine (readExpr_agrees (sign.isSuffix.trans inside) known).bind fun init later _ known _ => ?_
    exact .lastLift known

theorem readMethod_agrees (start : Span) (returns : Ty) (name : String)
    (inside : tokens <:+ meaningful source) (known : Known source marker) :
    Agrees source id Whatever marker (Bantam.readMethod start returns name tokens)
      (readMethod start returns name tokens) := by
  refine .lift fun formals _ => ?_
  have inside := formals.isSuffix.trans inside
  exact (readBlock_agrees inside known).last

theorem readMember_agrees (inside : tokens <:+ meaningful source) (known : Known source marker) :
    Agrees source id Whatever marker (Bantam.readMember tokens) (readMember tokens) := by
  refine .lift fun type _ => .lift fun name _ => ?_
  have inside := name.isSuffix.trans (type.isSuffix.trans inside)
  dsimp only
  rcases readKind? .leftParen name.rest with _ | paren
  · exact (readField_agrees _ _ _ inside known).last
  · have inside := paren.isSuffix.trans inside
    exact (readMethod_agrees _ _ _ inside known).last

theorem readMembers_agrees {tokens : List Token} (inside : tokens <:+ meaningful source)
    {marker : Option Span} (known : Known source marker) :
    Agrees source id Whatever marker (Bantam.readMembers tokens) (readMembers tokens) := by
  rw [Bantam.readMembers, readMembers]
  rcases readKind? .rightBrace tokens with _ | close
  · dsimp only
    split
    · exact .fail _
    · refine (readMember_agrees inside known).bind fun first later _ known _ => ?_
      have inside := first.isSuffix.trans inside
      exact (readMembers_agrees inside known).last
  · exact .give known trivial
termination_by tokens.length
decreasing_by exact first.shorter

theorem readClass_agrees (file : String) (inside : tokens <:+ meaningful source)
    (known : Known source marker) :
    Agrees source id Whatever marker (Bantam.readClass file tokens) (readClass file tokens) := by
  refine .lift fun word _ => .lift fun head _ => .lift fun brace _ => ?_
  have inside := brace.isSuffix.trans (head.isSuffix.trans (word.isSuffix.trans inside))
  exact (readMembers_agrees inside known).last

theorem readClasses_fst (file : String) {tokens : List Token}
    (inside : tokens <:+ meaningful source) {marker : Option Span} (known : Known source marker) :
    (readClasses file tokens marker).map Prod.fst = Bantam.readClasses file tokens := by
  rw [Bantam.readClasses, readClasses]
  split
  · rfl
  · have agrees := readClass_agrees file inside known
    cases outcome : Bantam.readClass file tokens with
    | error failure =>
      rw [outcome] at agrees
      show Except.map Prod.fst (readClass file tokens marker >>= _) = _
      rw [agrees]
      rfl
    | ok first =>
      rw [outcome] at agrees
      obtain ⟨later, known, -, reads⟩ := agrees
      show Except.map Prod.fst (readClass file tokens marker >>= _) = _
      rw [reads]
      have others := readClasses_fst file (first.isSuffix.trans inside) known
      show Except.map Prod.fst (readClasses file first.rest later >>= _) =
        Bantam.readClasses file first.rest >>= _
      rw [← others]
      cases readClasses file first.rest later <;> rfl
termination_by tokens.length
decreasing_by exact first.shorter

/-- Whatever has been remembered before, the parser with marked operands comes to the same. -/
theorem outcome_eq {parser : Parser} (inside : parser.unread <:+ meaningful source)
    (known : Known source marker) : outcome marker parser = parser.parse.1 := by
  rw [outcome, readClasses_fst parser.file inside known, Parser.parse]
  cases Bantam.readClasses parser.file parser.unread <;> rfl

end Agreement

end Remembered

end Bantam
