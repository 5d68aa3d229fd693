import Bantam.Lexeme
import Bantam.Parsing.Reading

/-! The grammar of expressions, by recursive descent. Binary operators are read level by level, from
those that bind least to those that bind most, and associate to the left; assignment associates to
the right and takes an unparenthesised variable on its left. -/
namespace Bantam

inductive Level where
  | or
  | and
  | equality
  | relational
  | additive
  | multiplicative
  deriving DecidableEq, Repr

namespace Level

def tighter? : Level → Option Level
  | or => some and
  | and => some equality
  | equality => some relational
  | relational => some additive
  | additive => some multiplicative
  | multiplicative => none

def height : Level → Nat
  | or => 6
  | and => 5
  | equality => 4
  | relational => 3
  | additive => 2
  | multiplicative => 1

theorem height_pos (level : Level) : 0 < level.height := by cases level <;> decide

theorem height_of_tighter? {level tighter : Level} (found : level.tighter? = some tighter) :
    tighter.height < level.height := by
  cases level <;> simp_all [tighter?] <;> subst found <;> decide

def operator? : Level → Kind → Option BinaryOp
  | or, .or => some .or
  | and, .and => some .and
  | equality, .equal => some .eq
  | equality, .notEqual => some .ne
  | relational, .less => some .lt
  | relational, .greater => some .gt
  | relational, .lessEqual => some .le
  | relational, .greaterEqual => some .ge
  | additive, .plus => some .add
  | additive, .minus => some .sub
  | multiplicative, .star => some .mul
  | multiplicative, .slash => some .div
  | multiplicative, .percent => some .mod
  | _, _ => none

def typeTest? (level : Level) (token : Token) : Option Span :=
  if level = .relational then spanOfWord "instanceof" token else none

end Level

def UnaryOp.before? : Kind → Option UnaryOp
  | .minus => some .neg
  | .bang => some .not
  | .plusPlus => some .preInc
  | .minusMinus => some .preDec
  | _ => none

def UnaryOp.behind? : Kind → Option UnaryOp
  | .plusPlus => some .postInc
  | .minusMinus => some .postDec
  | _ => none

def signed (operator? : Kind → Option α) (token : Token) : Option (α × Span) :=
  (operator? token.kind).map fun op => (op, token.span)

def Expr.constant? (token : Token) : Option Expr :=
  match token.kind with
  | .integer => some (.int ⟨token.span, none⟩ (decimalValue token.spelling.toList))
  | .boolean => some (.bool ⟨token.span, none⟩ (token.spelling == "true"))
  | .string => some (.string ⟨token.span, none⟩ (String.ofList token.spelling.toList.tail.dropLast))
  | _ => none

/-- An expression as an operand, which may be enclosed in parentheses as a whole. -/
structure Operand where
  expr : Expr
  grouped : Bool

namespace Operand

def plain (expr : Expr) : Operand := ⟨expr, false⟩

def assignment? (target : Operand) : Option (Expr → Expr) :=
  match target with
  | ⟨.var info qualifier name index, false⟩ => some fun value =>
    .assign ⟨info.span.merge value.span, none⟩ qualifier name index value
  | _ => none

end Operand

/-- What calls measure: tokens first, then how far down the grammar they are. -/
def descent (tokens : List Token) (depth : Nat) : Nat := 20 * tokens.length + depth

mutual

/-- An expression: an assignment, or binary operators over their operands. -/
def readExpr (tokens : List Token) : Outcome Expr tokens := do
  let left ← readOperators .or tokens
  match readKind? .assign left.rest with
  | none => return left.give left.value.expr
  | some sign =>
    match left.value.assignment? with
    | none => throw ⟨.invalidTarget left.value.expr.span, left.rest⟩
    | some assign =>
      let right ← readExpr sign.rest
      return (left.followedBy (sign.followedBy right)).give (assign right.value)
termination_by descent tokens 16
decreasing_by
  · simp [descent, Level.height]
  · have := left.shorter; have := sign.shorter; simp [descent]; omega

def readOperators (level : Level) (tokens : List Token) : Outcome Operand tokens := do
  let first ← readOperand level tokens
  readMoreOperators level first
termination_by descent tokens (2 * level.height + 3)
decreasing_by
  · simp [descent]
  · have := first.shorter; simp [descent]; omega

/-- Goes on after a first operand as long as operators of the level follow. -/
def readMoreOperators (level : Level) {tokens : List Token} (left : Reading Operand tokens) :
    Outcome Operand tokens :=
  match readToken? (signed level.operator?) left.rest with
  | some sign => do
    let right ← readOperand level sign.rest
    let span := left.value.expr.span.merge right.value.expr.span
    let expr := .binary ⟨span, none⟩ sign.value.1 left.value.expr right.value.expr
    readMoreOperators level ((left.followedBy (sign.followedBy right)).give (.plain expr))
  | none =>
    match readToken? level.typeTest? left.rest with
    | some word => do
      let type ← readType word.rest
      let span := left.value.expr.span.merge type.value.span
      let expr := .instanceOf ⟨span, none⟩ left.value.expr type.value.type
      readMoreOperators level ((left.followedBy (word.followedBy type)).give (.plain expr))
    | none => return left
termination_by descent left.rest (2 * level.height + 3)
decreasing_by
  · have := sign.shorter; simp [descent]; omega
  · have := sign.shorter; have := right.shorter
    simp [descent, Reading.followedBy, Reading.give]; omega
  · have := word.shorter; have := type.shorter
    simp [descent, Reading.followedBy, Reading.give]; omega

def readOperand (level : Level) (tokens : List Token) : Outcome Operand tokens :=
  match _found : level.tighter? with
  | some tighter => readOperators tighter tokens
  | none => readUnary tokens
termination_by descent tokens (2 * level.height + 2)
decreasing_by
  · have := Level.height_of_tighter? _found; simp [descent]; omega
  · have := level.height_pos; simp [descent]; omega

def readUnary (tokens : List Token) : Outcome Operand tokens :=
  match readToken? (signed UnaryOp.before?) tokens with
  | some sign => do
    let operand ← readUnary sign.rest
    let span := sign.value.2.merge operand.value.expr.span
    return (sign.followedBy operand).give
      (.plain (.unary ⟨span, none⟩ sign.value.1 operand.value.expr))
  | none =>
    match readWord? "new" tokens with
    | some word => do
      let name ← readName word.rest
      match readKind? .leftParen name.rest with
      | some paren =>
        let close ← readKind .rightParen paren.rest
        let span := word.value.merge close.value
        return (word.followedBy (name.followedBy (paren.followedBy close))).give
          (.plain (.new ⟨span, none⟩ name.value.text))
      | none =>
        match readKind? .leftBracket name.rest with
        | some bracket =>
          let size ← readExpr bracket.rest
          let close ← readKind .rightBracket size.rest
          let span := word.value.merge close.value
          return (word.followedBy (name.followedBy (bracket.followedBy
            (size.followedBy close)))).give
              (.plain (.newArray ⟨span, none⟩ name.value.text size.value))
        | none => throw ⟨.expected .parenOrBracket, name.rest⟩
    | none =>
      match readWord? "cast" tokens with
      | some word => do
        let paren ← readKind .leftParen word.rest
        let type ← readType paren.rest
        let comma ← readKind .comma type.rest
        let operand ← readExpr comma.rest
        let close ← readKind .rightParen operand.rest
        let span := word.value.merge close.value
        return (word.followedBy (paren.followedBy (type.followedBy (comma.followedBy
          (operand.followedBy close))))).give
            (.plain (.cast ⟨span, none⟩ type.value.type operand.value))
      | none => do
        let operand ← readPrimary tokens
        match readToken? (signed UnaryOp.behind?) operand.rest with
        | some sign =>
          let span := operand.value.expr.span.merge sign.value.2
          return (operand.followedBy sign).give
            (.plain (.unary ⟨span, none⟩ sign.value.1 operand.value.expr))
        | none => return operand
termination_by descent tokens 3
decreasing_by
  · have := sign.shorter; simp [descent]; omega
  · have := word.shorter; have := name.shorter; have := bracket.shorter; simp [descent]; omega
  · have := word.shorter; have := paren.shorter; have := type.shorter; have := comma.shorter
    simp [descent]; omega
  · simp [descent]

def readPrimary (tokens : List Token) : Outcome Operand tokens :=
  match readKind? .leftParen tokens with
  | some paren => do
    let inner ← readExpr paren.rest
    let close ← readKind .rightParen inner.rest
    let expr := inner.value.withSpan (paren.value.merge close.value)
    readSelections ((paren.followedBy (inner.followedBy close)).give ⟨expr, true⟩)
  | none =>
    match readToken? Expr.constant? tokens with
    | some constant => readSelections (constant.give (.plain constant.value))
    | none =>
      match readToken? Name.ofToken? tokens with
      | some name => do
        let expr ← readNamed none name
        readSelections (expr.give (.plain expr.value))
      | none => throw ⟨.expected .expression, tokens⟩
termination_by descent tokens 2
decreasing_by
  · have := paren.shorter; simp [descent]; omega
  · have := paren.shorter; have := inner.shorter; have := close.shorter
    simp [descent, Reading.followedBy, Reading.give]; omega
  · have := constant.shorter; simp [descent, Reading.give]; omega
  · have := name.shorter; simp [descent]; omega
  · have := expr.shorter; simp [descent, Reading.give]; omega

def readSelections {tokens : List Token} (head : Reading Operand tokens) : Outcome Operand tokens :=
  match readKind? .dot head.rest with
  | some dot => do
    let name ← readName dot.rest
    let expr ← readNamed (some head.value.expr) (dot.followedBy name)
    readSelections ((head.followedBy expr).give (.plain expr.value))
  | none => return head
termination_by descent head.rest 1
decreasing_by
  · have := dot.shorter; have := name.shorter; simp [descent, Reading.followedBy]; omega
  · have := expr.shorter; simp [descent, Reading.followedBy, Reading.give]; omega

/-- A call or a variable after its name, with what stands before the dot if it is qualified. -/
def readNamed (qualifier : Option Expr) {tokens : List Token} (name : Reading Name tokens) :
    Outcome Expr tokens :=
  let start := (qualifier.map Expr.span).getD name.value.span
  match readKind? .leftParen name.rest with
  | some paren => do
    let arguments ← readArguments paren.rest
    let span := start.merge arguments.value.2
    return (name.followedBy (paren.followedBy arguments)).give
      (.call ⟨span, none⟩ qualifier name.value.text arguments.value.1)
  | none =>
    let span := start.merge name.value.span
    match readKind? .leftBracket name.rest with
    | some bracket => do
      let index ← readExpr bracket.rest
      let close ← readKind .rightBracket index.rest
      return (name.followedBy (bracket.followedBy (index.followedBy close))).give
        (.var ⟨span.merge close.value, none⟩ qualifier name.value.text (some index.value))
    | none => return name.give (.var ⟨span, none⟩ qualifier name.value.text none)
termination_by descent name.rest 19
decreasing_by
  · have := paren.shorter; simp [descent]; omega
  · have := bracket.shorter; simp [descent]; omega

def readArguments (tokens : List Token) : Outcome (List Expr × Span) tokens :=
  match readKind? .rightParen tokens with
  | some close => return close.give ([], close.value)
  | none => readMoreArguments tokens
termination_by descent tokens 18
decreasing_by simp [descent]

def readMoreArguments (tokens : List Token) : Outcome (List Expr × Span) tokens := do
  let first ← readExpr tokens
  match readKind? .comma first.rest with
  | some comma =>
    let more ← readMoreArguments comma.rest
    return (first.followedBy (comma.followedBy more)).give
      (first.value :: more.value.1, more.value.2)
  | none =>
    let close ← readKind .rightParen first.rest
    return (first.followedBy close).give ([first.value], close.value)
termination_by descent tokens 17
decreasing_by
  · simp [descent]
  · have := first.shorter; have := comma.shorter; simp [descent]; omega

end

end Bantam
