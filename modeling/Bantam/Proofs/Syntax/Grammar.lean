import Bantam.Scan
import Bantam.Program

/-! The grammar as a relation between tokens and trees. A piece of text and a tree are related if
the tree can be derived from exactly these tokens; the information that expressions carry and the
spans of everything else are left free. Two points at which the rules alone do not say how to read
a text are parameters: which expressions may stand as statements, and which statements may stand
between a condition and an `else`. -/
namespace Bantam.Grammar

inductive TypeName : List Token → Ty → Prop
  | named {name : Token} (isName : name.isName) : TypeName [name] (.named name.spelling)
  | array {name opening closing : Token} (isName : name.isName)
      (opens : opening.kind = .leftBracket) (closes : closing.kind = .rightBracket) :
      TypeName [name, opening, closing] (.array (.named name.spelling))

/-- The ranks of expressions, from those that bind least. A variable is no more than a name, with
what qualifies it and its index; it alone can be assigned to. -/
inductive Rank where
  | assignment
  | or
  | and
  | equality
  | relational
  | additive
  | multiplicative
  | unary
  | stepped
  | primary
  | variable
  deriving DecidableEq

inductive Rank.Covers : Rank → Rank → Prop
  | assignment : Covers .assignment .or
  | or : Covers .or .and
  | and : Covers .and .equality
  | equality : Covers .equality .relational
  | relational : Covers .relational .additive
  | additive : Covers .additive .multiplicative
  | multiplicative : Covers .multiplicative .unary
  | unary : Covers .unary .stepped
  | stepped : Covers .stepped .primary
  | primary : Covers .primary .variable

inductive Rank.Joins : Rank → Kind → BinaryOp → Rank → Prop
  | or : Joins .or .or .or .and
  | and : Joins .and .and .and .equality
  | equal : Joins .equality .equal .eq .relational
  | notEqual : Joins .equality .notEqual .ne .relational
  | less : Joins .relational .less .lt .additive
  | lessEqual : Joins .relational .lessEqual .le .additive
  | greater : Joins .relational .greater .gt .additive
  | greaterEqual : Joins .relational .greaterEqual .ge .additive
  | plus : Joins .additive .plus .add .multiplicative
  | minus : Joins .additive .minus .sub .multiplicative
  | star : Joins .multiplicative .star .mul .unary
  | slash : Joins .multiplicative .slash .div .unary
  | percent : Joins .multiplicative .percent .mod .unary

inductive SignBefore : Kind → UnaryOp → Prop
  | minus : SignBefore .minus .neg
  | bang : SignBefore .bang .not
  | plusPlus : SignBefore .plusPlus .preInc
  | minusMinus : SignBefore .minusMinus .preDec

inductive SignBehind : Kind → UnaryOp → Prop
  | plusPlus : SignBehind .plusPlus .postInc
  | minusMinus : SignBehind .minusMinus .postDec

mutual

/-- Expressions of each rank. Left operands are of the rank of the whole, so binary operators
associate to the left; parentheses leave no node. -/
inductive Expression : Rank → List Token → Expr → Prop
  | covered {rank tighter : Rank} {tokens : List Token} {expr : Expr}
      (covers : rank.Covers tighter) (inner : Expression tighter tokens expr) :
      Expression rank tokens expr
  | assign {target source : List Token} {sign : Token} {info varInfo : Info}
      {qualifier index : Option Expr} {name : String} {value : Expr}
      (left : Expression .variable target (.var varInfo qualifier name index))
      (assigns : sign.kind = .assign) (right : Expression .assignment source value) :
      Expression .assignment (target ++ sign :: source) (.assign info qualifier name index value)
  | binary {rank tighter : Rank} {left right : List Token} {sign : Token} {info : Info}
      {op : BinaryOp} {first second : Expr} (joins : rank.Joins sign.kind op tighter)
      (leftOperand : Expression rank left first) (rightOperand : Expression tighter right second) :
      Expression rank (left ++ sign :: right) (.binary info op first second)
  | instanceOf {left right : List Token} {word : Token} {info : Info} {operand : Expr} {type : Ty}
      (tested : Expression .relational left operand) (tests : word.isWord "instanceof")
      (named : TypeName right type) :
      Expression .relational (left ++ word :: right) (.instanceOf info operand type)
  | unary {tokens : List Token} {sign : Token} {info : Info} {op : UnaryOp} {operand : Expr}
      (stands : SignBefore sign.kind op) (inner : Expression .unary tokens operand) :
      Expression .unary (sign :: tokens) (.unary info op operand)
  | new {word name opening closing : Token} {info : Info} (creates : word.isWord "new")
      (isName : name.isName) (opens : opening.kind = .leftParen)
      (closes : closing.kind = .rightParen) :
      Expression .unary [word, name, opening, closing] (.new info name.spelling)
  | newArray {word name opening closing : Token} {tokens : List Token} {info : Info} {size : Expr}
      (creates : word.isWord "new") (isName : name.isName) (opens : opening.kind = .leftBracket)
      (inner : Expression .assignment tokens size) (closes : closing.kind = .rightBracket) :
      Expression .unary (word :: name :: opening :: (tokens ++ [closing]))
        (.newArray info name.spelling size)
  | cast {word opening comma closing : Token} {left right : List Token} {info : Info} {type : Ty}
      {operand : Expr} (casts : word.isWord "cast") (opens : opening.kind = .leftParen)
      (named : TypeName left type) (separates : comma.kind = .comma)
      (inner : Expression .assignment right operand) (closes : closing.kind = .rightParen) :
      Expression .unary (word :: opening :: (left ++ comma :: (right ++ [closing])))
        (.cast info type operand)
  | step {tokens : List Token} {sign : Token} {info : Info} {op : UnaryOp} {operand : Expr}
      (inner : Expression .primary tokens operand) (stands : SignBehind sign.kind op) :
      Expression .stepped (tokens ++ [sign]) (.unary info op operand)
  | group {opening closing : Token} {tokens : List Token} {info : Info} {expr : Expr}
      (opens : opening.kind = .leftParen) (inner : Expression .assignment tokens expr)
      (closes : closing.kind = .rightParen) :
      Expression .primary (opening :: (tokens ++ [closing])) (expr.withInfo info)
  | int {token : Token} {info : Info} (isInteger : token.kind = .integer) :
      Expression .primary [token] (.int info (decimalValue token.spelling.toList))
  | bool {token : Token} {info : Info} (isBoolean : token.kind = .boolean) :
      Expression .primary [token] (.bool info (token.spelling == "true"))
  -- The text of a string is its spelling without the quotes.
  | string {token : Token} {info : Info} (isString : token.kind = .string) :
      Expression .primary [token]
        (.string info (String.ofList token.spelling.toList.tail.dropLast))
  | call {front inside : List Token} {name opening closing : Token} {info : Info}
      {receiver : Option Expr} {arguments : List Expr} (qualified : Qualifier front receiver)
      (isName : name.isName) (opens : opening.kind = .leftParen)
      (given : Arguments inside arguments) (closes : closing.kind = .rightParen) :
      Expression .primary (front ++ name :: opening :: (inside ++ [closing]))
        (.call info receiver name.spelling arguments)
  | var {front : List Token} {name : Token} {info : Info} {qualifier : Option Expr}
      (qualified : Qualifier front qualifier) (isName : name.isName) :
      Expression .variable (front ++ [name]) (.var info qualifier name.spelling none)
  | indexed {front tokens : List Token} {name opening closing : Token} {info : Info}
      {qualifier : Option Expr} {index : Expr} (qualified : Qualifier front qualifier)
      (isName : name.isName) (opens : opening.kind = .leftBracket)
      (inner : Expression .assignment tokens index) (closes : closing.kind = .rightBracket) :
      Expression .variable (front ++ name :: opening :: (tokens ++ [closing]))
        (.var info qualifier name.spelling (some index))

inductive Qualifier : List Token → Option Expr → Prop
  | none : Qualifier [] none
  | dotted {tokens : List Token} {dot : Token} {expr : Expr}
      (inner : Expression .primary tokens expr) (selects : dot.kind = .dot) :
      Qualifier (tokens ++ [dot]) (some expr)

inductive Arguments : List Token → List Expr → Prop
  | none : Arguments [] []
  | one {tokens : List Token} {expr : Expr} (only : Expression .assignment tokens expr) :
      Arguments tokens [expr]
  | more {tokens rest : List Token} {comma : Token} {expr next : Expr} {exprs : List Expr}
      (first : Expression .assignment tokens expr) (separates : comma.kind = .comma)
      (others : Arguments rest (next :: exprs)) :
      Arguments (tokens ++ comma :: rest) (expr :: next :: exprs)

end

inductive Clause : List Token → Option Expr → Prop
  | missing : Clause [] none
  | present {tokens : List Token} {expr : Expr} (inner : Expression .assignment tokens expr) :
      Clause tokens (some expr)

/-- How a text is read where the rules leave it open. -/
structure Choice where
  -- The expressions that may stand as statements.
  effect : List Token → Prop
  -- The statements that may stand between a condition and an `else`.
  beforeElse : Stmt → Prop

def Choice.free : Choice where
  effect _ := True
  beforeElse _ := True

mutual

inductive Statement (choice : Choice) : List Token → Stmt → Prop
  | block {opening closing : Token} {tokens : List Token} {span : Span} {body : List Stmt}
      (opens : opening.kind = .leftBrace) (inner : Statements choice tokens body)
      (closes : closing.kind = .rightBrace) :
      Statement choice (opening :: (tokens ++ [closing])) (.block span body)
  | decl {left right : List Token} {name sign closing : Token} {span : Span} {type : Ty}
      {init : Expr} (typed : TypeName left type) (isName : name.isName)
      (assigns : sign.kind = .assign) (inner : Expression .assignment right init)
      (closes : closing.kind = .semicolon) :
      Statement choice (left ++ name :: sign :: (right ++ [closing]))
        (.decl span type name.spelling init)
  | branch {word opening closing : Token} {tokens body : List Token} {span : Span}
      {condition : Expr} {thenBranch : Stmt} (tests : word.isWord "if")
      (opens : opening.kind = .leftParen) (test : Expression .assignment tokens condition)
      (closes : closing.kind = .rightParen) (first : Statement choice body thenBranch) :
      Statement choice (word :: opening :: (tokens ++ closing :: body))
        (.branch span condition thenBranch none)
  | branchElse {word opening closing other : Token} {tokens body alternative : List Token}
      {span : Span} {condition : Expr} {thenBranch elseBranch : Stmt} (tests : word.isWord "if")
      (opens : opening.kind = .leftParen) (test : Expression .assignment tokens condition)
      (closes : closing.kind = .rightParen) (first : Statement choice body thenBranch)
      (nearest : choice.beforeElse thenBranch) (otherwise : other.isWord "else")
      (second : Statement choice alternative elseBranch) :
      Statement choice (word :: opening :: (tokens ++ closing :: (body ++ other :: alternative)))
        (.branch span condition thenBranch (some elseBranch))
  | whileLoop {word opening closing : Token} {tokens body : List Token} {span : Span}
      {condition : Expr} {stmt : Stmt} (loops : word.isWord "while")
      (opens : opening.kind = .leftParen) (test : Expression .assignment tokens condition)
      (closes : closing.kind = .rightParen) (inner : Statement choice body stmt) :
      Statement choice (word :: opening :: (tokens ++ closing :: body))
        (.whileLoop span condition stmt)
  | forLoop {word opening first second closing : Token} {start tokens step body : List Token}
      {span : Span} {init condition update : Option Expr} {stmt : Stmt} (loops : word.isWord "for")
      (opens : opening.kind = .leftParen) (before : Clause start init)
      (stops : first.kind = .semicolon) (test : Clause tokens condition)
      (stopsAgain : second.kind = .semicolon) (after : Clause step update)
      (closes : closing.kind = .rightParen) (inner : Statement choice body stmt) :
      Statement choice
        (word :: opening :: (start ++ first :: (tokens ++ second :: (step ++ closing :: body))))
        (.forLoop span init condition update stmt)
  | giveBack {word closing : Token} {tokens : List Token} {span : Span} {value : Option Expr}
      (returns : word.isWord "return") (given : Clause tokens value)
      (closes : closing.kind = .semicolon) :
      Statement choice (word :: (tokens ++ [closing])) (.giveBack span value)
  | leave {word closing : Token} {span : Span} (breaks : word.isWord "break")
      (closes : closing.kind = .semicolon) : Statement choice [word, closing] (.leave span)
  | effect {tokens : List Token} {closing : Token} {span : Span} {value : Expr}
      (allowed : choice.effect tokens) (inner : Expression .assignment tokens value)
      (closes : closing.kind = .semicolon) :
      Statement choice (tokens ++ [closing]) (.expr span value)

inductive Statements (choice : Choice) : List Token → List Stmt → Prop
  | nil : Statements choice [] []
  | cons {tokens rest : List Token} {stmt : Stmt} {stmts : List Stmt}
      (first : Statement choice tokens stmt) (others : Statements choice rest stmts) :
      Statements choice (tokens ++ rest) (stmt :: stmts)

end

inductive Formals : List Token → List Formal → Prop
  | none : Formals [] []
  | one {tokens : List Token} {name : Token} {span : Span} {type : Ty}
      (typed : TypeName tokens type) (isName : name.isName) :
      Formals (tokens ++ [name]) [⟨type, name.spelling, span⟩]
  | more {tokens rest : List Token} {name comma : Token} {span : Span} {type : Ty} {next : Formal}
      {formals : List Formal} (typed : TypeName tokens type) (isName : name.isName)
      (separates : comma.kind = .comma) (others : Formals rest (next :: formals)) :
      Formals (tokens ++ name :: comma :: rest) (⟨type, name.spelling, span⟩ :: next :: formals)

inductive Member (choice : Choice) : List Token → Bantam.Member → Prop
  | field {tokens : List Token} {name closing : Token} {span : Span} {type : Ty}
      (typed : TypeName tokens type) (isName : name.isName) (closes : closing.kind = .semicolon) :
      Member choice (tokens ++ [name, closing]) (.field ⟨type, name.spelling, none, span⟩)
  | initialized {left right : List Token} {name sign closing : Token} {span : Span} {type : Ty}
      {init : Expr} (typed : TypeName left type) (isName : name.isName)
      (assigns : sign.kind = .assign) (inner : Expression .assignment right init)
      (closes : closing.kind = .semicolon) :
      Member choice (left ++ name :: sign :: (right ++ [closing]))
        (.field ⟨type, name.spelling, some init, span⟩)
  | method {left inside tokens : List Token} {name opening closing first last : Token} {span : Span}
      {type : Ty} {formals : List Formal} {body : List Stmt} (typed : TypeName left type)
      (isName : name.isName) (opens : opening.kind = .leftParen) (taken : Formals inside formals)
      (closes : closing.kind = .rightParen) (begins : first.kind = .leftBrace)
      (inner : Statements choice tokens body) (ends : last.kind = .rightBrace) :
      Member choice
        (left ++ name :: opening :: (inside ++ closing :: first :: (tokens ++ [last])))
        (.method ⟨type, name.spelling, formals, body, span⟩)

inductive Members (choice : Choice) : List Token → List Bantam.Member → Prop
  | nil : Members choice [] []
  | cons {tokens rest : List Token} {member : Bantam.Member} {members : List Bantam.Member}
      (first : Member choice tokens member) (others : Members choice rest members) :
      Members choice (tokens ++ rest) (member :: members)

inductive Parent : List Token → Option String → Prop
  | none : Parent [] none
  | named {word name : Token} (inherits : word.isWord "extends") (isName : name.isName) :
      Parent [word, name] (some name.spelling)

inductive Class (choice : Choice) (file : String) : List Token → ClassDecl → Prop
  | mk {word name opening closing : Token} {front tokens : List Token} {span : Span}
      {parent : Option String} {members : List Bantam.Member} (declares : word.isWord "class")
      (isName : name.isName) (inherits : Parent front parent) (opens : opening.kind = .leftBrace)
      (inner : Members choice tokens members) (closes : closing.kind = .rightBrace) :
      Class choice file (word :: name :: (front ++ opening :: (tokens ++ [closing])))
        ⟨name.spelling, parent, members, file, span⟩

inductive Classes (choice : Choice) (file : String) : List Token → List ClassDecl → Prop
  | nil : Classes choice file [] []
  | cons {tokens rest : List Token} {decl : ClassDecl} {decls : List ClassDecl}
      (first : Class choice file tokens decl) (others : Classes choice file rest decls) :
      Classes choice file (tokens ++ rest) (decl :: decls)

/-- Tokens that begin like a declaration: with a name and a word, or a name and a pair of
brackets. -/
inductive LikeDeclaration : List Token → Prop
  | word {name next : Token} {rest : List Token} (isName : name.isName)
      (isWord : next.kind = .identifier) : LikeDeclaration (name :: next :: rest)
  | brackets {name opening closing : Token} {rest : List Token} (isName : name.isName)
      (opens : opening.kind = .leftBracket) (closes : closing.kind = .rightBracket) :
      LikeDeclaration (name :: opening :: closing :: rest)

def leavesOpen : Stmt → Bool
  | .branch _ _ _ none => true
  | .branch _ _ _ (some elseBranch) => leavesOpen elseBranch
  | .whileLoop _ _ body => leavesOpen body
  | .forLoop _ _ _ _ body => leavesOpen body
  | .expr .. | .decl .. | .block .. | .leave .. | .giveBack .. => false

/-- What begins like a declaration is one, and an `else` belongs to the nearest condition that has
none yet. -/
def Choice.settled : Choice where
  effect tokens := ¬ LikeDeclaration tokens
  beforeElse stmt := leavesOpen stmt = false

/-- The tokens of a source text that carry meaning: neither comments nor the end of input. -/
def meaningful (source : String) : List Token :=
  (scan source).filter fun token => token.kind != .comment && token.kind != .endOfInput

end Bantam.Grammar
