import Bantam.Proofs.Syntax.Extent

/-! Trees with their places. A tree and the tokens that it was read from are related together with
the spans of all its nodes. Every node starts with its first token. Classes, members, formals and
statements end with their last one, and so do expressions, but for the brackets of an array type at
the end of a type test: the test and what ends with it stop at the name before them. -/
namespace Bantam
open Grammar

/-- The span starts with the first of the tokens and ends with a given one of them. -/
structure RunsTo (tokens : List Token) (last : Token) (span : Span) : Prop where
  member : last ∈ tokens
  bounds : ∃ first, tokens.head? = some first ∧
    span = ⟨first.span.start, last.span.stop, first.span.line⟩

section RunsTo
variable {tokens front back : List Token} {last : Token} {span left right : Span}

theorem runsTo_single (token : Token) : RunsTo [token] token token.span :=
  ⟨List.mem_cons_self, token, rfl, rfl⟩

theorem RunsTo.begins (runs : RunsTo tokens last span) : Begins tokens span := by
  obtain ⟨member, first, starts, rfl⟩ := runs
  exact ⟨first, starts, rfl, rfl, last, member, rfl⟩

theorem RunsTo.append (runs : RunsTo front last span) (back : List Token) :
    RunsTo (front ++ back) last span := by
  obtain ⟨member, first, starts, rfl⟩ := runs
  exact ⟨List.mem_append_left back member, first, by rw [List.head?_append, starts]; rfl, rfl⟩

theorem RunsTo.spans (runs : RunsTo tokens last span) (ends : tokens.getLast? = some last) :
    Spans tokens span := by
  obtain ⟨-, first, starts, rfl⟩ := runs
  exact ⟨first, last, starts, ends, rfl⟩

theorem Spans.runsTo (spans : Spans tokens span) (ends : tokens.getLast? = some last) :
    RunsTo tokens last span := by
  obtain ⟨first, other, starts, atEnd, rfl⟩ := spans
  obtain rfl := Option.some.inj (atEnd.symm.trans ends)
  exact ⟨List.mem_of_getLast? ends, first, starts, rfl⟩

/-- A span in front merged with one behind it runs as far as the latter. -/
theorem Begins.runsTo (begins : Begins front left) (middle : List Token)
    (runs : RunsTo back last right) (ordered : Ordered (front ++ (middle ++ back))) :
    RunsTo (front ++ (middle ++ back)) last (left.merge right) := by
  obtain ⟨first, starts, start, line, other, isOther, stop⟩ := begins
  obtain ⟨isLast, next, startsNext, rfl⟩ := runs
  have isFirst := List.mem_of_head? starts
  have isNext := List.mem_append_right middle (List.mem_of_head? startsNext)
  have isLast := List.mem_append_right middle isLast
  have apart := (List.pairwise_append.mp ordered.apart).2.2
  have firstFilled := ordered.nonempty first (List.mem_append_left _ isFirst)
  have lastFilled := ordered.nonempty last (List.mem_append_right _ isLast)
  have before : left.start ≤ next.span.start :=
    start.trans_le (firstFilled.le.trans (apart first isFirst next isNext))
  have after : left.stop ≤ last.span.stop :=
    stop.trans_le ((apart other isOther last isLast).trans lastFilled.le)
  refine ⟨List.mem_append_right _ isLast, first, by rw [List.head?_append, starts]; rfl, ?_⟩
  rw [Span.merge_of_le, start, line]
  · exact before
  · exact after

theorem Begins.spans (begins : Begins front left) (middle : List Token) (spans : Spans back right)
    (ordered : Ordered (front ++ (middle ++ back))) :
    Spans (front ++ (middle ++ back)) (left.merge right) := by
  obtain ⟨first, last, starts, ends, rfl⟩ := spans
  have behind : RunsTo back last _ := Spans.runsTo ⟨first, last, starts, ends, rfl⟩ ends
  refine (begins.runsTo middle behind ordered).spans ?_
  rw [List.getLast?_append, List.getLast?_append, ends]
  rfl

theorem begins_cons (token : Token) (rest : List Token) : Begins (token :: rest) token.span :=
  (runsTo_single token).begins.append rest

end RunsTo

namespace Grammar.Located

mutual

/-- The expression is read from the tokens, and its span ends with a given one of them. -/
inductive Expression : List Token → Token → Expr → Prop
  | mk {tokens : List Token} {last : Token} {expr : Expr} (runs : RunsTo tokens last expr.span)
      (shape : Shape tokens last expr) : Expression tokens last expr

/-- How an expression is made of its parts, and with which token its span ends. -/
inductive Shape : List Token → Token → Expr → Prop
  | assign {target source : List Token} {sign ends last : Token} {info varInfo : Info}
      {qualifier index : Option Expr} {name : String} {value : Expr}
      (left : Expression target ends (.var varInfo qualifier name index))
      (assigns : sign.kind = .assign) (right : Expression source last value) :
      Shape (target ++ sign :: source) last (.assign info qualifier name index value)
  | binary {rank tighter : Rank} {left right : List Token} {sign ends last : Token} {info : Info}
      {op : BinaryOp} {first second : Expr} (joins : rank.Joins sign.kind op tighter)
      (leftOperand : Expression left ends first) (rightOperand : Expression right last second) :
      Shape (left ++ sign :: right) last (.binary info op first second)
  /-- The span ends with the name of the type. -/
  | instanceOf {left brackets : List Token} {word name ends : Token} {info : Info} {operand : Expr}
      {type : Ty} (tested : Expression left ends operand) (tests : word.isWord "instanceof")
      (named : TypeName (name :: brackets) type) :
      Shape (left ++ word :: name :: brackets) name (.instanceOf info operand type)
  | unary {tokens : List Token} {sign last : Token} {info : Info} {op : UnaryOp} {operand : Expr}
      (stands : SignBefore sign.kind op) (inner : Expression tokens last operand) :
      Shape (sign :: tokens) last (.unary info op operand)
  | new {word name opening closing : Token} {info : Info} (creates : word.isWord "new")
      (isName : name.isName) (opens : opening.kind = .leftParen)
      (closes : closing.kind = .rightParen) :
      Shape [word, name, opening, closing] closing (.new info name.spelling)
  | newArray {word name opening closing ends : Token} {tokens : List Token} {info : Info}
      {size : Expr} (creates : word.isWord "new") (isName : name.isName)
      (opens : opening.kind = .leftBracket) (inner : Expression tokens ends size)
      (closes : closing.kind = .rightBracket) :
      Shape (word :: name :: opening :: (tokens ++ [closing])) closing
        (.newArray info name.spelling size)
  | cast {word opening comma closing ends : Token} {left right : List Token} {info : Info}
      {type : Ty} {operand : Expr} (casts : word.isWord "cast") (opens : opening.kind = .leftParen)
      (named : TypeName left type) (separates : comma.kind = .comma)
      (inner : Expression right ends operand) (closes : closing.kind = .rightParen) :
      Shape (word :: opening :: (left ++ comma :: (right ++ [closing]))) closing
        (.cast info type operand)
  | step {tokens : List Token} {sign ends : Token} {info : Info} {op : UnaryOp} {operand : Expr}
      (inner : Expression tokens ends operand) (stands : SignBehind sign.kind op) :
      Shape (tokens ++ [sign]) sign (.unary info op operand)
  | group {opening closing ends : Token} {tokens : List Token} {info : Info} {expr : Expr}
      (opens : opening.kind = .leftParen) (inner : Expression tokens ends expr)
      (closes : closing.kind = .rightParen) :
      Shape (opening :: (tokens ++ [closing])) closing (expr.withInfo info)
  | int {token : Token} {info : Info} (isInteger : token.kind = .integer) :
      Shape [token] token (.int info (decimalValue token.spelling.toList))
  | bool {token : Token} {info : Info} (isBoolean : token.kind = .boolean) :
      Shape [token] token (.bool info (token.spelling == "true"))
  | string {token : Token} {info : Info} (isString : token.kind = .string) :
      Shape [token] token (.string info (String.ofList token.spelling.toList.tail.dropLast))
  | call {front inside : List Token} {name opening closing : Token} {info : Info}
      {receiver : Option Expr} {arguments : List Expr} (qualified : Qualifier front receiver)
      (isName : name.isName) (opens : opening.kind = .leftParen)
      (given : Arguments inside arguments) (closes : closing.kind = .rightParen) :
      Shape (front ++ name :: opening :: (inside ++ [closing])) closing
        (.call info receiver name.spelling arguments)
  | var {front : List Token} {name : Token} {info : Info} {qualifier : Option Expr}
      (qualified : Qualifier front qualifier) (isName : name.isName) :
      Shape (front ++ [name]) name (.var info qualifier name.spelling none)
  | indexed {front tokens : List Token} {name opening closing ends : Token} {info : Info}
      {qualifier : Option Expr} {index : Expr} (qualified : Qualifier front qualifier)
      (isName : name.isName) (opens : opening.kind = .leftBracket)
      (inner : Expression tokens ends index) (closes : closing.kind = .rightBracket) :
      Shape (front ++ name :: opening :: (tokens ++ [closing])) closing
        (.var info qualifier name.spelling (some index))

inductive Qualifier : List Token → Option Expr → Prop
  | none : Qualifier [] none
  | dotted {tokens : List Token} {dot ends : Token} {expr : Expr}
      (inner : Expression tokens ends expr) (selects : dot.kind = .dot) :
      Qualifier (tokens ++ [dot]) (some expr)

inductive Arguments : List Token → List Expr → Prop
  | none : Arguments [] []
  | one {tokens : List Token} {ends : Token} {expr : Expr} (only : Expression tokens ends expr) :
      Arguments tokens [expr]
  | more {tokens rest : List Token} {comma ends : Token} {expr next : Expr} {exprs : List Expr}
      (first : Expression tokens ends expr) (separates : comma.kind = .comma)
      (others : Arguments rest (next :: exprs)) :
      Arguments (tokens ++ comma :: rest) (expr :: next :: exprs)

end

/-- The expression is read from the tokens. -/
def Whole (tokens : List Token) (expr : Expr) : Prop := ∃ last, Expression tokens last expr

theorem Expression.runs {tokens : List Token} {last : Token} {expr : Expr} :
    Expression tokens last expr → RunsTo tokens last expr.span
  | .mk runs _ => runs

theorem Qualifier.begins {front : List Token} {qualifier : Option Expr}
    (qualified : Qualifier front qualifier) (name : Token) (rest : List Token) :
    Begins (front ++ name :: rest) ((qualifier.map Expr.span).getD name.span) := by
  cases qualified with
  | none => exact begins_cons name rest
  | dotted inner _ => exact (inner.runs.begins.append [_]).append _

namespace Whole
variable {tokens left right front : List Token} {word name sign opening comma closing : Token}
  {expr first second : Expr} {qualifier : Option Expr} {type : Ty}

theorem begins (whole : Whole tokens expr) : Begins tokens expr.span := by
  obtain ⟨last, located⟩ := whole
  exact located.runs.begins

theorem constant {token : Token} (chosen : Expr.constant? token = some expr) :
    Whole [token] expr := by
  refine ⟨token, .mk (Expr.span_of_constant? chosen ▸ runsTo_single token) ?_⟩
  unfold Expr.constant? at chosen
  split at chosen <;> cases chosen
  · exact .int ‹_›
  · exact .bool ‹_›
  · exact .string ‹_›

theorem assign {varInfo : Info} {text : String} {index : Option Expr}
    (target : Whole left (.var varInfo qualifier text index)) (assigns : sign.kind = .assign)
    (value : Whole right second) (ordered : Ordered (left ++ sign :: right)) :
    Whole (left ++ sign :: right)
      (.assign ⟨varInfo.span.merge second.span, none⟩ qualifier text index second) := by
  obtain ⟨ends, target⟩ := target
  obtain ⟨last, value⟩ := value
  exact ⟨last, .mk (target.runs.begins.runsTo [sign] value.runs ordered)
    (.assign target assigns value)⟩

theorem binary {rank tighter : Rank} {op : BinaryOp} (joins : rank.Joins sign.kind op tighter)
    (leftOperand : Whole left first) (rightOperand : Whole right second)
    (ordered : Ordered (left ++ sign :: right)) :
    Whole (left ++ sign :: right)
      (.binary ⟨first.span.merge second.span, none⟩ op first second) := by
  obtain ⟨ends, leftOperand⟩ := leftOperand
  obtain ⟨last, rightOperand⟩ := rightOperand
  exact ⟨last, .mk (leftOperand.runs.begins.runsTo [sign] rightOperand.runs ordered)
    (.binary joins leftOperand rightOperand)⟩

theorem instanceOf {brackets : List Token} (tested : Whole left first)
    (tests : word.isWord "instanceof") (named : TypeName (name :: brackets) type)
    (ordered : Ordered (left ++ word :: name :: brackets)) :
    Whole (left ++ word :: name :: brackets)
      (.instanceOf ⟨first.span.merge name.span, none⟩ first type) := by
  obtain ⟨ends, tested⟩ := tested
  have runsToName : RunsTo (name :: brackets) name name.span :=
    (runsTo_single name).append brackets
  exact ⟨name, .mk (tested.runs.begins.runsTo [word] runsToName ordered)
    (.instanceOf tested tests named)⟩

theorem unary {op : UnaryOp} (stands : SignBefore sign.kind op) (inner : Whole tokens expr)
    (ordered : Ordered (sign :: tokens)) :
    Whole (sign :: tokens) (.unary ⟨sign.span.merge expr.span, none⟩ op expr) := by
  obtain ⟨last, inner⟩ := inner
  exact ⟨last, .mk ((begins_cons sign []).runsTo [] inner.runs ordered) (.unary stands inner)⟩

theorem step {op : UnaryOp} (inner : Whole tokens expr) (stands : SignBehind sign.kind op)
    (ordered : Ordered (tokens ++ [sign])) :
    Whole (tokens ++ [sign]) (.unary ⟨expr.span.merge sign.span, none⟩ op expr) := by
  obtain ⟨ends, inner⟩ := inner
  exact ⟨sign, .mk (inner.runs.begins.runsTo [] (runsTo_single sign) ordered)
    (.step inner stands)⟩

/-- From the first token to a closing one behind some others. -/
theorem runsTo_closing {middle : List Token}
    (ordered : Ordered (opening :: (middle ++ [closing]))) :
    RunsTo (opening :: (middle ++ [closing])) closing (opening.span.merge closing.span) :=
  (begins_cons opening []).runsTo middle (runsTo_single closing) ordered

theorem new (creates : word.isWord "new") (isName : name.isName) (opens : opening.kind = .leftParen)
    (closes : closing.kind = .rightParen) (ordered : Ordered [word, name, opening, closing]) :
    Whole [word, name, opening, closing]
      (.new ⟨word.span.merge closing.span, none⟩ name.spelling) := by
  have runs : RunsTo (word :: ([name, opening] ++ [closing])) closing _ :=
    runsTo_closing ordered
  exact ⟨closing, .mk runs (.new creates isName opens closes)⟩

theorem newArray (creates : word.isWord "new") (isName : name.isName)
    (opens : opening.kind = .leftBracket) (inner : Whole tokens expr)
    (closes : closing.kind = .rightBracket)
    (ordered : Ordered (word :: name :: opening :: (tokens ++ [closing]))) :
    Whole (word :: name :: opening :: (tokens ++ [closing]))
      (.newArray ⟨word.span.merge closing.span, none⟩ name.spelling expr) := by
  obtain ⟨ends, inner⟩ := inner
  have runs : RunsTo (word :: (name :: opening :: tokens ++ [closing])) closing _ :=
    runsTo_closing ordered
  exact ⟨closing, .mk runs (.newArray creates isName opens inner closes)⟩

theorem cast (casts : word.isWord "cast") (opens : opening.kind = .leftParen)
    (named : TypeName left type) (separates : comma.kind = .comma) (inner : Whole right expr)
    (closes : closing.kind = .rightParen)
    (ordered : Ordered (word :: opening :: (left ++ comma :: (right ++ [closing])))) :
    Whole (word :: opening :: (left ++ comma :: (right ++ [closing])))
      (.cast ⟨word.span.merge closing.span, none⟩ type expr) := by
  obtain ⟨ends, inner⟩ := inner
  have same : word :: opening :: (left ++ comma :: (right ++ [closing])) =
      word :: ((opening :: (left ++ comma :: right)) ++ [closing]) := by simp
  refine ⟨closing, .mk ?_ (.cast casts opens named separates inner closes)⟩
  rw [same] at ordered ⊢
  exact runsTo_closing ordered

theorem group (opens : opening.kind = .leftParen) (inner : Whole tokens expr)
    (closes : closing.kind = .rightParen) (ordered : Ordered (opening :: (tokens ++ [closing]))) :
    Whole (opening :: (tokens ++ [closing]))
      (expr.withSpan (opening.span.merge closing.span)) := by
  obtain ⟨ends, inner⟩ := inner
  refine ⟨closing, .mk ?_ (.group opens inner closes)⟩
  show RunsTo _ closing (expr.withSpan _).span
  rw [Expr.span_withSpan]
  exact runsTo_closing ordered

theorem call {inside : List Token} {arguments : List Expr} (qualified : Qualifier front qualifier)
    (isName : name.isName) (opens : opening.kind = .leftParen) (given : Arguments inside arguments)
    (closes : closing.kind = .rightParen)
    (ordered : Ordered (front ++ name :: opening :: (inside ++ [closing]))) :
    Whole (front ++ name :: opening :: (inside ++ [closing]))
      (.call ⟨((qualifier.map Expr.span).getD name.span).merge closing.span, none⟩ qualifier
        name.spelling arguments) := by
  have ends : (front ++ name :: opening :: (inside ++ [closing])).getLast? = some closing := by
    rw [← List.cons_append, ← List.cons_append, ← List.append_assoc]
    exact List.getLast?_concat ..
  exact ⟨closing, .mk (((qualified.begins name _).upTo ordered ends).runsTo ends)
    (.call qualified isName opens given closes)⟩

theorem var (qualified : Qualifier front qualifier) (isName : name.isName)
    (ordered : Ordered (front ++ [name])) :
    Whole (front ++ [name])
      (.var ⟨((qualifier.map Expr.span).getD name.span).merge name.span, none⟩ qualifier
        name.spelling none) := by
  have ends : (front ++ [name]).getLast? = some name := List.getLast?_concat ..
  exact ⟨name, .mk (((qualified.begins name _).upTo ordered ends).runsTo ends)
    (.var qualified isName)⟩

theorem indexed (qualified : Qualifier front qualifier) (isName : name.isName)
    (opens : opening.kind = .leftBracket) (inner : Whole tokens expr)
    (closes : closing.kind = .rightBracket)
    (ordered : Ordered (front ++ name :: opening :: (tokens ++ [closing]))) :
    Whole (front ++ name :: opening :: (tokens ++ [closing]))
      (.var ⟨(((qualifier.map Expr.span).getD name.span).merge name.span).merge closing.span, none⟩
        qualifier name.spelling (some expr)) := by
  obtain ⟨ends, inner⟩ := inner
  refine ⟨closing, .mk ?_ (.indexed qualified isName opens inner closes)⟩
  rw [List.append_cons] at ordered ⊢
  obtain ⟨last, named⟩ := var qualified isName (ordered.sublist (List.sublist_append_left _ _))
  exact named.runs.begins.runsTo (opening :: tokens) (runsTo_single closing) ordered

end Whole

inductive Clause : List Token → Option Expr → Prop
  | missing : Clause [] none
  | present {tokens : List Token} {ends : Token} {expr : Expr}
      (inner : Expression tokens ends expr) : Clause tokens (some expr)

mutual

/-- The statement is read from the tokens and stands from the first of them to the last. -/
inductive Statement : List Token → Stmt → Prop
  | mk {tokens : List Token} {stmt : Stmt} (spans : Spans tokens stmt.span)
      (form : Form tokens stmt) : Statement tokens stmt

/-- How a statement is made of its parts. -/
inductive Form : List Token → Stmt → Prop
  | block {opening closing : Token} {tokens : List Token} {span : Span} {body : List Stmt}
      (opens : opening.kind = .leftBrace) (inner : Statements tokens body)
      (closes : closing.kind = .rightBrace) :
      Form (opening :: (tokens ++ [closing])) (.block span body)
  | decl {left right : List Token} {name sign closing ends : Token} {span : Span} {type : Ty}
      {init : Expr} (typed : TypeName left type) (isName : name.isName)
      (assigns : sign.kind = .assign) (inner : Expression right ends init)
      (closes : closing.kind = .semicolon) :
      Form (left ++ name :: sign :: (right ++ [closing])) (.decl span type name.spelling init)
  | branch {word opening closing ends : Token} {tokens body : List Token} {span : Span}
      {condition : Expr} {thenBranch : Stmt} (tests : word.isWord "if")
      (opens : opening.kind = .leftParen) (test : Expression tokens ends condition)
      (closes : closing.kind = .rightParen) (first : Statement body thenBranch) :
      Form (word :: opening :: (tokens ++ closing :: body)) (.branch span condition thenBranch none)
  | branchElse {word opening closing other ends : Token} {tokens body alternative : List Token}
      {span : Span} {condition : Expr} {thenBranch elseBranch : Stmt} (tests : word.isWord "if")
      (opens : opening.kind = .leftParen) (test : Expression tokens ends condition)
      (closes : closing.kind = .rightParen) (first : Statement body thenBranch)
      (otherwise : other.isWord "else") (second : Statement alternative elseBranch) :
      Form (word :: opening :: (tokens ++ closing :: (body ++ other :: alternative)))
        (.branch span condition thenBranch (some elseBranch))
  | whileLoop {word opening closing ends : Token} {tokens body : List Token} {span : Span}
      {condition : Expr} {stmt : Stmt} (loops : word.isWord "while")
      (opens : opening.kind = .leftParen) (test : Expression tokens ends condition)
      (closes : closing.kind = .rightParen) (inner : Statement body stmt) :
      Form (word :: opening :: (tokens ++ closing :: body)) (.whileLoop span condition stmt)
  | forLoop {word opening first second closing : Token} {start tokens step body : List Token}
      {span : Span} {init condition update : Option Expr} {stmt : Stmt} (loops : word.isWord "for")
      (opens : opening.kind = .leftParen) (before : Clause start init)
      (stops : first.kind = .semicolon) (test : Clause tokens condition)
      (stopsAgain : second.kind = .semicolon) (after : Clause step update)
      (closes : closing.kind = .rightParen) (inner : Statement body stmt) :
      Form (word :: opening :: (start ++ first :: (tokens ++ second :: (step ++ closing :: body))))
        (.forLoop span init condition update stmt)
  | giveBack {word closing : Token} {tokens : List Token} {span : Span} {value : Option Expr}
      (returns : word.isWord "return") (given : Clause tokens value)
      (closes : closing.kind = .semicolon) :
      Form (word :: (tokens ++ [closing])) (.giveBack span value)
  | leave {word closing : Token} {span : Span} (breaks : word.isWord "break")
      (closes : closing.kind = .semicolon) : Form [word, closing] (.leave span)
  | effect {tokens : List Token} {closing ends : Token} {span : Span} {value : Expr}
      (inner : Expression tokens ends value) (closes : closing.kind = .semicolon) :
      Form (tokens ++ [closing]) (.expr span value)

inductive Statements : List Token → List Stmt → Prop
  | nil : Statements [] []
  | cons {tokens rest : List Token} {stmt : Stmt} {stmts : List Stmt}
      (first : Statement tokens stmt) (others : Statements rest stmts) :
      Statements (tokens ++ rest) (stmt :: stmts)

end

inductive Formal : List Token → Bantam.Formal → Prop
  | mk {tokens : List Token} {name : Token} {span : Span} {type : Ty}
      (spans : Spans (tokens ++ [name]) span) (typed : TypeName tokens type)
      (isName : name.isName) :
      Formal (tokens ++ [name]) ⟨type, name.spelling, span⟩

inductive Formals : List Token → List Bantam.Formal → Prop
  | none : Formals [] []
  | one {tokens : List Token} {formal : Bantam.Formal} (only : Formal tokens formal) :
      Formals tokens [formal]
  | more {tokens rest : List Token} {comma : Token} {formal next : Bantam.Formal}
      {formals : List Bantam.Formal} (first : Formal tokens formal)
      (separates : comma.kind = .comma) (others : Formals rest (next :: formals)) :
      Formals (tokens ++ comma :: rest) (formal :: next :: formals)

/-- How a member is made of its parts. -/
inductive Composition : List Token → Bantam.Member → Prop
  | field {tokens : List Token} {name closing : Token} {span : Span} {type : Ty}
      (typed : TypeName tokens type) (isName : name.isName) (closes : closing.kind = .semicolon) :
      Composition (tokens ++ [name, closing]) (.field ⟨type, name.spelling, none, span⟩)
  | initialized {left right : List Token} {name sign closing ends : Token} {span : Span} {type : Ty}
      {init : Expr} (typed : TypeName left type) (isName : name.isName)
      (assigns : sign.kind = .assign) (inner : Expression right ends init)
      (closes : closing.kind = .semicolon) :
      Composition (left ++ name :: sign :: (right ++ [closing]))
        (.field ⟨type, name.spelling, some init, span⟩)
  | method {left inside tokens : List Token} {name opening closing first last : Token} {span : Span}
      {type : Ty} {formals : List Bantam.Formal} {body : List Stmt} (typed : TypeName left type)
      (isName : name.isName) (opens : opening.kind = .leftParen) (taken : Formals inside formals)
      (closes : closing.kind = .rightParen) (begins : first.kind = .leftBrace)
      (inner : Statements tokens body) (ends : last.kind = .rightBrace) :
      Composition (left ++ name :: opening :: (inside ++ closing :: first :: (tokens ++ [last])))
        (.method ⟨type, name.spelling, formals, body, span⟩)

/-- The member is read from the tokens and stands from the first of them to the last. -/
structure Member (tokens : List Token) (member : Bantam.Member) : Prop where
  spans : Spans tokens member.span
  composition : Composition tokens member

inductive Members : List Token → List Bantam.Member → Prop
  | nil : Members [] []
  | cons {tokens rest : List Token} {member : Bantam.Member} {members : List Bantam.Member}
      (first : Member tokens member) (others : Members rest members) :
      Members (tokens ++ rest) (member :: members)

inductive Class (file : String) : List Token → ClassDecl → Prop
  | mk {word name opening closing : Token} {front tokens : List Token} {span : Span}
      {parent : Option String} {members : List Bantam.Member}
      (spans : Spans (word :: name :: (front ++ opening :: (tokens ++ [closing]))) span)
      (declares : word.isWord "class") (isName : name.isName) (inherits : Parent front parent)
      (opens : opening.kind = .leftBrace) (inner : Members tokens members)
      (closes : closing.kind = .rightBrace) :
      Class file (word :: name :: (front ++ opening :: (tokens ++ [closing])))
        ⟨name.spelling, parent, members, file, span⟩

inductive Classes (file : String) : List Token → List ClassDecl → Prop
  | nil : Classes file [] []
  | cons {tokens rest : List Token} {decl : ClassDecl} {decls : List ClassDecl}
      (first : Class file tokens decl) (others : Classes file rest decls) :
      Classes file (tokens ++ rest) (decl :: decls)

end Grammar.Located

end Bantam
