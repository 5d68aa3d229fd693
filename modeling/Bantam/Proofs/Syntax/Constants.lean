import Bantam.Proofs.Syntax.Leaves
import Bantam.Proofs.Syntax.ProgramSound

/-! The constants of programs. A program has them in the order in which they stand in its text, and
one for each token that is spelled as a constant: what is derived from some tokens has the constants
of these tokens. -/
namespace Bantam

inductive Constant where
  | int (value : Nat)
  | bool (value : Bool)
  /-- The text between the quotes, with its escapes as they were written. -/
  | string (text : String)
  deriving DecidableEq, Repr

/-- The constant that is spelled by a token. -/
def Constant.ofToken? (token : Token) : Option Constant :=
  match token.kind with
  | .integer => some (.int (decimalValue token.spelling.toList))
  | .boolean => some (.bool (token.spelling == "true"))
  | .string => some (.string (String.ofList token.spelling.toList.tail.dropLast))
  | _ => none

/-- The constants that are spelled by some tokens. -/
def spelledConstants (tokens : List Token) : List Constant := tokens.filterMap Constant.ofToken?

namespace Expr

mutual

/-- The constants of an expression, in the order of its text. -/
def constants : Expr → List Constant
  | int _ value => [.int value]
  | bool _ value => [.bool value]
  | string _ text => [.string text]
  | var _ qualifier _ index => constantsOption qualifier ++ constantsOption index
  | assign _ qualifier _ index value =>
    constantsOption qualifier ++ constantsOption index ++ constants value
  | call _ receiver _ arguments => constantsOption receiver ++ constantsList arguments
  | new .. => []
  | newArray _ _ operand | instanceOf _ operand _ | cast _ _ operand | unary _ _ operand =>
    constants operand
  | binary _ _ left right => constants left ++ constants right

def constantsOption : Option Expr → List Constant
  | none => []
  | some expr => constants expr

def constantsList : List Expr → List Constant
  | [] => []
  | expr :: rest => constants expr ++ constantsList rest

end

@[simp] theorem constants_withInfo (info : Info) (expr : Expr) :
    (expr.withInfo info).constants = expr.constants := by
  cases expr <;> rfl

end Expr

namespace Stmt

mutual

def constants : Stmt → List Constant
  | expr _ value | decl _ _ _ value => value.constants
  | block _ body => constantsList body
  | branch _ condition thenBranch elseBranch =>
    condition.constants ++ constants thenBranch ++ constantsOption elseBranch
  | whileLoop _ condition body => condition.constants ++ constants body
  | forLoop _ init condition update body =>
    Expr.constantsOption init ++ Expr.constantsOption condition ++ Expr.constantsOption update ++
      constants body
  | leave _ => []
  | giveBack _ value => Expr.constantsOption value

def constantsOption : Option Stmt → List Constant
  | none => []
  | some stmt => constants stmt

def constantsList : List Stmt → List Constant
  | [] => []
  | stmt :: rest => constants stmt ++ constantsList rest

end

end Stmt

def Member.constants : Member → List Constant
  | field f => Expr.constantsOption f.init
  | method m => Stmt.constantsList m.body

def ClassDecl.constants (decl : ClassDecl) : List Constant := decl.members.flatMap Member.constants

/-- The constants of a program, in the order of its text. -/
def Program.constants (program : Program) : List Constant :=
  program.classes.flatMap ClassDecl.constants

section Tokens
variable {token : Token} {rest : List Token}

theorem Constant.ofToken?_eq_none_iff :
    ofToken? token = none ↔ token.kind.category ≠ .literal := by
  unfold ofToken?
  cases token.kind <;> simp [Kind.category]

@[simp] theorem spelledConstants_nil : spelledConstants [] = [] := rfl

@[simp] theorem spelledConstants_append (first second : List Token) :
    spelledConstants (first ++ second) = spelledConstants first ++ spelledConstants second :=
  List.filterMap_append

/-- A token of another kind is passed over. -/
theorem spelledConstants_of_kind {kind : Kind} (isKind : token.kind = kind)
    (other : kind.category ≠ .literal := by decide) :
    spelledConstants (token :: rest) = spelledConstants rest :=
  List.filterMap_cons_none (Constant.ofToken?_eq_none_iff.mpr (isKind ▸ other))

theorem spelledConstants_of_isName (isName : token.isName) :
    spelledConstants (token :: rest) = spelledConstants rest :=
  spelledConstants_of_kind (Token.kind_of_isName isName)

theorem spelledConstants_of_isWord {word : String} (isWord : token.isWord word) :
    spelledConstants (token :: rest) = spelledConstants rest :=
  spelledConstants_of_kind (Token.kind_of_isWord isWord)

end Tokens

-- What is derived from some tokens has their constants.
namespace Grammar

theorem TypeName.constants {tokens : List Token} {type : Ty} (named : TypeName tokens type) :
    spelledConstants tokens = [] := by
  cases named with
  | named isName => simp [spelledConstants_of_isName isName]
  | array isName opens closes =>
    simp [spelledConstants_of_isName isName, spelledConstants_of_kind opens,
      spelledConstants_of_kind closes]

theorem Rank.Joins.category {rank tighter : Rank} {kind : Kind} {op : BinaryOp}
    (joins : rank.Joins kind op tighter) : kind.category ≠ .literal := by
  cases joins <;> decide

theorem SignBefore.category {kind : Kind} {op : UnaryOp} (stands : SignBefore kind op) :
    kind.category ≠ .literal := by
  cases stands <;> decide

theorem SignBehind.category {kind : Kind} {op : UnaryOp} (stands : SignBehind kind op) :
    kind.category ≠ .literal := by
  cases stands <;> decide

mutual

theorem Expression.constants {rank : Rank} {tokens : List Token} {expr : Expr} :
    Expression rank tokens expr → expr.constants = spelledConstants tokens
  | .covered _ inner => inner.constants
  | .assign left assigns right => by
    have target := left.constants
    rw [Expr.constants] at target
    simp [Expr.constants, ← target, spelledConstants_of_kind assigns, right.constants]
  | .binary joins left right => by
    simp [Expr.constants, left.constants, spelledConstants_of_kind rfl joins.category,
      right.constants]
  | .instanceOf tested tests named => by
    simp [Expr.constants, tested.constants, spelledConstants_of_isWord tests, named.constants]
  | .unary stands inner => by
    simp [Expr.constants, spelledConstants_of_kind rfl stands.category, inner.constants]
  | .new creates isName opens closes => by
    simp [Expr.constants, spelledConstants_of_isWord creates, spelledConstants_of_isName isName,
      spelledConstants_of_kind opens, spelledConstants_of_kind closes]
  | .newArray creates isName opens inner closes => by
    simp [Expr.constants, spelledConstants_of_isWord creates, spelledConstants_of_isName isName,
      spelledConstants_of_kind opens, inner.constants, spelledConstants_of_kind closes]
  | .cast casts opens named separates inner closes => by
    simp [Expr.constants, spelledConstants_of_isWord casts, spelledConstants_of_kind opens,
      named.constants, spelledConstants_of_kind separates, inner.constants,
      spelledConstants_of_kind closes]
  | .step inner stands => by
    simp [Expr.constants, inner.constants, spelledConstants_of_kind rfl stands.category]
  | .group opens inner closes => by
    simp [spelledConstants_of_kind opens, inner.constants, spelledConstants_of_kind closes]
  | .int isInteger => by simp [Expr.constants, spelledConstants, Constant.ofToken?, isInteger]
  | .bool isBoolean => by simp [Expr.constants, spelledConstants, Constant.ofToken?, isBoolean]
  | .string isString => by simp [Expr.constants, spelledConstants, Constant.ofToken?, isString]
  | .call qualified isName opens given closes => by
    simp [Expr.constants, qualified.constants, spelledConstants_of_isName isName,
      spelledConstants_of_kind opens, given.constants, spelledConstants_of_kind closes]
  | .var qualified isName => by
    simp [Expr.constants, qualified.constants, spelledConstants_of_isName isName,
      Expr.constantsOption]
  | .indexed qualified isName opens inner closes => by
    simp [Expr.constants, qualified.constants, spelledConstants_of_isName isName,
      spelledConstants_of_kind opens, Expr.constantsOption, inner.constants,
      spelledConstants_of_kind closes]

theorem Qualifier.constants {tokens : List Token} {expr : Option Expr} :
    Qualifier tokens expr → Expr.constantsOption expr = spelledConstants tokens
  | .none => rfl
  | .dotted inner selects => by
    simp [Expr.constantsOption, inner.constants, spelledConstants_of_kind selects]

theorem Arguments.constants {tokens : List Token} {exprs : List Expr} :
    Arguments tokens exprs → Expr.constantsList exprs = spelledConstants tokens
  | .none => rfl
  | .one only => by simp [Expr.constantsList, only.constants]
  | .more first separates others => by
    rw [Expr.constantsList, first.constants, others.constants, spelledConstants_append,
      spelledConstants_of_kind separates]

end

theorem Clause.constants {tokens : List Token} {expr : Option Expr} (clause : Clause tokens expr) :
    Expr.constantsOption expr = spelledConstants tokens := by
  cases clause with
  | missing => rfl
  | present inner => exact inner.constants

section
variable {choice : Choice}

mutual

theorem Statement.constants {tokens : List Token} {stmt : Stmt} :
    Statement choice tokens stmt → stmt.constants = spelledConstants tokens
  | .block opens inner closes => by
    simp [Stmt.constants, spelledConstants_of_kind opens, inner.constants,
      spelledConstants_of_kind closes]
  | .decl typed isName assigns inner closes => by
    simp [Stmt.constants, typed.constants, spelledConstants_of_isName isName,
      spelledConstants_of_kind assigns, inner.constants, spelledConstants_of_kind closes]
  | .branch tests opens test closes first => by
    simp [Stmt.constants, spelledConstants_of_isWord tests, spelledConstants_of_kind opens,
      test.constants, spelledConstants_of_kind closes, first.constants, Stmt.constantsOption]
  | .branchElse tests opens test closes first _ otherwise second => by
    simp [Stmt.constants, spelledConstants_of_isWord tests, spelledConstants_of_kind opens,
      test.constants, spelledConstants_of_kind closes, first.constants, Stmt.constantsOption,
      spelledConstants_of_isWord otherwise, second.constants]
  | .whileLoop loops opens test closes inner => by
    simp [Stmt.constants, spelledConstants_of_isWord loops, spelledConstants_of_kind opens,
      test.constants, spelledConstants_of_kind closes, inner.constants]
  | .forLoop loops opens before stops test stopsAgain after closes inner => by
    simp [Stmt.constants, spelledConstants_of_isWord loops, spelledConstants_of_kind opens,
      before.constants, spelledConstants_of_kind stops, test.constants,
      spelledConstants_of_kind stopsAgain, after.constants, spelledConstants_of_kind closes,
      inner.constants]
  | .giveBack returns given closes => by
    simp [Stmt.constants, spelledConstants_of_isWord returns, given.constants,
      spelledConstants_of_kind closes]
  | .leave breaks closes => by
    simp [Stmt.constants, spelledConstants_of_isWord breaks, spelledConstants_of_kind closes]
  | .effect _ inner closes => by
    simp [Stmt.constants, inner.constants, spelledConstants_of_kind closes]

theorem Statements.constants {tokens : List Token} {stmts : List Stmt} :
    Statements choice tokens stmts → Stmt.constantsList stmts = spelledConstants tokens
  | .nil => rfl
  | .cons first others => by
    rw [Stmt.constantsList, first.constants, others.constants, spelledConstants_append]

end

theorem Formals.constants {tokens : List Token} {formals : List Formal}
    (taken : Formals tokens formals) : spelledConstants tokens = [] := by
  induction taken with
  | none => rfl
  | one typed isName => simp [typed.constants, spelledConstants_of_isName isName]
  | more typed isName separates _ ih =>
    simp [typed.constants, spelledConstants_of_isName isName, spelledConstants_of_kind separates,
      ih]

theorem Member.constants {tokens : List Token} {member : Bantam.Member}
    (derived : Member choice tokens member) : member.constants = spelledConstants tokens := by
  cases derived with
  | field typed isName closes =>
    simp [Bantam.Member.constants, Expr.constantsOption, typed.constants,
      spelledConstants_of_isName isName, spelledConstants_of_kind closes]
  | initialized typed isName assigns inner closes =>
    simp [Bantam.Member.constants, Expr.constantsOption, typed.constants,
      spelledConstants_of_isName isName, spelledConstants_of_kind assigns, inner.constants,
      spelledConstants_of_kind closes]
  | method typed isName opens taken closes begins inner ends =>
    simp [Bantam.Member.constants, typed.constants, spelledConstants_of_isName isName,
      spelledConstants_of_kind opens, taken.constants, spelledConstants_of_kind closes,
      spelledConstants_of_kind begins, inner.constants, spelledConstants_of_kind ends]

theorem Members.constants {tokens : List Token} {members : List Bantam.Member}
    (derived : Members choice tokens members) :
    members.flatMap Bantam.Member.constants = spelledConstants tokens := by
  induction derived with
  | nil => rfl
  | cons first _ ih =>
    rw [List.flatMap_cons, first.constants, ih, spelledConstants_append]

theorem Parent.constants {tokens : List Token} {parent : Option String}
    (inherits : Parent tokens parent) : spelledConstants tokens = [] := by
  cases inherits with
  | none => rfl
  | named inherits isName =>
    rw [spelledConstants_of_isWord inherits, spelledConstants_of_isName isName,
      spelledConstants_nil]

theorem Class.constants {file : String} {tokens : List Token} {decl : ClassDecl}
    (derived : Class choice file tokens decl) : decl.constants = spelledConstants tokens := by
  cases derived with
  | mk declares isName inherits opens inner closes =>
    simp [ClassDecl.constants, spelledConstants_of_isWord declares,
      spelledConstants_of_isName isName, inherits.constants, spelledConstants_of_kind opens,
      inner.constants, spelledConstants_of_kind closes]

theorem Classes.constants {file : String} {tokens : List Token} {classes : List ClassDecl}
    (derived : Classes choice file tokens classes) :
    classes.flatMap ClassDecl.constants = spelledConstants tokens := by
  induction derived with
  | nil => rfl
  | cons first _ ih =>
    rw [List.flatMap_cons, first.constants, ih, spelledConstants_append]

end

end Grammar

/-- A program that is read has the constants that the tokens of its text spell. -/
theorem constants_of_parse {file source : String} {program : Program}
    (read : (parse file source).1 = .ok program) :
    program.constants = spelledConstants (scan source) := by
  have derived := readClasses_sound (parse_eq_ok_iff.mp read)
  rw [Program.constants, derived.constants, spelledConstants, Grammar.meaningful,
    List.filterMap_filter]
  apply List.filterMap_congr
  intro token _
  -- Comments and the end of input spell nothing.
  unfold Constant.ofToken?
  cases token.kind <;> rfl

end Bantam
