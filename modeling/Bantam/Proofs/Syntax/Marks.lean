import Bantam.Program

/-! What trees carry beside their shape. The spans of all parts of a program, and the information of
its expressions, can be exchanged without any change of what the program says. -/
namespace Bantam

/-- What becomes of spans and of the information of expressions. -/
structure Marking where
  span : Span → Span
  info : Info → Info

namespace Expr

mutual

/-- The same expression with other information. -/
def mark (marking : Marking) : Expr → Expr
  | int info value => int (marking.info info) value
  | bool info value => bool (marking.info info) value
  | string info text => string (marking.info info) text
  | var info qualifier name index =>
    var (marking.info info) (markOption marking qualifier) name (markOption marking index)
  | assign info qualifier name index value =>
    assign (marking.info info) (markOption marking qualifier) name (markOption marking index)
      (mark marking value)
  | call info receiver method arguments =>
    call (marking.info info) (markOption marking receiver) method (markList marking arguments)
  | new info className => new (marking.info info) className
  | newArray info element size => newArray (marking.info info) element (mark marking size)
  | instanceOf info operand type => instanceOf (marking.info info) (mark marking operand) type
  | cast info type operand => cast (marking.info info) type (mark marking operand)
  | binary info op left right =>
    binary (marking.info info) op (mark marking left) (mark marking right)
  | unary info op operand => unary (marking.info info) op (mark marking operand)

def markOption (marking : Marking) : Option Expr → Option Expr
  | none => none
  | some expr => some (mark marking expr)

def markList (marking : Marking) : List Expr → List Expr
  | [] => []
  | expr :: rest => mark marking expr :: markList marking rest

end

variable {marking : Marking}

@[simp] theorem info_mark (expr : Expr) : (expr.mark marking).info = marking.info expr.info := by
  cases expr <;> rfl

@[simp] theorem isVar_mark (expr : Expr) : (expr.mark marking).isVar = expr.isVar := by
  cases expr <;> rfl

@[simp] theorem bareName?_mark (expr : Expr) : (expr.mark marking).bareName? = expr.bareName? := by
  cases expr with
  | var info qualifier name index => cases qualifier <;> cases index <;> rfl
  | _ => rfl

theorem withInfo_mark (info : Info) (expr : Expr) :
    (expr.mark marking).withInfo (marking.info info) = (expr.withInfo info).mark marking := by
  cases expr <;> rfl

@[simp] theorem isSome_markOption (expr : Option Expr) :
    (markOption marking expr).isSome = expr.isSome := by
  cases expr <;> rfl

@[simp] theorem length_markList (exprs : List Expr) :
    (markList marking exprs).length = exprs.length := by
  induction exprs with
  | nil => rfl
  | cons expr rest ih => exact congrArg (· + 1) ih

end Expr

namespace Stmt

mutual

/-- The same statement with other spans, and with other information of its expressions. -/
def mark (marking : Marking) : Stmt → Stmt
  | expr span value => expr (marking.span span) (value.mark marking)
  | decl span type name init => decl (marking.span span) type name (init.mark marking)
  | block span body => block (marking.span span) (markList marking body)
  | branch span condition thenBranch elseBranch =>
    branch (marking.span span) (condition.mark marking) (mark marking thenBranch)
      (markOption marking elseBranch)
  | whileLoop span condition body =>
    whileLoop (marking.span span) (condition.mark marking) (mark marking body)
  | forLoop span init condition update body =>
    forLoop (marking.span span) (Expr.markOption marking init)
      (Expr.markOption marking condition) (Expr.markOption marking update) (mark marking body)
  | leave span => leave (marking.span span)
  | giveBack span value => giveBack (marking.span span) (Expr.markOption marking value)

def markOption (marking : Marking) : Option Stmt → Option Stmt
  | none => none
  | some stmt => some (mark marking stmt)

def markList (marking : Marking) : List Stmt → List Stmt
  | [] => []
  | stmt :: rest => mark marking stmt :: markList marking rest

end

@[simp] theorem span_mark {marking : Marking} (stmt : Stmt) :
    (stmt.mark marking).span = marking.span stmt.span := by
  cases stmt <;> rfl

end Stmt

section Declarations
variable (marking : Marking)

def Field.mark (field : Field) : Field :=
  { field with init := Expr.markOption marking field.init, span := marking.span field.span }

def Formal.mark (formal : Formal) : Formal := { formal with span := marking.span formal.span }

def Method.mark (method : Method) : Method :=
  { method with
    formals := method.formals.map (Formal.mark marking)
    body := Stmt.markList marking method.body
    span := marking.span method.span }

def Member.mark : Member → Member
  | field f => field (f.mark marking)
  | method m => method (m.mark marking)

def ClassDecl.mark (decl : ClassDecl) : ClassDecl :=
  { decl with
    members := decl.members.map (Member.mark marking)
    span := marking.span decl.span }

/-- The same program with other spans, and with other information of its expressions. -/
def Program.mark (program : Program) : Program := ⟨program.classes.map (ClassDecl.mark marking)⟩

end Declarations

-- Nothing changes where all spans and all information stay.
def Marking.same : Marking := ⟨id, id⟩

namespace Expr

mutual

theorem mark_same : ∀ expr : Expr, expr.mark .same = expr
  | int .. | bool .. | string .. | new .. => rfl
  | var _ qualifier _ index => by
    rw [mark, markOption_same qualifier, markOption_same index]
    rfl
  | assign _ qualifier _ index value => by
    rw [mark, markOption_same qualifier, markOption_same index, mark_same value]
    rfl
  | call _ receiver _ arguments => by
    rw [mark, markOption_same receiver, markList_same arguments]
    rfl
  | newArray _ _ operand | instanceOf _ operand _ | cast _ _ operand | unary _ _ operand => by
    rw [mark, mark_same operand]
    rfl
  | binary _ _ left right => by
    rw [mark, mark_same left, mark_same right]
    rfl

theorem markOption_same : ∀ expr : Option Expr, markOption .same expr = expr
  | none => rfl
  | some expr => congrArg some (mark_same expr)

theorem markList_same : ∀ exprs : List Expr, markList .same exprs = exprs
  | [] => rfl
  | expr :: rest => by rw [markList, mark_same expr, markList_same rest]

end

end Expr

namespace Stmt

mutual

theorem mark_same : ∀ stmt : Stmt, stmt.mark .same = stmt
  | expr .. | decl .. => by
    rw [mark, Expr.mark_same]
    rfl
  | block _ body => by
    rw [mark, markList_same body]
    rfl
  | branch _ _ thenBranch elseBranch => by
    rw [mark, Expr.mark_same, mark_same thenBranch, markOption_same elseBranch]
    rfl
  | whileLoop _ _ body => by
    rw [mark, Expr.mark_same, mark_same body]
    rfl
  | forLoop _ _ _ _ body => by
    simp only [mark, Expr.markOption_same, mark_same body]
    rfl
  | leave .. => rfl
  | giveBack .. => by
    rw [mark, Expr.markOption_same]
    rfl

theorem markOption_same : ∀ stmt : Option Stmt, markOption .same stmt = stmt
  | none => rfl
  | some stmt => congrArg some (mark_same stmt)

theorem markList_same : ∀ stmts : List Stmt, markList .same stmts = stmts
  | [] => rfl
  | stmt :: rest => by rw [markList, mark_same stmt, markList_same rest]

end

end Stmt

theorem Member.mark_same (member : Member) : member.mark .same = member := by
  cases member with
  | field field =>
    rw [mark, Field.mark, Expr.markOption_same]
    rfl
  | method method =>
    have formals : method.formals.map (Formal.mark .same) = method.formals := List.map_id' _
    rw [mark, Method.mark, Stmt.markList_same, formals]
    rfl

theorem ClassDecl.mark_same (decl : ClassDecl) : decl.mark .same = decl := by
  have members : decl.members.map (Member.mark .same) = decl.members :=
    (List.map_congr_left fun member _ => member.mark_same).trans (List.map_id' _)
  rw [mark, members]
  rfl

end Bantam
