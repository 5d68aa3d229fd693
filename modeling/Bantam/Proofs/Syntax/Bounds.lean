import Bantam.Proofs.Syntax.Marks
import Bantam.Proofs.Syntax.ProgramLocated

/-! Bounds on trees. Something may be known of all spans of a tree, and of all words: the names that
it declares or uses, those of types included. A tree that is read from tokens is within whatever
bounds hold for the stretches and the names of these tokens. -/
namespace Bantam

/-- What the spans and the words of a tree are held to. -/
structure Bounds where
  place : Span → Prop
  word : String → Prop

/-- The name in the type is such a word. -/
def Ty.Within (word : String → Prop) : Ty → Prop
  | named name => word name
  | array element => element.Within word

namespace Expr

mutual

def Within (bounds : Bounds) : Expr → Prop
  | int info _ | bool info _ | string info _ => bounds.place info.span
  | var info qualifier name index =>
    bounds.place info.span ∧ WithinOption bounds qualifier ∧ bounds.word name ∧
      WithinOption bounds index
  | assign info qualifier name index value =>
    bounds.place info.span ∧ WithinOption bounds qualifier ∧ bounds.word name ∧
      WithinOption bounds index ∧ Within bounds value
  | call info receiver method arguments =>
    bounds.place info.span ∧ WithinOption bounds receiver ∧ bounds.word method ∧
      WithinList bounds arguments
  | new info className => bounds.place info.span ∧ bounds.word className
  | newArray info element size =>
    bounds.place info.span ∧ bounds.word element ∧ Within bounds size
  | instanceOf info operand type | cast info type operand =>
    bounds.place info.span ∧ type.Within bounds.word ∧ Within bounds operand
  | binary info _ left right => bounds.place info.span ∧ Within bounds left ∧ Within bounds right
  | unary info _ operand => bounds.place info.span ∧ Within bounds operand

def WithinOption (bounds : Bounds) : Option Expr → Prop
  | none => True
  | some expr => Within bounds expr

def WithinList (bounds : Bounds) : List Expr → Prop
  | [] => True
  | expr :: rest => Within bounds expr ∧ WithinList bounds rest

end

end Expr

namespace Stmt

mutual

def Within (bounds : Bounds) : Stmt → Prop
  | expr span value => bounds.place span ∧ value.Within bounds
  | decl span type name init =>
    bounds.place span ∧ type.Within bounds.word ∧ bounds.word name ∧ init.Within bounds
  | block span body => bounds.place span ∧ WithinList bounds body
  | branch span condition thenBranch elseBranch =>
    bounds.place span ∧ condition.Within bounds ∧ Within bounds thenBranch ∧
      WithinOption bounds elseBranch
  | whileLoop span condition body =>
    bounds.place span ∧ condition.Within bounds ∧ Within bounds body
  | forLoop span init condition update body =>
    bounds.place span ∧ Expr.WithinOption bounds init ∧ Expr.WithinOption bounds condition ∧
      Expr.WithinOption bounds update ∧ Within bounds body
  | leave span => bounds.place span
  | giveBack span value => bounds.place span ∧ Expr.WithinOption bounds value

def WithinOption (bounds : Bounds) : Option Stmt → Prop
  | none => True
  | some stmt => Within bounds stmt

def WithinList (bounds : Bounds) : List Stmt → Prop
  | [] => True
  | stmt :: rest => Within bounds stmt ∧ WithinList bounds rest

end

end Stmt

structure Formal.Within (bounds : Bounds) (formal : Formal) : Prop where
  place : bounds.place formal.span
  type : formal.type.Within bounds.word
  word : bounds.word formal.name

def Member.Within (bounds : Bounds) : Member → Prop
  | field f => bounds.place f.span ∧ f.type.Within bounds.word ∧ bounds.word f.name ∧
    Expr.WithinOption bounds f.init
  | method m => bounds.place m.span ∧ m.returns.Within bounds.word ∧ bounds.word m.name ∧
    (∀ formal ∈ m.formals, formal.Within bounds) ∧ Stmt.WithinList bounds m.body

structure ClassDecl.Within (bounds : Bounds) (decl : ClassDecl) : Prop where
  place : bounds.place decl.span
  word : bounds.word decl.name
  parent : ∀ parent ∈ decl.parent, bounds.word parent
  members : ∀ member ∈ decl.members, member.Within bounds

variable {bounds : Bounds}

theorem Expr.Within.place {expr : Expr} (within : expr.Within bounds) : bounds.place expr.span := by
  cases expr with
  | int | bool | string => exact within
  | _ => exact within.1

theorem Expr.span_withInfo (expr : Expr) (info : Info) : (expr.withInfo info).span = info.span := by
  cases expr <;> rfl

theorem Expr.Within.withInfo {expr : Expr} {info : Info} (within : expr.Within bounds)
    (place : bounds.place info.span) : (expr.withInfo info).Within bounds := by
  cases expr with
  | int | bool | string => exact place
  | _ => exact ⟨place, within.2⟩

namespace Grammar.Located

/-- Whatever stands among the tokens is within the bounds. -/
structure Admits (bounds : Bounds) (tokens : List Token) : Prop where
  place : ∀ piece last span, piece.Sublist tokens → RunsTo piece last span → bounds.place span
  word : ∀ token ∈ tokens, token.isName → bounds.word token.spelling

namespace Admits
variable {front back : List Token} {token : Token}

theorem sublist (admits : Admits bounds back) (within : front.Sublist back) : Admits bounds front :=
  ⟨fun piece last span inside => admits.place piece last span (inside.trans within),
    fun token member => admits.word token (within.subset member)⟩

theorem left (admits : Admits bounds (front ++ back)) : Admits bounds front :=
  admits.sublist (List.sublist_append_left ..)

theorem right (admits : Admits bounds (front ++ back)) : Admits bounds back :=
  admits.sublist (List.sublist_append_right ..)

theorem tail (admits : Admits bounds (token :: back)) : Admits bounds back :=
  admits.sublist (List.sublist_cons_self ..)

theorem typeName {tokens : List Token} {type : Ty} (admits : Admits bounds tokens)
    (named : TypeName tokens type) : type.Within bounds.word := by
  cases named with
  | named isName => exact admits.word _ List.mem_cons_self isName
  | array isName => exact admits.word _ List.mem_cons_self isName

theorem spans {tokens : List Token} {span : Span} (admits : Admits bounds tokens)
    (spans : Spans tokens span) : bounds.place span := by
  obtain ⟨first, last, starts, ends, same⟩ := spans
  exact admits.place tokens last span (.refl _)
    (Spans.runsTo ⟨first, last, starts, ends, same⟩ ends)

end Admits

mutual

theorem Expression.within {tokens : List Token} {last : Token} {expr : Expr}
    (admits : Admits bounds tokens) : Expression tokens last expr → expr.Within bounds
  | .mk runs shape => shape.within admits (admits.place _ _ _ (.refl _) runs)

theorem Shape.within {tokens : List Token} {last : Token} {expr : Expr}
    (admits : Admits bounds tokens) :
    Shape tokens last expr → bounds.place expr.span → expr.Within bounds
  | .assign left _ right, place => by
    have target := left.within admits.left
    exact ⟨place, target.2.1, target.2.2.1, target.2.2.2, right.within admits.right.tail⟩
  | .binary _ left right, place => ⟨place, left.within admits.left, right.within admits.right.tail⟩
  | .instanceOf tested _ named, place =>
    ⟨place, admits.right.tail.typeName named, tested.within admits.left⟩
  | .unary _ inner, place => ⟨place, inner.within admits.tail⟩
  | .new _ isName _ _, place => ⟨place, admits.tail.word _ List.mem_cons_self isName⟩
  | .newArray _ isName _ inner _, place =>
    ⟨place, admits.tail.word _ List.mem_cons_self isName, inner.within admits.tail.tail.tail.left⟩
  | .cast _ _ named _ inner _, place =>
    ⟨place, admits.tail.tail.left.typeName named, inner.within admits.tail.tail.right.tail.left⟩
  | .step inner _, place => ⟨place, inner.within admits.left⟩
  | .group _ inner _, place => by
    rw [Expr.span_withInfo] at place
    exact (inner.within admits.tail.left).withInfo place
  | .int _, place | .bool _, place | .string _, place => place
  | .call qualified isName _ given _, place =>
    ⟨place, qualified.within admits.left, admits.right.word _ List.mem_cons_self isName,
      given.within admits.right.tail.tail.left⟩
  | .var qualified isName, place =>
    ⟨place, qualified.within admits.left, admits.right.word _ List.mem_cons_self isName, trivial⟩
  | .indexed qualified isName _ inner _, place =>
    ⟨place, qualified.within admits.left, admits.right.word _ List.mem_cons_self isName,
      inner.within admits.right.tail.tail.left⟩

theorem Qualifier.within {tokens : List Token} {expr : Option Expr}
    (admits : Admits bounds tokens) : Qualifier tokens expr → Expr.WithinOption bounds expr
  | .none => trivial
  | .dotted inner _ => inner.within admits.left

theorem Arguments.within {tokens : List Token} {exprs : List Expr}
    (admits : Admits bounds tokens) : Arguments tokens exprs → Expr.WithinList bounds exprs
  | .none => trivial
  | .one only => ⟨only.within admits, trivial⟩
  | .more first _ others => ⟨first.within admits.left, others.within admits.right.tail⟩

end

theorem Clause.within {tokens : List Token} {expr : Option Expr} (admits : Admits bounds tokens) :
    Clause tokens expr → Expr.WithinOption bounds expr
  | .missing => trivial
  | .present inner => inner.within admits

mutual

theorem Statement.within {tokens : List Token} {stmt : Stmt} (admits : Admits bounds tokens) :
    Statement tokens stmt → stmt.Within bounds
  | .mk spans form => form.within admits (admits.spans spans)

theorem Form.within {tokens : List Token} {stmt : Stmt} (admits : Admits bounds tokens)
    (place : bounds.place stmt.span) : Form tokens stmt → stmt.Within bounds
  | .block _ inner _ => ⟨place, inner.within admits.tail.left⟩
  | .decl typed isName _ inner _ =>
    ⟨place, admits.left.typeName typed, admits.right.word _ List.mem_cons_self isName,
      inner.within admits.right.tail.tail.left⟩
  | .branch _ _ test _ first =>
    ⟨place, test.within admits.tail.tail.left, first.within admits.tail.tail.right.tail, trivial⟩
  | .branchElse _ _ test _ first _ second =>
    ⟨place, test.within admits.tail.tail.left, first.within admits.tail.tail.right.tail.left,
      second.within admits.tail.tail.right.tail.right.tail⟩
  | .whileLoop _ _ test _ inner =>
    ⟨place, test.within admits.tail.tail.left, inner.within admits.tail.tail.right.tail⟩
  | .forLoop _ _ before _ test _ after _ inner =>
    ⟨place, before.within admits.tail.tail.left, test.within admits.tail.tail.right.tail.left,
      after.within admits.tail.tail.right.tail.right.tail.left,
      inner.within admits.tail.tail.right.tail.right.tail.right.tail⟩
  | .giveBack _ given _ => ⟨place, given.within admits.tail.left⟩
  | .leave _ _ => place
  | .effect inner _ => ⟨place, inner.within admits.left⟩

theorem Statements.within {tokens : List Token} {stmts : List Stmt}
    (admits : Admits bounds tokens) : Statements tokens stmts → Stmt.WithinList bounds stmts
  | .nil => trivial
  | .cons first others => ⟨first.within admits.left, others.within admits.right⟩

end

theorem Formal.within {tokens : List Token} {formal : Bantam.Formal} (admits : Admits bounds tokens)
    (placed : Formal tokens formal) : formal.Within bounds := by
  cases placed with
  | mk spans typed isName =>
    exact ⟨admits.spans spans, admits.left.typeName typed,
      admits.right.word _ List.mem_cons_self isName⟩

theorem Formals.within {tokens : List Token} {formals : List Bantam.Formal}
    (placed : Formals tokens formals) (admits : Admits bounds tokens) :
    ∀ formal ∈ formals, formal.Within bounds := by
  induction placed with
  | none => exact List.forall_mem_nil _
  | one only => exact List.forall_mem_singleton.mpr (only.within admits)
  | more first _ _ ih =>
    exact List.forall_mem_cons.mpr ⟨first.within admits.left, ih admits.right.tail⟩

theorem Member.within {tokens : List Token} {member : Bantam.Member} (admits : Admits bounds tokens)
    (placed : Member tokens member) : member.Within bounds := by
  obtain ⟨spans, composition⟩ := placed
  have place := admits.spans spans
  cases composition with
  | field typed isName =>
    exact ⟨place, admits.left.typeName typed, admits.right.word _ List.mem_cons_self isName,
      trivial⟩
  | initialized typed isName _ inner =>
    exact ⟨place, admits.left.typeName typed, admits.right.word _ List.mem_cons_self isName,
      inner.within admits.right.tail.tail.left⟩
  | method typed isName _ taken _ _ inner =>
    exact ⟨place, admits.left.typeName typed, admits.right.word _ List.mem_cons_self isName,
      taken.within admits.right.tail.tail.left,
      inner.within admits.right.tail.tail.right.tail.tail.left⟩

theorem Members.within {tokens : List Token} {members : List Bantam.Member}
    (placed : Members tokens members) (admits : Admits bounds tokens) :
    ∀ member ∈ members, member.Within bounds := by
  induction placed with
  | nil => exact List.forall_mem_nil _
  | cons first _ ih =>
    exact List.forall_mem_cons.mpr ⟨first.within admits.left, ih admits.right⟩

theorem Class.within {file : String} {tokens : List Token} {decl : ClassDecl}
    (admits : Admits bounds tokens) (placed : Class file tokens decl) :
    decl.file = file ∧ decl.Within bounds := by
  cases placed with
  | mk spans _ isName inherits _ inner =>
    refine ⟨rfl, admits.spans spans, admits.tail.word _ List.mem_cons_self isName, ?_,
      inner.within admits.tail.tail.right.tail.left⟩
    cases inherits with
    | none => simp
    | named _ isParent =>
      rintro _ ⟨⟩
      exact admits.tail.tail.left.tail.word _ List.mem_cons_self isParent

theorem Classes.within {file : String} {tokens : List Token} {decls : List ClassDecl}
    (placed : Classes file tokens decls) (admits : Admits bounds tokens) :
    ∀ decl ∈ decls, decl.file = file ∧ decl.Within bounds := by
  induction placed with
  | nil => exact List.forall_mem_nil _
  | cons first _ ih =>
    exact List.forall_mem_cons.mpr ⟨first.within admits.left, ih admits.right⟩

end Grammar.Located

end Bantam
