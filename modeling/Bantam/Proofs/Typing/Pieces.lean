import Bantam.Proofs.Typing.ValidMembers

/-! The pieces of programs: fields, statements and expressions, wherever they stand. In a valid
program every piece has a derivation in its place, and it is found again, with its types, in the
typed program. -/
namespace Bantam
open Typing

namespace Stmt

def parts : Stmt → List Stmt
  | expr .. | decl .. | leave _ | giveBack .. => []
  | block _ body => body
  | branch _ _ thenBranch elseBranch => thenBranch :: elseBranch.toList
  | whileLoop _ _ body | forLoop _ _ _ _ body => [body]

def exprs : Stmt → List Expr
  | block .. | leave _ => []
  | expr _ value | decl _ _ _ value => [value]
  | branch _ condition _ _ | whileLoop _ condition _ => [condition]
  | forLoop _ init condition update _ => init.toList ++ condition.toList ++ update.toList
  | giveBack _ value => value.toList

end Stmt

inductive Piece where
  | field (field : Field)
  | stmt (stmt : Stmt)
  | expr (expr : Expr)

def Piece.exprs : Piece → List Expr
  | field declared => declared.init.toList
  | stmt inner => inner.exprs
  | expr inner => inner.parts

/-- The piece stands somewhere in the program. -/
inductive Program.Contains (program : Program) : Piece → Prop
  | field {decl : ClassDecl} {field : Field} (declared : decl ∈ program.classes)
      (member : field ∈ decl.fields) : Contains program (.field field)
  | body {decl : ClassDecl} {method : Method} {stmt : Stmt} (declared : decl ∈ program.classes)
      (member : method ∈ decl.methods) (inBody : stmt ∈ method.body) : Contains program (.stmt stmt)
  | stmt {outer inner : Stmt} (within : Contains program (.stmt outer))
      (part : inner ∈ outer.parts) : Contains program (.stmt inner)
  | expr {outer : Piece} {expr : Expr} (within : Contains program outer)
      (part : expr ∈ outer.exprs) : Contains program (.expr expr)

namespace Typing

/-- The place is in the hierarchy, and its variables have types that values can have. -/
structure Env.Proper (env : Env) (hierarchy : Hierarchy) : Prop where
  hierarchy : env.hierarchy = hierarchy
  locals : ∀ name type, env.locals name = some type → env.IsValueType type

section Places
variable {env behind : Env} {hierarchy : Hierarchy}

theorem Env.Proper.inBody (proper : env.Proper hierarchy) : env.inBody.Proper hierarchy :=
  ⟨proper.hierarchy, proper.locals⟩

theorem Env.Proper.declare {name : String} {type : Ty} (proper : env.Proper hierarchy)
    (isType : env.IsValueType type) : (env.declare name type).Proper hierarchy := by
  refine ⟨proper.hierarchy, fun other found bound => ?_⟩
  rw [Env.declare] at bound
  dsimp only at bound
  split at bound
  · cases bound
    exact isType
  · exact proper.locals other found bound

theorem Env.proper_ofClass (id : ClassId) : (Env.ofClass hierarchy id).Proper hierarchy :=
  ⟨rfl, fun _ _ bound => nomatch bound⟩

theorem Env.proper_ofMethod {id : ClassId} {method : Method}
    (formals : ∀ formal ∈ method.formals,
      (Env.ofMethod hierarchy id method).IsValueType formal.type) :
    (Env.ofMethod hierarchy id method).Proper hierarchy := by
  refine ⟨rfl, fun name type bound => ?_⟩
  obtain ⟨formal, found, rfl⟩ := Option.map_eq_some_iff.mp bound
  exact formals formal (List.mem_of_find?_eq_some found)

theorem Checked.proper {stmt stmt' : Stmt} (checked : Checked env stmt stmt' behind)
    (proper : env.Proper hierarchy) : behind.Proper hierarchy := by
  cases checked with
  | decl isType => exact proper.declare isType
  | _ => exact proper

end Places

section Expressions
variable {env : Env}

def HasType (env : Env) (expr expr' : Expr) : Prop := ∃ type, Typed env expr type expr'

theorem Selected.parts {writing indexed : Bool} {qualifier qualifier' : Option Expr} {name : String}
    {type : Ty} (selected : Selected env writing indexed qualifier name type qualifier') :
    List.Forall₂ (HasType env) qualifier.toList qualifier'.toList := by
  cases selected with
  | special => exact .nil
  | plain => exact .nil
  | field before => exact .cons ⟨_, before⟩ .nil
  | length before => exact .cons ⟨_, before⟩ .nil

theorem Named.parts {writing : Bool} {qualifier index qualifier' index' : Option Expr}
    {name : String} {type : Ty}
    (named : Named env writing qualifier name index type qualifier' index') :
    List.Forall₂ (HasType env) (qualifier.toList ++ index.toList)
      (qualifier'.toList ++ index'.toList) := by
  cases named with
  | whole selected => exact List.rel_append selected.parts .nil
  | element selected position => exact List.rel_append selected.parts (.cons ⟨_, position⟩ .nil)

theorem Receiver.parts {receiver receiver' : Option Expr} {owner : ClassId}
    (called : Receiver env receiver owner receiver') :
    List.Forall₂ (HasType env) receiver.toList receiver'.toList := by
  cases called with
  | own => exact .nil
  | object given => exact .cons ⟨_, given⟩ .nil

theorem Arguments.parts {types : List Ty} {arguments arguments' : List Expr} :
    Arguments env types arguments arguments' → List.Forall₂ (HasType env) arguments arguments'
  | .nil => .nil
  | .cons given _ others => .cons ⟨_, given⟩ others.parts

theorem Typed.parts {expr expr' : Expr} {type : Ty} (typed : Typed env expr type expr') :
    List.Forall₂ (HasType env) expr.parts expr'.parts := by
  cases typed with
  | int | bool | string | new => exact .nil
  | var named => exact named.parts
  | assign target given => exact List.rel_append target.parts (.cons ⟨_, given⟩ .nil)
  | call called found given => exact List.rel_append called.parts given.parts
  | newArray inner | instanceOf inner | cast inner | neg inner | not inner =>
    exact .cons ⟨_, inner⟩ .nil
  | step _ _ inner => exact .cons ⟨_, inner⟩ .nil
  | arithmetic _ first second | relational _ first second | logical _ first second
  | equality _ first second => exact .cons ⟨_, first⟩ (.cons ⟨_, second⟩ .nil)

theorem Typed.type? {expr expr' : Expr} {type : Ty} (typed : Typed env expr type expr') :
    expr'.type? = some type := by
  cases typed <;> rfl

theorem Optional.parts {type : Ty} {expr expr' : Option Expr} (typed : Optional env type expr expr') :
    List.Forall₂ (HasType env) expr.toList expr'.toList := by
  cases typed with
  | missing => exact .nil
  | present typed => exact .cons ⟨_, typed⟩ .nil

end Expressions

section Statements
variable {env behind : Env} {hierarchy : Hierarchy}

def Holds (hierarchy : Hierarchy) (stmt stmt' : Stmt) : Prop :=
  ∃ env behind, env.Proper hierarchy ∧ Checked env stmt stmt' behind

theorem CheckedAll.parts {stmts stmts' : List Stmt} :
    ∀ {env : Env}, env.Proper hierarchy → CheckedAll env stmts stmts' →
      List.Forall₂ (Holds hierarchy) stmts stmts'
  | _, _, .nil => .nil
  | _, proper, .cons first others =>
    .cons ⟨_, _, proper, first⟩ (others.parts (first.proper proper))

theorem Checked.parts {stmt stmt' : Stmt} (checked : Checked env stmt stmt' behind)
    (proper : env.Proper hierarchy) : List.Forall₂ (Holds hierarchy) stmt.parts stmt'.parts := by
  cases checked with
  | expr | decl | leave | giveNothing | giveBack => exact .nil
  | block inner => exact inner.parts proper
  | branch _ first => exact .cons ⟨_, _, proper, first⟩ .nil
  | branchElse _ first second =>
    exact .cons ⟨_, _, proper, first⟩ (.cons ⟨_, _, proper, second⟩ .nil)
  | whileLoop _ inner => exact .cons ⟨_, _, proper.inBody, inner⟩ .nil
  | forLoop _ _ _ inner => exact .cons ⟨_, _, proper.inBody, inner⟩ .nil

theorem Checked.exprs {stmt stmt' : Stmt} (checked : Checked env stmt stmt' behind) :
    List.Forall₂ (HasType env) stmt.exprs stmt'.exprs := by
  cases checked with
  | block | leave | giveNothing => exact .nil
  | expr typed => exact .cons ⟨_, typed⟩ .nil
  | decl _ typed => exact .cons ⟨_, typed⟩ .nil
  | giveBack _ typed => exact .cons ⟨_, typed⟩ .nil
  | branch test => exact .cons ⟨_, test⟩ .nil
  | branchElse test => exact .cons ⟨_, test⟩ .nil
  | whileLoop test => exact .cons ⟨_, test⟩ .nil
  | forLoop before test after =>
    exact List.rel_append (List.rel_append before.parts test.parts) after.parts

end Statements

/-- The piece has a derivation in some place of the hierarchy, and is the second one with its
types. -/
inductive Derived (hierarchy : Hierarchy) : Piece → Piece → Prop
  | field {self : ClassId} {field field' : Field}
      (typed : MemberTyped hierarchy self (.field field) (.field field')) :
      Derived hierarchy (.field field) (.field field')
  | stmt {env behind : Env} {stmt stmt' : Stmt} (proper : env.Proper hierarchy)
      (checked : Checked env stmt stmt' behind) : Derived hierarchy (.stmt stmt) (.stmt stmt')
  | expr {env : Env} {expr expr' : Expr} {type : Ty} (proper : env.Proper hierarchy)
      (typed : Typed env expr type expr') : Derived hierarchy (.expr expr) (.expr expr')

section Pieces
variable {hierarchy : Hierarchy}

theorem derived_exprs {env : Env} {exprs exprs' : List Expr} (proper : env.Proper hierarchy)
    (typed : List.Forall₂ (HasType env) exprs exprs') :
    List.Forall₂ (fun expr expr' => Derived hierarchy (.expr expr) (.expr expr')) exprs exprs' :=
  typed.imp fun _ _ ⟨_, typed⟩ => .expr proper typed

theorem Derived.exprs {piece piece' : Piece} (derived : Derived hierarchy piece piece') :
    List.Forall₂ (fun expr expr' => Derived hierarchy (.expr expr) (.expr expr')) piece.exprs
      piece'.exprs := by
  cases derived with
  | field typed =>
    cases typed with
    | field => exact .nil
    | initialized _ typed => exact .cons (.expr (Env.proper_ofClass _) typed) .nil
  | stmt proper checked => exact derived_exprs proper checked.exprs
  | expr proper typed => exact derived_exprs proper typed.parts

theorem Derived.stmts {stmt stmt' : Stmt} (derived : Derived hierarchy (.stmt stmt) (.stmt stmt')) :
    List.Forall₂ (fun part part' => Derived hierarchy (.stmt part) (.stmt part')) stmt.parts
      stmt'.parts := by
  cases derived with
  | stmt proper checked =>
    exact (checked.parts proper).imp fun _ _ ⟨_, _, proper, checked⟩ => .stmt proper checked

theorem ClassTyped.fields {decl decl' : ClassDecl} (typed : ClassTyped hierarchy decl decl') :
    List.Forall₂ (fun field field' => Derived hierarchy (.field field) (.field field')) decl.fields
      decl'.fields := by
  cases typed with
  | mk registered members =>
    refine List.rel_filterMap (fun member member' typed => ?_) members
    cases typed with
    | field isType => exact .some (.field (.field isType))
    | initialized isType typed fits => exact .some (.field (.initialized isType typed fits))
    | method => exact .none

theorem ClassTyped.bodies {decl decl' : ClassDecl} (typed : ClassTyped hierarchy decl decl') :
    List.Forall₂ (fun method method' =>
      List.Forall₂ (fun stmt stmt' => Derived hierarchy (.stmt stmt) (.stmt stmt')) method.body
        method'.body) decl.methods decl'.methods := by
  cases typed with
  | mk registered members =>
    refine List.rel_filterMap (fun member member' typed => ?_) members
    cases typed with
    | field => exact .none
    | initialized => exact .none
    | method returns overrides formals checked =>
      have proper := Env.proper_ofMethod formals
      exact .some ((checked.parts proper).imp fun _ _ ⟨_, _, proper, checked⟩ =>
        .stmt proper checked)

end Pieces

end Typing

namespace Program.Valid
variable {program typed : Program} (valid : program.Valid typed)
include valid

/-- Each piece of the typed program is one of the program with its types. -/
theorem derived_of_typed {piece' : Piece} (contained : typed.Contains piece') :
    ∃ piece, program.Contains piece ∧ Derived program.hierarchy piece piece' := by
  induction contained with
  | field declared member =>
    obtain ⟨decl, declared, isTyped⟩ := exists_of_mem_right valid.typed declared
    obtain ⟨field, member, derived⟩ := exists_of_mem_right isTyped.fields member
    exact ⟨_, .field declared member, derived⟩
  | body declared member inBody =>
    obtain ⟨decl, declared, isTyped⟩ := exists_of_mem_right valid.typed declared
    obtain ⟨method, member, body⟩ := exists_of_mem_right isTyped.bodies member
    obtain ⟨stmt, inBody, derived⟩ := exists_of_mem_right body inBody
    exact ⟨_, .body declared member inBody, derived⟩
  | stmt _ part ih =>
    obtain ⟨outer, within, derived⟩ := ih
    cases derived with
    | stmt proper checked =>
      obtain ⟨inner, part, derived⟩ := exists_of_mem_right (Derived.stmt proper checked).stmts part
      exact ⟨_, .stmt within part, derived⟩
  | expr _ part ih =>
    obtain ⟨outer, within, derived⟩ := ih
    obtain ⟨inner, part, derived⟩ := exists_of_mem_right derived.exprs part
    exact ⟨_, .expr within part, derived⟩

/-- Each piece of the program stands in the typed program with its types. -/
theorem derived_of_contains {piece : Piece} (contained : program.Contains piece) :
    ∃ piece', typed.Contains piece' ∧ Derived program.hierarchy piece piece' := by
  induction contained with
  | field declared member =>
    obtain ⟨decl', declared, isTyped⟩ := exists_of_mem_left valid.typed declared
    obtain ⟨field', member, derived⟩ := exists_of_mem_left isTyped.fields member
    exact ⟨_, .field declared member, derived⟩
  | body declared member inBody =>
    obtain ⟨decl', declared, isTyped⟩ := exists_of_mem_left valid.typed declared
    obtain ⟨method', member, body⟩ := exists_of_mem_left isTyped.bodies member
    obtain ⟨stmt', inBody, derived⟩ := exists_of_mem_left body inBody
    exact ⟨_, .body declared member inBody, derived⟩
  | stmt _ part ih =>
    obtain ⟨outer', within, derived⟩ := ih
    cases derived with
    | stmt proper checked =>
      obtain ⟨inner', part, derived⟩ := exists_of_mem_left (Derived.stmt proper checked).stmts part
      exact ⟨_, .stmt within part, derived⟩
  | expr _ part ih =>
    obtain ⟨outer', within, derived⟩ := ih
    obtain ⟨inner', part, derived⟩ := exists_of_mem_left derived.exprs part
    exact ⟨_, .expr within part, derived⟩

end Program.Valid

end Bantam
