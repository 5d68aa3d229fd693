import Bantam.Hierarchy.Members
import Mathlib.Logic.Relation
import Mathlib.Data.List.Forall2

/-! The typing rules as judgments. Each relates a piece of code to the same piece with the types of
its expressions. They know neither diagnostics nor types that stand in for missing ones: what is
wrong has no derivation. -/
namespace Bantam

def Info.withType (info : Info) (type : Ty) : Info := { info with type := some type }

namespace Typing

/-- What the rules know about the place of a piece of code. -/
structure Env where
  hierarchy : Hierarchy
  self : ClassId
  locals : String → Option Ty
  returns : Ty
  inLoop : Bool

namespace Env

def declare (env : Env) (name : String) (type : Ty) : Env :=
  { env with locals := fun other => if other = name then some type else env.locals other }

def inBody (env : Env) : Env := { env with inLoop := true }

def IsValueType (env : Env) (type : Ty) : Prop := type ≠ .void ∧ env.hierarchy.hasType type

def Fits (env : Env) (actual expected : Ty) : Prop := env.hierarchy.conforms actual expected

def Related (env : Env) (left right : Ty) : Prop := env.Fits left right ∨ env.Fits right left

end Env

/-- Names with a meaning of their own. They can be read only. -/
inductive Special (env : Env) : String → Ty → Prop
  | this : Special env "this" (.named (env.hierarchy.nameOf env.self))
  | super {parent : ClassId} (inherits : env.hierarchy.parentOf? env.self = some parent) :
      Special env "super" (.named (env.hierarchy.nameOf parent))
  | null : Special env "null" .null

def specialNames : List String := ["this", "super", "null"]

inductive Variable (env : Env) : String → Ty → Prop
  | inScope {name : String} {type : Ty} (ordinary : name ∉ specialNames)
      (found : env.locals name = some type) : Variable env name type
  | field {name : String} {type : Ty} (ordinary : name ∉ specialNames)
      (unhidden : env.locals name = none)
      (inherits : env.hierarchy.lookupField env.self name = some type) : Variable env name type

section Names
variable {env : Env} {name : String} {type : Ty}

theorem Special.not_isArray (means : Special env name type) : type.isArray = false := by
  cases means <;> rfl

theorem Variable.ordinary (means : Variable env name type) : name ∉ specialNames := by
  cases means <;> assumption

end Names

inductive Owner (env : Env) : String → ClassId → Prop
  | this : Owner env "this" env.self
  | super {parent : ClassId} (inherits : env.hierarchy.parentOf? env.self = some parent) :
      Owner env "super" parent

mutual

/-- The expression has the type, and is the second one with its types. -/
inductive Typed (env : Env) : Expr → Ty → Expr → Prop
  | int {info : Info} {value : Nat} :
      Typed env (.int info value) .int (.int (info.withType .int) value)
  | bool {info : Info} {value : Bool} :
      Typed env (.bool info value) .boolean (.bool (info.withType .boolean) value)
  | string {info : Info} {text : String} :
      Typed env (.string info text) .string (.string (info.withType .string) text)
  | var {info : Info} {qualifier index qualifier' index' : Option Expr} {name : String} {type : Ty}
      (named : Named env false qualifier name index type qualifier' index') :
      Typed env (.var info qualifier name index) type
        (.var (info.withType type) qualifier' name index')
  | assign {info : Info} {qualifier index qualifier' index' : Option Expr} {name : String}
      {value value' : Expr} {type actual : Ty}
      (target : Named env true qualifier name index type qualifier' index')
      (given : Typed env value actual value') (fits : env.Fits actual type) :
      Typed env (.assign info qualifier name index value) type
        (.assign (info.withType type) qualifier' name index' value')
  | call {info : Info} {receiver receiver' : Option Expr} {name : String}
      {arguments arguments' : List Expr} {owner : ClassId} {signature : Signature}
      (called : Receiver env receiver owner receiver')
      (found : env.hierarchy.lookupMethod owner name = some signature)
      (given : Arguments env signature.types arguments arguments') :
      Typed env (.call info receiver name arguments) signature.returns
        (.call (info.withType signature.returns) receiver' name arguments')
  | new {info : Info} {name : String} (isClass : (env.hierarchy.idOf? name).isSome) :
      Typed env (.new info name) (.named name) (.new (info.withType (.named name)) name)
  | newArray {info : Info} {element : String} {size size' : Expr}
      (sized : Typed env size .int size') (isType : env.IsValueType (.named element)) :
      Typed env (.newArray info element size) (.array (.named element))
        (.newArray (info.withType (.array (.named element))) element size')
  | instanceOf {info : Info} {operand operand' : Expr} {actual type : Ty}
      (tested : Typed env operand actual operand') (isType : env.IsValueType type)
      (fits : env.Fits actual type) :
      Typed env (.instanceOf info operand type) .boolean
        (.instanceOf (info.withType .boolean) operand' type)
  | cast {info : Info} {operand operand' : Expr} {actual type : Ty}
      (converted : Typed env operand actual operand') (isType : env.IsValueType type)
      (related : env.Related actual type) :
      Typed env (.cast info type operand) type (.cast (info.withType type) type operand')
  | arithmetic {info : Info} {op : BinaryOp} {left right left' right' : Expr}
      (isArithmetic : op.isArithmetic) (first : Typed env left .int left')
      (second : Typed env right .int right') :
      Typed env (.binary info op left right) .int (.binary (info.withType .int) op left' right')
  | relational {info : Info} {op : BinaryOp} {left right left' right' : Expr}
      (isRelational : op.isRelational) (first : Typed env left .int left')
      (second : Typed env right .int right') :
      Typed env (.binary info op left right) .boolean
        (.binary (info.withType .boolean) op left' right')
  | logical {info : Info} {op : BinaryOp} {left right left' right' : Expr}
      (isLogical : op.isLogical) (first : Typed env left .boolean left')
      (second : Typed env right .boolean right') :
      Typed env (.binary info op left right) .boolean
        (.binary (info.withType .boolean) op left' right')
  | equality {info : Info} {op : BinaryOp} {left right left' right' : Expr} {one other : Ty}
      (isEquality : op.isEquality) (first : Typed env left one left')
      (second : Typed env right other right') (related : env.Related one other) :
      Typed env (.binary info op left right) .boolean
        (.binary (info.withType .boolean) op left' right')
  | neg {info : Info} {operand operand' : Expr} (negated : Typed env operand .int operand') :
      Typed env (.unary info .neg operand) .int (.unary (info.withType .int) .neg operand')
  | not {info : Info} {operand operand' : Expr} (negated : Typed env operand .boolean operand') :
      Typed env (.unary info .not operand) .boolean (.unary (info.withType .boolean) .not operand')
  | step {info : Info} {op : UnaryOp} {operand operand' : Expr} (isIncrement : op.isIncrement)
      (isVar : operand.isVar) (stepped : Typed env operand .int operand') :
      Typed env (.unary info op operand) .int (.unary (info.withType .int) op operand')

/-- What a name stands for, with what qualifies it and its index. The flag says whether it is
assigned to. -/
inductive Named (env : Env) :
    Bool → Option Expr → String → Option Expr → Ty → Option Expr → Option Expr → Prop
  | whole {writing : Bool} {qualifier qualifier' : Option Expr} {name : String} {type : Ty}
      (selected : Selected env writing false qualifier name type qualifier') :
      Named env writing qualifier name none type qualifier' none
  | element {writing : Bool} {qualifier qualifier' : Option Expr} {name : String} {type : Ty}
      {index index' : Expr}
      (selected : Selected env writing true qualifier name (.array type) qualifier')
      (position : Typed env index .int index') :
      Named env writing qualifier name (some index) type qualifier' (some index')

/-- What a name stands for before it is indexed. The flags say whether it is assigned to and whether
it is indexed. -/
inductive Selected (env : Env) : Bool → Bool → Option Expr → String → Ty → Option Expr → Prop
  | special {indexed : Bool} {name : String} {type : Ty} (means : Special env name type) :
      Selected env false indexed none name type none
  | plain {writing indexed : Bool} {name : String} {type : Ty} (means : Variable env name type) :
      Selected env writing indexed none name type none
  | field {writing indexed : Bool} {info : Info} {word name : String} {owner : ClassId}
      {given type : Ty} {qualifier' : Expr}
      (before : Typed env (.var info none word none) given qualifier') (owns : Owner env word owner)
      (inherits : env.hierarchy.lookupField owner name = some type) :
      Selected env writing indexed (some (.var info none word none)) name type (some qualifier')
  | length {qualifier qualifier' : Expr} {element : Ty}
      (before : Typed env qualifier (.array element) qualifier') :
      Selected env false false (some qualifier) "length" .int (some qualifier')

inductive Receiver (env : Env) : Option Expr → ClassId → Option Expr → Prop
  | own : Receiver env none env.self none
  | object {receiver receiver' : Expr} {type : Ty} {owner : ClassId}
      (given : Typed env receiver type receiver')
      (isClass : env.hierarchy.classOf? type = some owner) :
      Receiver env (some receiver) owner (some receiver')

inductive Arguments (env : Env) : List Ty → List Expr → List Expr → Prop
  | nil : Arguments env [] [] []
  | cons {expected actual : Ty} {types : List Ty} {argument argument' : Expr}
      {arguments arguments' : List Expr} (given : Typed env argument actual argument')
      (fits : env.Fits actual expected) (others : Arguments env types arguments arguments') :
      Arguments env (expected :: types) (argument :: arguments) (argument' :: arguments')

end

inductive Optional (env : Env) (type : Ty) : Option Expr → Option Expr → Prop
  | missing : Optional env type none none
  | present {expr expr' : Expr} (typed : Typed env expr type expr') :
      Optional env type (some expr) (some expr')

mutual

/-- The statement is right in its place, and is the second one with its types. Behind it, the
variables of the last place are in scope. -/
inductive Checked : Env → Stmt → Stmt → Env → Prop
  | expr {env : Env} {span : Span} {value value' : Expr} {type : Ty}
      (typed : Typed env value type value') :
      Checked env (.expr span value) (.expr span value') env
  | decl {env : Env} {span : Span} {type actual : Ty} {name : String} {init init' : Expr}
      (isType : env.IsValueType type) (typed : Typed env init actual init')
      (fits : env.Fits actual type) (unreserved : isReserved name = false)
      (unbound : env.locals name = none) :
      Checked env (.decl span type name init) (.decl span type name init') (env.declare name type)
  | block {env : Env} {span : Span} {body body' : List Stmt} (inner : CheckedAll env body body') :
      Checked env (.block span body) (.block span body') env
  | branch {env behind : Env} {span : Span} {condition condition' : Expr}
      {thenBranch thenBranch' : Stmt} (test : Typed env condition .boolean condition')
      (first : Checked env thenBranch thenBranch' behind) :
      Checked env (.branch span condition thenBranch none)
        (.branch span condition' thenBranch' none) env
  | branchElse {env behind behindElse : Env} {span : Span} {condition condition' : Expr}
      {thenBranch thenBranch' elseBranch elseBranch' : Stmt}
      (test : Typed env condition .boolean condition')
      (first : Checked env thenBranch thenBranch' behind)
      (second : Checked env elseBranch elseBranch' behindElse) :
      Checked env (.branch span condition thenBranch (some elseBranch))
        (.branch span condition' thenBranch' (some elseBranch')) env
  | whileLoop {env behind : Env} {span : Span} {condition condition' : Expr} {body body' : Stmt}
      (test : Typed env condition .boolean condition')
      (inner : Checked env.inBody body body' behind) :
      Checked env (.whileLoop span condition body) (.whileLoop span condition' body') env
  | forLoop {env behind : Env} {span : Span}
      {init condition update init' condition' update' : Option Expr} {body body' : Stmt}
      (before : Optional env .int init init') (test : Optional env .boolean condition condition')
      (after : Optional env .int update update') (inner : Checked env.inBody body body' behind) :
      Checked env (.forLoop span init condition update body)
        (.forLoop span init' condition' update' body') env
  | leave {env : Env} {span : Span} (inLoop : env.inLoop) : Checked env (.leave span) (.leave span) env
  | giveNothing {env : Env} {span : Span} (isVoid : env.returns = .void) :
      Checked env (.giveBack span none) (.giveBack span none) env
  | giveBack {env : Env} {span : Span} {value value' : Expr} {actual : Ty}
      (notVoid : env.returns ≠ .void) (typed : Typed env value actual value')
      (fits : env.Fits actual env.returns) :
      Checked env (.giveBack span (some value)) (.giveBack span (some value')) env

inductive CheckedAll : Env → List Stmt → List Stmt → Prop
  | nil {env : Env} : CheckedAll env [] []
  | cons {env behind : Env} {stmt stmt' : Stmt} {stmts stmts' : List Stmt}
      (first : Checked env stmt stmt' behind) (others : CheckedAll behind stmts stmts') :
      CheckedAll env (stmt :: stmts) (stmt' :: stmts')

end

def Env.ofClass (hierarchy : Hierarchy) (self : ClassId) : Env where
  hierarchy
  self
  locals _ := none
  returns := .void
  inLoop := false

def Env.ofMethod (hierarchy : Hierarchy) (self : ClassId) (method : Method) : Env where
  hierarchy
  self
  locals name := (method.formals.find? (·.name == name)).map Formal.type
  returns := method.returns
  inLoop := false

inductive MemberTyped (hierarchy : Hierarchy) (self : ClassId) : Member → Member → Prop
  | field {type : Ty} {name : String} {span : Span}
      (isType : (Env.ofClass hierarchy self).IsValueType type) :
      MemberTyped hierarchy self (.field ⟨type, name, none, span⟩) (.field ⟨type, name, none, span⟩)
  | initialized {type actual : Ty} {name : String} {span : Span} {init init' : Expr}
      (isType : (Env.ofClass hierarchy self).IsValueType type)
      (typed : Typed (Env.ofClass hierarchy self) init actual init')
      (fits : (Env.ofClass hierarchy self).Fits actual type) :
      MemberTyped hierarchy self (.field ⟨type, name, some init, span⟩)
        (.field ⟨type, name, some init', span⟩)
  | method {method : Method} {body' : List Stmt}
      (returns : method.returns = .void ∨ hierarchy.hasType method.returns)
      (overrides : ∀ parent inherited, hierarchy.parentOf? self = some parent →
        hierarchy.lookupMethod parent method.name = some inherited →
          (Signature.ofMethod method).sameTypes inherited)
      (formals : ∀ formal ∈ method.formals,
        (Env.ofMethod hierarchy self method).IsValueType formal.type)
      (checked : CheckedAll (Env.ofMethod hierarchy self method) method.body body') :
      MemberTyped hierarchy self (.method method) (.method { method with body := body' })

inductive ClassTyped (hierarchy : Hierarchy) : ClassDecl → ClassDecl → Prop
  | mk {decl : ClassDecl} {self : ClassId} {members' : List Member}
      (registered : hierarchy.idOf? decl.name = some self)
      (members : List.Forall₂ (MemberTyped hierarchy self) decl.members members') :
      ClassTyped hierarchy decl { decl with members := members' }

end Typing

end Bantam
