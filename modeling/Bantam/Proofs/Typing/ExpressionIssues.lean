import Bantam.Proofs.Syntax.Bounds
import Bantam.Proofs.Typing.Validity

/-! Where issues are, and what they name. An issue in an expression is at the span of a part of it,
and its error has no words but those of the expression and of the declarations that it is checked
against. So it is within the bounds that hold for all of these. -/
namespace Bantam

/-- The words of the types that need no declaration, and the empty one. -/
def fixedWords : List String := ["", "int", "boolean", "void", "null"] ++ builtinNames

/-- All names and types of the error are within the bounds. -/
def SemanticError.Within (word : String → Prop) : SemanticError → Prop
  | missingMainClass | missingMainMethod | misplacedVoid | misplacedBreak | valueInVoidMethod
  | inaccessibleField | notVariable _ => True
  | reservedName name | duplicateClass name | cyclicClass name | signatureMismatch name
  | undeclaredVariable name | notArray name | readOnly name | wrongArgumentCount name _ _ =>
    word name
  | undefinedParent name other | builtinParent name other | duplicateField name other
  | duplicateMethod name other | duplicateFormal name other | duplicateVariable name other
  | missingField name other | missingMethod name other => word name ∧ word other
  | unknownType type | wrongCondition _ type | wrongClause _ type | missingReturnValue type
  | wrongIndex type | wrongSize type => type.Within word
  | unknownReturnType type name | notObject name type => type.Within word ∧ word name
  | wrongReturnValue type other | wrongValue type other | notSupertype type other
  | impossibleCast type other | incomparable _ type other | wrongOperand _ type other =>
    type.Within word ∧ other.Within word
  | wrongInitializer type other _ name | wrongArgument _ name type other =>
    type.Within word ∧ other.Within word ∧ word name
  | wrongOperands _ type left right =>
    type.Within word ∧ left.Within word ∧ right.Within word

structure Issue.Within (bounds : Bounds) (issue : Issue) : Prop where
  place : bounds.place issue.span
  error : issue.error.Within bounds.word

/-- The types of all members that can be looked up are within the bounds, and so are the names of
the classes. -/
structure Hierarchy.Within (word : String → Prop) (hierarchy : Hierarchy) : Prop where
  fixed : ∀ name ∈ fixedWords, word name
  name : ∀ id, word (hierarchy.nameOf id)
  field : ∀ id name type, hierarchy.lookupField id name = some type → type.Within word
  method : ∀ id name signature, hierarchy.lookupMethod id name = some signature →
    signature.returns.Within word ∧ ∀ type ∈ signature.types, type.Within word

structure Context.Within (word : String → Prop) (ctx : Context) : Prop where
  hierarchy : ctx.hierarchy.Within word
  locals : ∀ name type, ctx.locals.lookupChain name = some type → type.Within word
  method : word ctx.method
  returns : ctx.returns.Within word

/-- The type that was found or the error is within the bounds. -/
def ResultWithin (word : String → Prop) : Except SemanticError Ty → Prop
  | .ok type => type.Within word
  | .error error => error.Within word

theorem ResultWithin.error {word : String → Prop} {result : Except SemanticError Ty}
    {error : SemanticError} (within : ResultWithin word result) (failed : result = .error error) :
    error.Within word := by
  rw [failed] at within
  exact within

variable {bounds : Bounds}

/-- All issues are within the bounds. -/
def AllWithin (bounds : Bounds) (issues : List Issue) : Prop :=
  ∀ issue ∈ issues, issue.Within bounds

namespace AllWithin
variable {span : Span} {error : SemanticError} {first second : List Issue}

theorem nil : AllWithin bounds [] := List.forall_mem_nil _

theorem append (left : AllWithin bounds first) (right : AllWithin bounds second) :
    AllWithin bounds (first ++ second) := List.forall_mem_append.mpr ⟨left, right⟩

theorem single (place : bounds.place span) (named : error.Within bounds.word) :
    AllWithin bounds [⟨span, error⟩] := List.forall_mem_singleton.mpr ⟨place, named⟩

theorem ofCondition {wrong : Bool} (place : bounds.place span) (named : error.Within bounds.word) :
    AllWithin bounds (Issue.ofCondition wrong span error) := by
  unfold Issue.ofCondition
  split
  · exact single place named
  · exact nil

theorem ofOutcome {α : Type} {outcome : Except SemanticError α} (place : bounds.place span)
    (named : ∀ error, outcome = .error error → error.Within bounds.word) :
    AllWithin bounds (Issue.ofOutcome span outcome) := by
  cases outcome with
  | ok => exact nil
  | error error => exact single place (named error rfl)

theorem ofResult {result : Except SemanticError Ty} (place : bounds.place span)
    (within : ResultWithin bounds.word result) :
    AllWithin bounds (Issue.ofOutcome span result) :=
  ofOutcome place fun _ => within.error

end AllWithin

namespace Hierarchy.Within
variable {hierarchy : Hierarchy} (within : hierarchy.Within bounds.word)
include within

theorem named {name : String} (fixed : name ∈ fixedWords) : (Ty.named name).Within bounds.word :=
  within.fixed name fixed

theorem orObject {result : Except SemanticError Ty} (found : ResultWithin bounds.word result) :
    (orObject result).Within bounds.word := by
  cases result with
  | ok => exact found
  | error => exact within.named (by decide)

theorem resultType (op : BinaryOp) : op.resultType.Within bounds.word := by
  unfold BinaryOp.resultType
  split <;> exact within.named (by decide)

theorem operandType {op : BinaryOp} {type : Ty} (asked : op.operandType? = some type) :
    type.Within bounds.word := by
  unfold BinaryOp.operandType? at asked
  split at asked
  · contradiction
  · split at asked <;>
    · cases asked
      exact within.named (by decide)

theorem operatorType (op : UnaryOp) : op.type.Within bounds.word := by
  unfold UnaryOp.type
  split <;> exact within.named (by decide)

end Hierarchy.Within

namespace Context
variable (ctx : Context)

theorem checkType_within {type : Ty} (typed : type.Within bounds.word) :
    ResultWithin bounds.word (ctx.checkType type) := by
  unfold checkType
  split
  · exact trivial
  · split
    · exact typed
    · exact typed

theorem resolveClass_within {name : String} (named : bounds.word name) :
    ResultWithin bounds.word (ctx.resolveClass name) := by
  unfold resolveClass
  split
  · exact named
  · exact named

theorem testIssues_within {span : Span} (place : bounds.place span) {actual type : Ty}
    (tested : actual.Within bounds.word) (typed : type.Within bounds.word) :
    AllWithin bounds (ctx.testIssues span actual type) := by
  unfold testIssues
  split
  · next failed => exact .single place ((ctx.checkType_within typed).error failed)
  · exact .ofCondition place ⟨typed, tested⟩

theorem castIssues_within {span : Span} (place : bounds.place span) {actual type : Ty}
    (given : actual.Within bounds.word) (typed : type.Within bounds.word) :
    AllWithin bounds (ctx.castIssues span actual type) := by
  unfold castIssues
  split
  · next failed => exact .single place ((ctx.checkType_within typed).error failed)
  · exact .ofCondition place ⟨given, typed⟩

end Context

namespace Context.Within
section
variable {ctx : Context} (within : ctx.Within bounds.word)
include within

theorem resolveName {name : String} (named : bounds.word name) :
    ResultWithin bounds.word (ctx.resolveName name) := by
  unfold Context.resolveName
  split
  · exact within.hierarchy.name _
  split
  · unfold Context.parentName
    split
    · exact within.hierarchy.name _
    · exact within.hierarchy.named (by decide)
  split
  · exact within.hierarchy.named (by decide)
  split
  · next type found =>
    cases isLocal : ctx.locals.lookupChain name with
    | some bound =>
      rw [isLocal] at found
      cases found
      exact within.locals name type isLocal
    | none =>
      rw [isLocal] at found
      exact within.hierarchy.field _ name type found
  · exact named

theorem resolveField (qualifier : Qualifier) {name : String} (named : bounds.word name)
    (indexed : Bool) : ResultWithin bounds.word (ctx.resolveField qualifier name indexed) := by
  unfold Context.resolveField
  split
  · split
    · next found => exact within.hierarchy.field _ name _ found
    · exact ⟨within.hierarchy.name _, named⟩
  · split
    · exact within.hierarchy.named (by decide)
    · exact trivial

theorem resolveVariable (qualifier : Option Qualifier) {name : String} (named : bounds.word name)
    (indexed : Bool) : ResultWithin bounds.word (ctx.resolveVariable qualifier name indexed) := by
  cases qualifier with
  | none => exact within.resolveName named
  | some qualifier => exact within.resolveField qualifier named indexed

theorem variableType (qualifier : Option Qualifier) {name : String} (named : bounds.word name)
    (indexed : Bool) : (ctx.variableType qualifier name indexed).Within bounds.word := by
  have whole := within.hierarchy.orObject (within.resolveVariable qualifier named indexed)
  unfold Context.variableType
  cases indexed with
  | false => exact whole
  | true =>
    simp only [if_true]
    generalize orObject (ctx.resolveVariable qualifier name true) = type at whole ⊢
    cases type with
    | named => exact whole
    | array element => exact whole

theorem callType (receiver : Option Ty) (method : String) :
    (ctx.callType receiver method).Within bounds.word := by
  unfold Context.callType
  cases called : ctx.calledMethod? receiver method with
  | none => exact within.hierarchy.named (by decide)
  | some signature =>
    obtain ⟨owner, -, found⟩ := Option.bind_eq_some_iff.mp called
    exact (within.hierarchy.method owner method signature found).1

theorem typeOf {expr : Expr} (inside : expr.Within bounds) :
    (ctx.typeOf expr).Within bounds.word := by
  cases expr with
  | int | bool | string => exact within.hierarchy.named (by decide)
  | var => exact within.variableType _ inside.2.2.1 _
  | assign => exact within.variableType _ inside.2.2.1 _
  | call => exact within.callType _ _
  | new => exact within.hierarchy.orObject (ctx.resolveClass_within inside.2)
  | newArray info element size =>
    unfold Context.typeOf
    refine within.hierarchy.orObject ?_
    have checked : ResultWithin bounds.word (ctx.checkType (.named element)) :=
      ctx.checkType_within inside.2.1
    cases found : ctx.checkType (.named element) with
    | ok type =>
      rw [found] at checked
      exact checked
    | error error =>
      rw [found] at checked
      exact checked
  | instanceOf => exact within.hierarchy.named (by decide)
  | cast => exact within.hierarchy.orObject (ctx.checkType_within inside.2.1)
  | binary => exact within.hierarchy.resultType _
  | unary => exact within.hierarchy.operatorType _

variable {span : Span} (place : bounds.place span)

section
include place

theorem nameIssues (qualifier : Option Expr) {name : String} (named : bounds.word name)
    (indexed writing : Bool) :
    AllWithin bounds (ctx.nameIssues span qualifier name indexed writing) := by
  have found := within.resolveVariable (ctx.qualifierOf qualifier) named indexed
  unfold Context.nameIssues
  apply AllWithin.append
  · exact .ofCondition place named
  · exact .ofResult place found

theorem indexIssues (qualifier : Option Expr) {name : String} (named : bounds.word name)
    {index : Option Expr} (inside : Expr.WithinOption bounds index) :
    AllWithin bounds (ctx.indexIssues span qualifier name index) := by
  cases index with
  | none => exact .nil
  | some index =>
    have typed := within.typeOf inside
    apply AllWithin.append
    · exact .ofCondition inside.place typed
    · exact .ofCondition place named

theorem callIssues (receiver : Option Expr) {method : String} (named : bounds.word method)
    {arguments : List Expr} (inside : Expr.WithinList bounds arguments) :
    AllWithin bounds (ctx.callIssues span receiver method arguments) := by
  have given (types : List Ty) (typed : ∀ type ∈ types, type.Within bounds.word) (position : Nat) :
      AllWithin bounds (ctx.argumentIssues method position types arguments) := by
    induction arguments generalizing types position with
    | nil => cases types <;> exact .nil
    | cons argument arguments ih =>
      cases types with
      | nil => exact .nil
      | cons expected types =>
        obtain ⟨first, others⟩ := List.forall_mem_cons.mp typed
        have actual := within.typeOf inside.1
        apply AllWithin.append
        · exact .ofCondition inside.1.place ⟨actual, first, named⟩
        · exact ih inside.2 types others (position + 1)
  unfold Context.callIssues
  split
  · exact .nil
  split
  · exact .single place ⟨within.hierarchy.name _, named⟩
  · next signature found =>
    dsimp only
    split
    · exact .single place named
    · exact given signature.types (within.hierarchy.method _ _ _ found).2 1

theorem binaryIssues (op : BinaryOp) {left right : Ty} (first : left.Within bounds.word)
    (second : right.Within bounds.word) :
    AllWithin bounds (ctx.binaryIssues span op left right) := by
  unfold Context.binaryIssues
  split
  · exact .ofCondition place ⟨first, second⟩
  · next asked => exact .ofCondition place ⟨within.hierarchy.operandType asked, first, second⟩

theorem unaryIssues (op : UnaryOp) {operand : Expr} (inside : operand.Within bounds) :
    AllWithin bounds (ctx.unaryIssues span op operand) := by
  have expected := within.hierarchy.operatorType op
  have actual := within.typeOf inside
  unfold Context.unaryIssues
  apply AllWithin.append
  · exact .ofCondition place trivial
  · exact .ofCondition place ⟨expected, actual⟩

end

theorem receiverIssues {method : String} (named : bounds.word method) {receiver : Option Expr}
    (inside : Expr.WithinOption bounds receiver) :
    AllWithin bounds (ctx.receiverIssues method receiver) := by
  cases receiver with
  | none => exact .nil
  | some receiver => exact .ofCondition inside.place ⟨within.typeOf inside, named⟩

end

mutual

theorem issuesOf {ctx : Context} (within : ctx.Within bounds.word) : ∀ {expr : Expr},
    expr.Within bounds → AllWithin bounds (ctx.issuesOf expr)
  | .int .., _ | .bool .., _ | .string .., _ => .nil
  | .var _ qualifier _ index, ⟨place, qualified, named, indexed⟩ => by
    have before := within.issuesOfOption qualified
    have resolved := within.nameIssues place qualifier named index.isSome false
    have inside := within.issuesOfOption indexed
    have applied := within.indexIssues place qualifier named indexed
    rw [Context.issuesOf]
    exact ((before.append resolved).append inside).append applied
  | .assign _ qualifier _ index value, ⟨place, qualified, named, indexed, valued⟩ => by
    have before := within.issuesOfOption qualified
    have resolved := within.nameIssues place qualifier named index.isSome true
    have inside := within.issuesOfOption indexed
    have applied := within.indexIssues place qualifier named indexed
    have behind := within.issuesOf valued
    have expected := within.variableType (ctx.qualifierOf qualifier) named index.isSome
    have actual := within.typeOf valued
    rw [Context.issuesOf]
    have target := ((before.append resolved).append inside).append applied
    apply (target.append behind).append
    exact .ofCondition valued.place ⟨actual, expected⟩
  | .call _ receiver _ _, ⟨place, received, named, given⟩ => by
    have before := within.issuesOfOption received
    have selected := within.receiverIssues named received
    have inside := within.issuesOfList given
    have called := within.callIssues place receiver named given
    rw [Context.issuesOf]
    exact ((before.append selected).append inside).append called
  | .new _ _, ⟨place, named⟩ => .ofResult place (ctx.resolveClass_within named)
  | .newArray _ element size, ⟨place, named, sized⟩ => by
    have inside := within.issuesOf sized
    have typed := within.typeOf sized
    have checked : ResultWithin bounds.word (ctx.checkType (.named element)) :=
      ctx.checkType_within named
    rw [Context.issuesOf]
    apply (inside.append _).append
    · exact .ofResult place checked
    · exact .ofCondition sized.place typed
  | .instanceOf _ _ _, ⟨place, typed, tested⟩ => by
    have inside := within.issuesOf tested
    have related := ctx.testIssues_within place (within.typeOf tested) typed
    rw [Context.issuesOf]
    exact inside.append related
  | .cast _ _ _, ⟨place, typed, given⟩ => by
    have inside := within.issuesOf given
    have related := ctx.castIssues_within place (within.typeOf given) typed
    rw [Context.issuesOf]
    exact inside.append related
  | .binary _ op _ _, ⟨place, left, right⟩ => by
    have first := within.issuesOf left
    have second := within.issuesOf right
    have joined := within.binaryIssues place op (within.typeOf left) (within.typeOf right)
    rw [Context.issuesOf]
    exact (first.append second).append joined
  | .unary _ op _, ⟨place, operand⟩ => by
    have inside := within.issuesOf operand
    have applied := within.unaryIssues place op operand
    rw [Context.issuesOf]
    exact inside.append applied

theorem issuesOfOption {ctx : Context} (within : ctx.Within bounds.word) : ∀ {expr : Option Expr},
    Expr.WithinOption bounds expr → AllWithin bounds (ctx.issuesOfOption expr)
  | none, _ => .nil
  | some _, inside => within.issuesOf inside

theorem issuesOfList {ctx : Context} (within : ctx.Within bounds.word) : ∀ {exprs : List Expr},
    Expr.WithinList bounds exprs → AllWithin bounds (ctx.issuesOfList exprs)
  | [], _ => .nil
  | _ :: _, ⟨first, others⟩ => by
    have head := within.issuesOf first
    have tail := within.issuesOfList others
    exact head.append tail

end

end Context.Within

end Bantam
