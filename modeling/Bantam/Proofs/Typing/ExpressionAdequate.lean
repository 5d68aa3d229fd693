import Bantam.Proofs.Typing.ExpressionSound

/-! The checker of expressions is the typing judgment: an expression has no issues if and only if it
has a derivation, and then the type and the annotations that are computed are the derived ones. -/
namespace Bantam
open Typing

namespace Context
variable {ctx : Context}

/-- What is computed of an expression without issues. -/
def Computes (ctx : Context) (expr : Expr) (type : Ty) (expr' : Expr) : Prop :=
  ctx.issuesOf expr = [] ∧ ctx.typeOf expr = type ∧ ctx.annotate expr = expr'

/-- What is computed of a name without issues before it is indexed. -/
structure Resolves (ctx : Context) (writing indexed : Bool) (qualifier : Option Expr)
    (name : String) (type : Ty) (qualifier' : Option Expr) : Prop where
  before : ctx.issuesOfOption qualifier = []
  resolved : ctx.resolveVariable (ctx.qualifierOf qualifier) name indexed = .ok type
  writable : (writing && isReadOnly (ctx.qualifierOf qualifier) name indexed) = false
  annotated : ctx.annotateOption qualifier = qualifier'

/-- What is computed of a name without issues, with its index. -/
structure Reads (ctx : Context) (writing : Bool) (qualifier : Option Expr) (name : String)
    (index : Option Expr) (type : Ty) (qualifier' index' : Option Expr) : Prop where
  before : ctx.issuesOfOption qualifier = []
  named (span : Span) : ctx.nameIssues span qualifier name index.isSome writing = []
  position : ctx.issuesOfOption index = []
  indexed (span : Span) : ctx.indexIssues span qualifier name index = []
  type : ctx.variableType (ctx.qualifierOf qualifier) name index.isSome = type
  annotated : ctx.annotateOption qualifier = qualifier'
  annotatedIndex : ctx.annotateOption index = index'

structure Receives (ctx : Context) (receiver : Option Expr) (owner : ClassId)
    (receiver' : Option Expr) : Prop where
  before : ctx.issuesOfOption receiver = []
  isObject (method : String) : ctx.receiverIssues method receiver = []
  owner : ctx.receiverClass? ((ctx.qualifierOf receiver).map Qualifier.type) = some owner
  annotated : ctx.annotateOption receiver = receiver'

structure Takes (ctx : Context) (types : List Ty) (arguments arguments' : List Expr) : Prop where
  inside : ctx.issuesOfList arguments = []
  fits (method : String) (position : Nat) : ctx.argumentIssues method position types arguments = []
  count : types.length = arguments.length
  annotated : ctx.annotateList arguments = arguments'

theorem Resolves.whole {writing : Bool} {qualifier qualifier' : Option Expr} {name : String}
    {type : Ty} (resolves : ctx.Resolves writing false qualifier name type qualifier') :
    ctx.Reads writing qualifier name none type qualifier' none where
  before := resolves.before
  named span := by
    rw [Option.isSome_none, nameIssues, resolves.resolved, resolves.writable]
    rfl
  position := rfl
  indexed _ := rfl
  type := by
    rw [Option.isSome_none, variableType, resolves.resolved]
    rfl
  annotated := resolves.annotated
  annotatedIndex := rfl

theorem Resolves.element {writing : Bool} {qualifier qualifier' : Option Expr} {name : String}
    {type : Ty} {index index' : Expr}
    (resolves : ctx.Resolves writing true qualifier name (.array type) qualifier')
    (position : ctx.Computes index .int index') :
    ctx.Reads writing qualifier name (some index) type qualifier' (some index') where
  before := resolves.before
  named span := by
    rw [Option.isSome_some, nameIssues, resolves.resolved, resolves.writable]
    rfl
  position := position.1
  indexed span := by
    rw [indexIssues, resolves.resolved, position.2.1]
    rfl
  type := by
    rw [Option.isSome_some, variableType, resolves.resolved]
    rfl
  annotated := resolves.annotated
  annotatedIndex := congrArg some position.2.2

theorem Reads.var {info : Info} {qualifier qualifier' index index' : Option Expr} {name : String}
    {type : Ty} (reads : ctx.Reads false qualifier name index type qualifier' index') :
    ctx.Computes (.var info qualifier name index) type
      (.var (info.withType type) qualifier' name index') := by
  have isType : ctx.typeOf (.var info qualifier name index) = type := by
    rw [typeOf, reads.type]
  refine ⟨?_, isType, ?_⟩
  · rw [issuesOf, reads.before, reads.named, reads.position, reads.indexed]
    rfl
  · rw [annotate, isType, reads.annotated, reads.annotatedIndex]
    rfl

theorem Reads.assign {info : Info} {qualifier qualifier' index index' : Option Expr} {name : String}
    {type actual : Ty} {value value' : Expr}
    (reads : ctx.Reads true qualifier name index type qualifier' index')
    (given : ctx.Computes value actual value') (fits : ctx.env.Fits actual type) :
    ctx.Computes (.assign info qualifier name index value) type
      (.assign (info.withType type) qualifier' name index' value') := by
  have isType : ctx.typeOf (.assign info qualifier name index value) = type := by
    rw [typeOf, reads.type]
  refine ⟨?_, isType, ?_⟩
  · simp only [issuesOf, reads.before, reads.named, reads.position, reads.indexed, reads.type,
      given.1, given.2.1, List.nil_append, Issue.ofCondition_eq_nil, conforms_eq_false]
    exact fits
  · rw [annotate, isType, reads.annotated, reads.annotatedIndex, given.2.2]
    rfl

theorem Receives.call {info : Info} {receiver receiver' : Option Expr} {owner : ClassId}
    {name : String} {arguments arguments' : List Expr} {signature : Signature}
    (receives : ctx.Receives receiver owner receiver')
    (found : ctx.hierarchy.lookupMethod owner name = some signature)
    (takes : ctx.Takes signature.types arguments arguments') :
    ctx.Computes (.call info receiver name arguments) signature.returns
      (.call (info.withType signature.returns) receiver' name arguments') := by
  have isType : ctx.typeOf (.call info receiver name arguments) = signature.returns := by
    simp [typeOf, callType, calledMethod?, receives.owner, found]
  refine ⟨?_, isType, ?_⟩
  · simp [issuesOf, callIssues, receives.before, receives.isObject, takes.inside, receives.owner,
      found, takes.count, takes.fits]
  · rw [annotate, isType, receives.annotated, takes.annotated]
    rfl

theorem Computes.operate {info : Info} {op : BinaryOp} {left right left' right' : Expr}
    {operands result : Ty} (first : ctx.Computes left operands left')
    (takes : op.operandType? = some operands) (gives : op.resultType = result)
    (second : ctx.Computes right operands right') :
    ctx.Computes (.binary info op left right) result
      (.binary (info.withType result) op left' right') := by
  obtain ⟨cleanLeft, isType, rfl⟩ := first
  obtain ⟨cleanRight, isTypeRight, rfl⟩ := second
  subst gives
  refine ⟨?_, rfl, rfl⟩
  rw [issuesOf, cleanLeft, cleanRight, binaryIssues, takes, isType, isTypeRight]
  simp

theorem Computes.compare {info : Info} {op : BinaryOp} {left right left' right' : Expr}
    {one other result : Ty} (first : ctx.Computes left one left')
    (takes : op.operandType? = none) (gives : op.resultType = result)
    (second : ctx.Computes right other right')
    (related : ctx.env.Related one other) :
    ctx.Computes (.binary info op left right) result
      (.binary (info.withType result) op left' right') := by
  obtain ⟨cleanLeft, rfl, rfl⟩ := first
  obtain ⟨cleanRight, rfl, rfl⟩ := second
  subst gives
  refine ⟨?_, rfl, rfl⟩
  rw [issuesOf, cleanLeft, cleanRight, binaryIssues, takes]
  exact Issue.ofCondition_eq_nil.mpr (related_eq_false.mpr related)

theorem Computes.unary {info : Info} {op : UnaryOp} {operand operand' : Expr} {type : Ty}
    (inner : ctx.Computes operand type operand') (takes : op.type = type)
    (isVariable : (op.isIncrement && !operand.isVar) = false) :
    ctx.Computes (.unary info op operand) type (.unary (info.withType type) op operand') := by
  obtain ⟨clean, isType, rfl⟩ := inner
  subst takes
  refine ⟨?_, rfl, rfl⟩
  rw [issuesOf, clean, unaryIssues, isVariable, isType]
  simp

theorem isReadOnly_of_variable {name : String} {type : Ty} {indexed : Bool}
    (means : Typing.Variable ctx.env name type) : isReadOnly none name indexed = false := by
  have ordinary := means.ordinary
  simp only [mem_specialNames, not_or] at ordinary
  simp [isReadOnly, ordinary]

section Completeness
variable {parent : ClassId}

mutual

/-- Whatever the rules derive is computed, without issues. -/
theorem computes_of_typed
    (inherits : ctx.hierarchy.parentOf? ctx.classId = some parent)
    {expr expr' : Expr} {type : Ty} :
    Typed ctx.env expr type expr' → ctx.Computes expr type expr'
  | .int => ⟨rfl, rfl, rfl⟩
  | .bool => ⟨rfl, rfl, rfl⟩
  | .string => ⟨rfl, rfl, rfl⟩
  | .var named => (reads_of_named inherits named).var
  | .assign target given fits => by
    have reads := reads_of_named inherits target
    have given := computes_of_typed inherits given
    exact reads.assign given fits
  | .call called found given =>
    (receives_of_receiver inherits called).call found (takes_of_arguments inherits given)
  | .new isClass => by
    have resolved := resolveClass_eq_ok.mpr ⟨isClass, rfl⟩
    refine ⟨?_, ?_, ?_⟩
    · rw [issuesOf, resolved]; rfl
    · rw [typeOf, resolved]; rfl
    · rw [annotate, typeOf, resolved]; rfl
  | .newArray sized isType => by
    obtain ⟨clean, isInt, rfl⟩ := computes_of_typed inherits sized
    have checked := checkType_eq_ok.mpr ⟨isType, rfl⟩
    refine ⟨?_, ?_, ?_⟩
    · rw [issuesOf, clean, isInt, checked]; rfl
    · rw [typeOf, checked]; rfl
    · rw [annotate, typeOf, checked]; rfl
  | .instanceOf tested isType fits => by
    obtain ⟨clean, rfl, rfl⟩ := computes_of_typed inherits tested
    refine ⟨?_, rfl, rfl⟩
    rw [issuesOf, clean, testIssues, checkType_eq_ok.mpr ⟨isType, rfl⟩]
    exact Issue.ofCondition_eq_nil.mpr (conforms_eq_false.mpr fits)
  | .cast converted isType related => by
    obtain ⟨clean, rfl, rfl⟩ := computes_of_typed inherits converted
    have checked := checkType_eq_ok.mpr ⟨isType, rfl⟩
    refine ⟨?_, ?_, ?_⟩
    · rw [issuesOf, clean, castIssues, checked]
      exact Issue.ofCondition_eq_nil.mpr (related_eq_false.mpr related)
    · rw [typeOf, checked]; rfl
    · rw [annotate, typeOf, checked]; rfl
  | .arithmetic isArithmetic first second => by
    obtain ⟨takes, gives⟩ := BinaryOp.types_of_isArithmetic isArithmetic
    have first := computes_of_typed inherits first
    have second := computes_of_typed inherits second
    exact first.operate takes gives second
  | .relational isRelational first second => by
    obtain ⟨takes, gives⟩ := BinaryOp.types_of_isRelational isRelational
    have first := computes_of_typed inherits first
    have second := computes_of_typed inherits second
    exact first.operate takes gives second
  | .logical isLogical first second => by
    obtain ⟨takes, gives⟩ := BinaryOp.types_of_isLogical isLogical
    have first := computes_of_typed inherits first
    have second := computes_of_typed inherits second
    exact first.operate takes gives second
  | .equality isEquality first second related => by
    obtain ⟨takes, gives⟩ := BinaryOp.types_of_isEquality isEquality
    have first := computes_of_typed inherits first
    have second := computes_of_typed inherits second
    exact first.compare takes gives second related
  | .neg negated => (computes_of_typed inherits negated).unary rfl rfl
  | .not negated => (computes_of_typed inherits negated).unary rfl rfl
  | .step isIncrement isVar stepped =>
    (computes_of_typed inherits stepped).unary (UnaryOp.type_of_isIncrement isIncrement)
      (by rw [isVar, Bool.not_true, Bool.and_false])

theorem reads_of_named
    (inherits : ctx.hierarchy.parentOf? ctx.classId = some parent)
    {writing : Bool} {qualifier qualifier' index index' : Option Expr}
    {name : String} {type : Ty} :
    Named ctx.env writing qualifier name index type qualifier' index' →
      ctx.Reads writing qualifier name index type qualifier' index'
  | .whole selected => (resolves_of_selected inherits selected).whole
  | .element selected position => by
    have resolves := resolves_of_selected inherits selected
    have position := computes_of_typed inherits position
    exact resolves.element position

theorem resolves_of_selected
    (inherits : ctx.hierarchy.parentOf? ctx.classId = some parent)
    {writing indexed : Bool} {qualifier qualifier' : Option Expr}
    {name : String} {type : Ty} :
    Selected ctx.env writing indexed qualifier name type qualifier' →
      ctx.Resolves writing indexed qualifier name type qualifier'
  | .special means => ⟨rfl, (resolveName_eq_ok inherits).mpr (.inl means), rfl, rfl⟩
  | .plain means => by
    refine ⟨rfl, (resolveName_eq_ok inherits).mpr (.inr means), ?_, rfl⟩
    rw [qualifierOf, isReadOnly_of_variable means, Bool.and_false]
  | @Selected.field _ _ _ info word _ _ _ _ _ before owns found => by
    obtain ⟨clean, -, rfl⟩ := computes_of_typed inherits before
    have owner : ctx.ownerOf? ⟨some word, ctx.typeOf (.var info none word none)⟩ = some _ :=
      ownerOf?_eq_some.mpr ⟨word, rfl, owns⟩
    refine ⟨clean, ?_, ?_, rfl⟩
    · rw [qualifierOf, resolveVariable, resolveField, Expr.bareName?, owner]
      dsimp only
      rw [show ctx.hierarchy.lookupField _ _ = some _ from found]
    · have notArray : (ctx.typeOf (.var info none word none)).isArray = false :=
        not_isArray_of_owns owner
      simp [isReadOnly, qualifierOf, notArray]
  | @Selected.length _ qualifier _ _ before => by
    obtain ⟨clean, isArray, rfl⟩ := computes_of_typed inherits before
    refine ⟨clean, ?_, rfl, rfl⟩
    have noOwner : ctx.ownerOf? ⟨qualifier.bareName?, ctx.typeOf qualifier⟩ = none :=
      Option.eq_none_iff_forall_ne_some.mpr fun owner owns => by
        have notArray := not_isArray_of_owns owns
        rw [isArray] at notArray
        contradiction
    rw [qualifierOf, resolveVariable, resolveField, noOwner, isArray]
    rfl

theorem receives_of_receiver
    (inherits : ctx.hierarchy.parentOf? ctx.classId = some parent)
    {receiver receiver' : Option Expr} {owner : ClassId} :
    Receiver ctx.env receiver owner receiver' → ctx.Receives receiver owner receiver'
  | .own => ⟨rfl, fun _ => rfl, rfl, rfl⟩
  | .object given isClass => by
    obtain ⟨clean, rfl, rfl⟩ := computes_of_typed inherits given
    refine ⟨clean, fun method => ?_, isClass, rfl⟩
    have isClass : ctx.hierarchy.classOf? (ctx.typeOf _) = some owner := isClass
    rw [receiverIssues, isClass]
    rfl

theorem takes_of_arguments
    (inherits : ctx.hierarchy.parentOf? ctx.classId = some parent)
    {types : List Ty} {arguments arguments' : List Expr} :
    Arguments ctx.env types arguments arguments' → ctx.Takes types arguments arguments'
  | .nil => ⟨rfl, fun _ _ => rfl, rfl, rfl⟩
  | .cons given fits others => by
    obtain ⟨clean, rfl, rfl⟩ := computes_of_typed inherits given
    have takes := takes_of_arguments inherits others
    refine ⟨?_, fun method position => ?_, congrArg (· + 1) takes.count, ?_⟩
    · rw [issuesOfList, clean, takes.inside]; rfl
    · rw [argumentIssues, takes.fits]
      simpa using conforms_eq_false.mpr fits
    · rw [annotateList, takes.annotated]

end

end Completeness

/-- The rules derive exactly what is computed without issues. -/
theorem typed_iff_computes {parent : ClassId}
    (inherits : ctx.hierarchy.parentOf? ctx.classId = some parent) {expr expr' : Expr} {type : Ty} :
    Typed ctx.env expr type expr' ↔ ctx.Computes expr type expr' := by
  constructor
  · exact computes_of_typed inherits
  · rintro ⟨clean, rfl, rfl⟩
    exact typed_of_issues inherits expr clean

end Context

end Bantam
