import Bantam.Typing.Expression
import Bantam.Proofs.Typing.Rules

/-! Expressions without issues have derivations, for the types and the annotations that are
computed. The types that stand in after an error are never those of an expression without issues. -/
namespace Bantam
open Typing

namespace Expr

/-- The expressions just below an expression. -/
def parts : Expr → List Expr
  | int .. | bool .. | string .. | new .. => []
  | var _ qualifier _ index => qualifier.toList ++ index.toList
  | assign _ qualifier _ index value => qualifier.toList ++ index.toList ++ [value]
  | call _ receiver _ arguments => receiver.toList ++ arguments
  | newArray _ _ size => [size]
  | instanceOf _ operand _ | cast _ _ operand | unary _ _ operand => [operand]
  | binary _ _ left right => [left, right]

theorem sizeOf_lt_of_mem_toList {part : Expr} {inner : Option Expr} (within : part ∈ inner.toList) :
    sizeOf part < sizeOf inner := by
  rw [Option.mem_toList] at within
  cases within
  simp

theorem sizeOf_lt_of_mem_parts {part expr : Expr} (within : part ∈ expr.parts) :
    sizeOf part < sizeOf expr := by
  cases expr with
  | int | bool | string | new => contradiction
  | var info qualifier name index =>
    rw [var.sizeOf_spec]
    rcases List.mem_append.mp within with before | position
    · have := sizeOf_lt_of_mem_toList before; omega
    · have := sizeOf_lt_of_mem_toList position; omega
  | assign info qualifier name index value =>
    rw [assign.sizeOf_spec]
    simp only [parts, List.append_assoc, List.mem_append, List.mem_singleton] at within
    rcases within with before | position | rfl
    · have := sizeOf_lt_of_mem_toList before; omega
    · have := sizeOf_lt_of_mem_toList position; omega
    · omega
  | call info receiver name arguments =>
    rw [call.sizeOf_spec]
    rcases List.mem_append.mp within with before | given
    · have := sizeOf_lt_of_mem_toList before; omega
    · have := List.sizeOf_lt_of_mem given; omega
  | newArray | instanceOf | cast | unary =>
    cases List.mem_singleton.mp within
    simp only [newArray.sizeOf_spec, instanceOf.sizeOf_spec, cast.sizeOf_spec, unary.sizeOf_spec]
    omega
  | binary info op left right =>
    rw [binary.sizeOf_spec]
    simp only [parts, List.mem_cons, List.not_mem_nil, or_false] at within
    rcases within with rfl | rfl <;> omega

/-- What holds of an expression whenever it holds of its parts holds of every expression. -/
theorem byParts {holds : Expr → Prop}
    (step : ∀ expr, (∀ part ∈ expr.parts, holds part) → holds expr) (expr : Expr) : holds expr :=
  step expr fun part _ => byParts step part
termination_by sizeOf expr
decreasing_by exact sizeOf_lt_of_mem_parts ‹_›

end Expr

namespace BinaryOp

theorem types_of_isArithmetic {op : BinaryOp} (isArithmetic : op.isArithmetic) :
    op.operandType? = some .int ∧ op.resultType = .int := by
  cases op <;> first | contradiction | exact ⟨rfl, rfl⟩

theorem types_of_isRelational {op : BinaryOp} (isRelational : op.isRelational) :
    op.operandType? = some .int ∧ op.resultType = .boolean := by
  cases op <;> first | contradiction | exact ⟨rfl, rfl⟩

theorem types_of_isLogical {op : BinaryOp} (isLogical : op.isLogical) :
    op.operandType? = some .boolean ∧ op.resultType = .boolean := by
  cases op <;> first | contradiction | exact ⟨rfl, rfl⟩

theorem types_of_isEquality {op : BinaryOp} (isEquality : op.isEquality) :
    op.operandType? = none ∧ op.resultType = .boolean := by
  cases op <;> first | contradiction | exact ⟨rfl, rfl⟩

end BinaryOp

theorem UnaryOp.type_of_isIncrement {op : UnaryOp} (isIncrement : op.isIncrement) :
    op.type = .int := by
  cases op <;> first | contradiction | rfl

namespace Issue
variable {span : Span}

@[simp] theorem ofCondition_eq_nil {wrong : Bool} {error : SemanticError} :
    ofCondition wrong span error = [] ↔ wrong = false := by
  cases wrong <;> simp [ofCondition]

@[simp] theorem ofOutcome_eq_nil {α : Type} {outcome : Except SemanticError α} :
    ofOutcome span outcome = [] ↔ ∃ value, outcome = .ok value := by
  cases outcome <;> simp [ofOutcome]

end Issue

namespace Context
variable {ctx : Context}

/-- The place as the typing rules see it. -/
def env (ctx : Context) : Env where
  hierarchy := ctx.hierarchy
  self := ctx.classId
  locals := ctx.locals.lookupChain
  returns := ctx.returns
  inLoop := ctx.inLoop

theorem checkType_eq_ok {type checked : Ty} :
    ctx.checkType type = .ok checked ↔ ctx.env.IsValueType type ∧ type = checked := by
  unfold checkType Env.IsValueType
  split
  · next isVoid => simp [isVoid]
  · next notVoid =>
    split
    · next exists_ => simp [notVoid, env, exists_]
    · next unknown => simp [env, unknown]

theorem resolveClass_eq_ok {name : String} {type : Ty} :
    ctx.resolveClass name = .ok type ↔
      (ctx.env.hierarchy.idOf? name).isSome ∧ .named name = type := by
  unfold resolveClass
  split
  · next found => simp [env, found]
  · next missing => simp [env, missing]

section Names

theorem mem_specialNames {name : String} :
    name ∈ specialNames ↔ name = "this" ∨ name = "super" ∨ name = "null" := by
  simp [specialNames]

theorem resolveName_eq_ok {parent : ClassId}
    (inherits : ctx.hierarchy.parentOf? ctx.classId = some parent) {name : String} {type : Ty} :
    ctx.resolveName name = .ok type ↔
      Special ctx.env name type ∨ Typing.Variable ctx.env name type := by
  constructor
  · intro resolved
    unfold resolveName at resolved
    split at resolved
    · next isThis => cases resolved; subst isThis; exact .inl .this
    split at resolved
    · next isSuper =>
      cases resolved
      subst isSuper
      rw [parentName, inherits]
      exact .inl (.super inherits)
    split at resolved
    · next isNull => cases resolved; subst isNull; exact .inl .null
    · next notThis notSuper notNull =>
      have ordinary : name ∉ specialNames := by
        rw [mem_specialNames]
        simp [notThis, notSuper, notNull]
      split at resolved
      · next found =>
        cases resolved
        cases isLocal : ctx.locals.lookupChain name with
        | some value =>
          rw [isLocal] at found
          cases found
          exact .inr (.inScope ordinary isLocal)
        | none =>
          rw [isLocal] at found
          exact .inr (.field ordinary isLocal found)
      · contradiction
  · rintro (special | ordinary)
    · cases special with
      | this => rfl
      | super extends_ =>
        have same := inherits.symm.trans extends_
        cases same
        simp [resolveName, parentName, inherits, env]
      | null => rfl
    · have resolve (ordinary : name ∉ specialNames)
          (found : (ctx.locals.lookupChain name <|> ctx.hierarchy.lookupField ctx.classId name) =
            some type) : ctx.resolveName name = .ok type := by
        rw [mem_specialNames] at ordinary
        simp only [not_or] at ordinary
        rw [resolveName, if_neg ordinary.1, if_neg ordinary.2.1, if_neg ordinary.2.2, found]
      cases ordinary with
      | inScope ordinary found =>
        refine resolve ordinary ?_
        rw [show ctx.locals.lookupChain name = some type from found]
        rfl
      | field ordinary unhidden inherits =>
        refine resolve ordinary ?_
        rw [show ctx.locals.lookupChain name = none from unhidden]
        exact inherits

end Names

theorem bareName?_eq_some {expr : Expr} {word : String} (bare : expr.bareName? = some word) :
    ∃ info, expr = .var info none word none := by
  unfold Expr.bareName? at bare
  split at bare
  · cases bare
    exact ⟨_, rfl⟩
  · contradiction

theorem ownerOf?_eq_some {qualifier : Qualifier} {owner : ClassId} :
    ctx.ownerOf? qualifier = some owner ↔
      ∃ word, qualifier.name = some word ∧ Owner ctx.env word owner := by
  unfold ownerOf?
  constructor
  · intro owns
    split at owns
    · next isThis => cases owns; exact ⟨"this", isThis, .this⟩
    split at owns
    · next isSuper => exact ⟨"super", isSuper, .super owns⟩
    · contradiction
  · rintro ⟨word, named, owns⟩
    cases owns with
    | this => rw [if_pos named]; rfl
    | super inherits =>
      rw [if_neg (by simp [named]), if_pos named]
      exact inherits

/-- A qualifier that selects fields is `this` or `super`, of which neither is an array. -/
theorem not_isArray_of_owns {expr : Expr} {owner : ClassId}
    (owns : ctx.ownerOf? ⟨expr.bareName?, ctx.typeOf expr⟩ = some owner) :
    (ctx.typeOf expr).isArray = false := by
  obtain ⟨word, bare, means⟩ := ownerOf?_eq_some.mp owns
  obtain ⟨info, rfl⟩ := bareName?_eq_some bare
  cases means <;> rfl

theorem exists_array {type : Ty} (isArray : type.isArray) : ∃ element, type = .array element := by
  cases type with
  | named => contradiction
  | array element => exact ⟨element, rfl⟩

section Selections
variable {parent : ClassId} (inherits : ctx.hierarchy.parentOf? ctx.classId = some parent)
include inherits

/-- What resolves without an issue is selected by the rules. -/
theorem selected_of_resolved {qualifier : Option Expr} {name : String} {writing indexed : Bool}
    {type : Ty}
    (before : ∀ expr ∈ qualifier, Typed ctx.env expr (ctx.typeOf expr) (ctx.annotate expr))
    (resolved : ctx.resolveVariable (ctx.qualifierOf qualifier) name indexed = .ok type)
    (writable : (writing && isReadOnly (ctx.qualifierOf qualifier) name indexed) = false)
    (element : indexed → type.isArray) :
    Selected ctx.env writing indexed qualifier name type (ctx.annotateOption qualifier) := by
  cases qualifier with
  | none =>
    rcases (resolveName_eq_ok inherits).mp resolved with special | ordinary
    -- Special names are no arrays, so they are never written to through an index.
    · have reading : writing = false := by
        cases indexed with
        | true => rw [special.not_isArray] at element; simp at element
        | false =>
          have readOnly : isReadOnly (ctx.qualifierOf none) name false := by
            cases special <;> rfl
          rwa [readOnly, Bool.and_true] at writable
      rw [reading]
      exact .special special
    · exact .plain ordinary
  | some expr =>
    have typed := before expr rfl
    simp only [qualifierOf, resolveVariable, resolveField] at resolved
    split at resolved
    · next owner owns =>
      split at resolved
      · next found =>
        cases resolved
        obtain ⟨word, bare, means⟩ := ownerOf?_eq_some.mp owns
        obtain ⟨info, rfl⟩ := bareName?_eq_some bare
        cases bare
        exact .field typed means found
      · contradiction
    · split at resolved
      · next isLength =>
        cases resolved
        simp only [Bool.and_eq_true, beq_iff_eq, Bool.not_eq_true'] at isLength
        obtain ⟨⟨isArray, rfl⟩, rfl⟩ := isLength
        have reading : writing = false := by simpa [isReadOnly, qualifierOf, isArray] using writable
        obtain ⟨content, isContent⟩ := exists_array isArray
        rw [reading]
        rw [isContent] at typed
        exact .length typed
      · contradiction

end Selections

theorem issuesOfOption_eq_nil {expr : Option Expr} :
    ctx.issuesOfOption expr = [] ↔ ∀ inner ∈ expr, ctx.issuesOf inner = [] := by
  cases expr <;> simp [issuesOfOption]

theorem issuesOfList_eq_nil {exprs : List Expr} :
    ctx.issuesOfList exprs = [] ↔ ∀ expr ∈ exprs, ctx.issuesOf expr = [] := by
  induction exprs with
  | nil => simp [issuesOfList]
  | cons expr rest ih => simp [issuesOfList, ih]

theorem conforms_eq_false {actual expected : Ty} :
    (!ctx.conforms actual expected) = false ↔ ctx.env.Fits actual expected := by
  rw [Bool.not_eq_false']
  rfl

theorem related_eq_false {left right : Ty} :
    (!ctx.conforms left right && !ctx.conforms right left) = false ↔
      ctx.env.Related left right := by
  rw [Bool.and_eq_false_iff, conforms_eq_false, conforms_eq_false]
  rfl

theorem arguments_of_issues {method : String} {position : Nat} {types : List Ty}
    {arguments : List Expr}
    (typed : ∀ expr ∈ arguments, Typed ctx.env expr (ctx.typeOf expr) (ctx.annotate expr))
    (count : types.length = arguments.length)
    (clean : ctx.argumentIssues method position types arguments = []) :
    Arguments ctx.env types arguments (ctx.annotateList arguments) := by
  induction types generalizing arguments position with
  | nil =>
    rw [List.length_nil] at count
    rw [List.length_eq_zero_iff.mp count.symm]
    exact .nil
  | cons expected types ih =>
    obtain ⟨argument, rest, rfl⟩ := List.exists_cons_of_length_eq_add_one count.symm
    simp only [argumentIssues, List.append_eq_nil_iff, Issue.ofCondition_eq_nil,
      conforms_eq_false] at clean
    rw [List.forall_mem_cons] at typed
    exact .cons typed.1 clean.1 (ih typed.2 (Nat.succ.inj count) clean.2)

theorem receiver_of_issues {receiver : Option Expr} {method : String}
    (typed : ∀ expr ∈ receiver, Typed ctx.env expr (ctx.typeOf expr) (ctx.annotate expr))
    (clean : ctx.receiverIssues method receiver = []) :
    ∃ owner, ctx.receiverClass? ((ctx.qualifierOf receiver).map Qualifier.type) = some owner ∧
      Receiver ctx.env receiver owner (ctx.annotateOption receiver) := by
  cases receiver with
  | none => exact ⟨ctx.classId, rfl, .own⟩
  | some expr =>
    rw [receiverIssues, Issue.ofCondition_eq_nil, Option.isNone_eq_false_iff,
      Option.isSome_iff_exists] at clean
    obtain ⟨owner, isClass⟩ := clean
    exact ⟨owner, isClass, .object (typed expr rfl) isClass⟩

theorem tested_of_issues {span : Span} {actual type : Ty}
    (clean : ctx.testIssues span actual type = []) :
    ctx.env.IsValueType type ∧ ctx.env.Fits actual type := by
  unfold testIssues at clean
  split at clean
  · contradiction
  · next checked =>
    rw [Issue.ofCondition_eq_nil, conforms_eq_false] at clean
    exact ⟨(checkType_eq_ok.mp checked).1, clean⟩

theorem converted_of_issues {span : Span} {actual type : Ty}
    (clean : ctx.castIssues span actual type = []) :
    ctx.env.IsValueType type ∧ ctx.env.Related actual type := by
  unfold castIssues at clean
  split at clean
  · contradiction
  · next checked =>
    rw [Issue.ofCondition_eq_nil, related_eq_false] at clean
    exact ⟨(checkType_eq_ok.mp checked).1, clean⟩

/-- Every binary operator is of one sort, which decides what it asks of its operands. -/
theorem binary_of_issues {info : Info} {op : BinaryOp} {left right : Expr}
    (first : Typed ctx.env left (ctx.typeOf left) (ctx.annotate left))
    (second : Typed ctx.env right (ctx.typeOf right) (ctx.annotate right))
    (clean : ctx.binaryIssues info.span op (ctx.typeOf left) (ctx.typeOf right) = []) :
    Typed ctx.env (.binary info op left right) (ctx.typeOf (.binary info op left right))
      (ctx.annotate (.binary info op left right)) := by
  unfold binaryIssues at clean
  split at clean
  · next anyOperands =>
    rw [Issue.ofCondition_eq_nil, related_eq_false] at clean
    cases op <;> first | contradiction | exact .equality rfl first second clean
  · next expected operands =>
    simp only [Issue.ofCondition_eq_nil, Bool.or_eq_false_iff, bne_eq_false_iff_eq] at clean
    rw [clean.1] at first
    rw [clean.2] at second
    cases op <;> cases operands <;> first
      | exact .arithmetic rfl first second
      | exact .relational rfl first second
      | exact .logical rfl first second

theorem unary_of_issues {info : Info} {op : UnaryOp} {operand : Expr}
    (typed : Typed ctx.env operand (ctx.typeOf operand) (ctx.annotate operand))
    (clean : ctx.unaryIssues info.span op operand = []) :
    Typed ctx.env (.unary info op operand) (ctx.typeOf (.unary info op operand))
      (ctx.annotate (.unary info op operand)) := by
  simp only [unaryIssues, List.append_eq_nil_iff, Issue.ofCondition_eq_nil,
    bne_eq_false_iff_eq] at clean
  obtain ⟨isVariable, isType⟩ := clean
  rw [isType] at typed
  cases op with
  | neg => exact .neg typed
  | not => exact .not typed
  | preInc | preDec | postInc | postDec =>
    rw [UnaryOp.isIncrement, Bool.true_and, Bool.not_eq_false'] at isVariable
    exact .step rfl isVariable typed

section Derivations
variable {parent : ClassId} (inherits : ctx.hierarchy.parentOf? ctx.classId = some parent)
include inherits

theorem named_of_issues {span : Span} {qualifier index : Option Expr} {name : String}
    {writing : Bool}
    (before : ∀ expr ∈ qualifier, Typed ctx.env expr (ctx.typeOf expr) (ctx.annotate expr))
    (position : ∀ expr ∈ index, Typed ctx.env expr (ctx.typeOf expr) (ctx.annotate expr))
    (named : ctx.nameIssues span qualifier name index.isSome writing = [])
    (indexed : ctx.indexIssues span qualifier name index = []) :
    Named ctx.env writing qualifier name index
      (ctx.variableType (ctx.qualifierOf qualifier) name index.isSome)
      (ctx.annotateOption qualifier) (ctx.annotateOption index) := by
  simp only [nameIssues, List.append_eq_nil_iff, Issue.ofCondition_eq_nil,
    Issue.ofOutcome_eq_nil] at named
  obtain ⟨writable, type, resolved⟩ := named
  cases index with
  | none =>
    rw [Option.isSome_none] at writable resolved ⊢
    have selected := selected_of_resolved inherits before resolved writable (by simp)
    simp only [variableType, resolved, orObject]
    exact .whole selected
  | some index =>
    rw [Option.isSome_some] at writable resolved ⊢
    simp only [indexIssues, resolved, orObject, List.append_eq_nil_iff, Issue.ofCondition_eq_nil,
      bne_eq_false_iff_eq, Bool.not_eq_false'] at indexed
    obtain ⟨isInt, isArray⟩ := indexed
    have selected := selected_of_resolved inherits before resolved writable fun _ => isArray
    obtain ⟨element, rfl⟩ := exists_array isArray
    simp only [variableType, resolved, orObject]
    have typed := position index rfl
    rw [isInt] at typed
    exact .element selected typed

/-- An expression without issues has a derivation, for the type and the annotations that are
computed. -/
theorem typed_of_issues (expr : Expr) (clean : ctx.issuesOf expr = []) :
    Typed ctx.env expr (ctx.typeOf expr) (ctx.annotate expr) := by
  -- Parts stand in options and lists, where the recursor of expressions gives no hypothesis.
  induction expr using Expr.byParts with | step expr ih =>
  have ofOption {inner : Option Expr} (within : ∀ part ∈ inner, part ∈ expr.parts)
      (clean : ctx.issuesOfOption inner = []) :
      ∀ part ∈ inner, Typed ctx.env part (ctx.typeOf part) (ctx.annotate part) :=
    fun part isPart => ih part (within part isPart) (issuesOfOption_eq_nil.mp clean part isPart)
  cases expr with
  | int info value => exact .int
  | bool info value => exact .bool
  | string info text => exact .string
  | var info qualifier name index =>
    simp only [issuesOf, List.append_eq_nil_iff] at clean
    obtain ⟨⟨⟨before, named⟩, position⟩, indexed⟩ := clean
    have before := ofOption (by simp +contextual [Expr.parts]) before
    have position := ofOption (by simp +contextual [Expr.parts]) position
    exact .var (named_of_issues inherits before position named indexed)
  | assign info qualifier name index value =>
    simp only [issuesOf, List.append_eq_nil_iff, Issue.ofCondition_eq_nil,
      conforms_eq_false] at clean
    obtain ⟨⟨⟨⟨⟨before, named⟩, position⟩, indexed⟩, given⟩, fits⟩ := clean
    have before := ofOption (by simp +contextual [Expr.parts]) before
    have position := ofOption (by simp +contextual [Expr.parts]) position
    have given := ih value (by simp [Expr.parts]) given
    exact .assign (named_of_issues inherits before position named indexed) given fits
  | call info receiver method arguments =>
    simp only [issuesOf, List.append_eq_nil_iff] at clean
    obtain ⟨⟨⟨before, isObject⟩, inside⟩, called⟩ := clean
    have before := ofOption (by simp +contextual [Expr.parts]) before
    have inside (argument : Expr) (isArgument : argument ∈ arguments) :=
      ih argument (by simp [Expr.parts, isArgument])
        (issuesOfList_eq_nil.mp inside argument isArgument)
    obtain ⟨owner, known, receives⟩ := receiver_of_issues before isObject
    rw [callIssues, known] at called
    dsimp only at called
    split at called
    · contradiction
    · next signature found =>
      split at called
      · contradiction
      · next count =>
        have given := arguments_of_issues inside (not_not.mp count) called
        have type : ctx.typeOf (.call info receiver method arguments) = signature.returns := by
          simp [typeOf, callType, calledMethod?, known, found]
        simp only [type, annotate]
        exact .call receives found given
  | new info name =>
    simp only [issuesOf, Issue.ofOutcome_eq_nil, resolveClass_eq_ok] at clean
    obtain ⟨type, isClass, rfl⟩ := clean
    have type : ctx.typeOf (.new info name) = .named name := by
      rw [typeOf, resolveClass_eq_ok.mpr ⟨isClass, rfl⟩, orObject]
    simp only [type, annotate]
    exact .new isClass
  | newArray info element size =>
    simp only [issuesOf, List.append_eq_nil_iff, Issue.ofCondition_eq_nil, Issue.ofOutcome_eq_nil,
      bne_eq_false_iff_eq, checkType_eq_ok] at clean
    obtain ⟨⟨sized, isInt⟩, type, isType, rfl⟩ := clean
    have type : ctx.typeOf (.newArray info element size) = .array (.named element) := by
      rw [typeOf, checkType_eq_ok.mpr ⟨isType, rfl⟩]
      rfl
    have typed := ih size (by simp [Expr.parts]) sized
    rw [isInt] at typed
    simp only [type, annotate]
    exact .newArray typed isType
  | instanceOf info operand type =>
    simp only [issuesOf, List.append_eq_nil_iff] at clean
    obtain ⟨isType, fits⟩ := tested_of_issues clean.2
    have tested := ih operand (by simp [Expr.parts]) clean.1
    exact .instanceOf tested isType fits
  | cast info type operand =>
    simp only [issuesOf, List.append_eq_nil_iff] at clean
    obtain ⟨isType, related⟩ := converted_of_issues clean.2
    have result : ctx.typeOf (.cast info type operand) = type := by
      rw [typeOf, checkType_eq_ok.mpr ⟨isType, rfl⟩, orObject]
    have converted := ih operand (by simp [Expr.parts]) clean.1
    simp only [result, annotate]
    exact .cast converted isType related
  | binary info op left right =>
    simp only [issuesOf, List.append_eq_nil_iff] at clean
    obtain ⟨⟨cleanLeft, cleanRight⟩, operands⟩ := clean
    have first := ih left (by simp [Expr.parts]) cleanLeft
    have second := ih right (by simp [Expr.parts]) cleanRight
    exact binary_of_issues first second operands
  | unary info op operand =>
    simp only [issuesOf, List.append_eq_nil_iff] at clean
    have inner := ih operand (by simp [Expr.parts]) clean.1
    exact unary_of_issues inner clean.2

end Derivations

end Context

end Bantam
