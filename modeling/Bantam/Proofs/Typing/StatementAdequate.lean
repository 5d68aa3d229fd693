import Bantam.Typing.Member
import Bantam.Proofs.Typing.ExpressionAdequate

/-! The checkers of statements and of members are their judgments as well. A statement is checked in
the scopes that are open around it; to the rules these are one environment, which only declarations
extend. -/
namespace Bantam
open Typing

namespace Context
variable {ctx : Context}

/-- The place is in a class below another one, and what is returned there can be returned. -/
structure Placed (ctx : Context) : Prop where
  inherits : ∃ parent, ctx.hierarchy.parentOf? ctx.classId = some parent
  returns : ctx.returns = .void ∨ ctx.hierarchy.hasType ctx.returns

theorem Placed.nested (placed : ctx.Placed) : ctx.nested.Placed := ⟨placed.inherits, placed.returns⟩

theorem Placed.inBody (placed : ctx.Placed) : ctx.inBody.Placed := ⟨placed.inherits, placed.returns⟩

theorem Placed.after (placed : ctx.Placed) (stmt : Stmt) : (ctx.after stmt).Placed := by
  unfold Context.after
  split
  · split
    · exact ⟨placed.inherits, placed.returns⟩
    · exact placed
  · exact placed

theorem Placed.typed_iff (placed : ctx.Placed) {expr expr' : Expr} {type : Ty} :
    Typed ctx.env expr type expr' ↔ ctx.Computes expr type expr' := by
  obtain ⟨parent, inherits⟩ := placed.inherits
  exact typed_iff_computes inherits

theorem Placed.typed (placed : ctx.Placed) {expr : Expr} (clean : ctx.issuesOf expr = []) :
    Typed ctx.env expr (ctx.typeOf expr) (ctx.annotate expr) :=
  placed.typed_iff.mpr ⟨clean, rfl, rfl⟩

@[simp] theorem env_nested : ctx.nested.env = ctx.env := by
  simp [env, nested, funext fun name => SymbolTable.lookupChain_push ctx.locals name]

@[simp] theorem env_inBody : ctx.inBody.env = ctx.env.inBody := by
  have same : ctx.nested.env = ctx.env := env_nested
  simp only [env, nested, Env.mk.injEq] at same
  simp [env, inBody, nested, Env.inBody, same]

theorem env_add (name : String) (type : Ty) :
    { ctx with locals := ctx.locals.add name type }.env = ctx.env.declare name type := by
  simp only [env, Env.declare, Env.mk.injEq, true_and, and_true]
  exact funext fun other => SymbolTable.lookupChain_add ctx.locals name other type

theorem declareVariable_eq_ok {name : String} {type : Ty} {locals : SymbolTable Ty} :
    ctx.declareVariable name type = .ok locals ↔ isReserved name = false ∧
      ctx.env.locals name = none ∧ ctx.locals.add name type = locals := by
  unfold declareVariable
  split
  · next reserved => simp [reserved]
  · next unreserved =>
    rw [Bool.not_eq_true] at unreserved
    split
    · next bound =>
      have bound : ctx.env.locals name ≠ none := Option.isSome_iff_ne_none.mp bound
      simp [bound]
    · next unbound =>
      have unbound : ctx.env.locals name = none := Option.not_isSome_iff_eq_none.mp unbound
      simp [unreserved, unbound]

theorem after_decl {span : Span} {type : Ty} {name : String} {init : Expr}
    {locals : SymbolTable Ty} (declared : ctx.declareVariable name type = .ok locals) :
    (ctx.after (.decl span type name init)).env = ctx.env.declare name type := by
  rw [after, declared]
  obtain ⟨-, -, rfl⟩ := declareVariable_eq_ok.mp declared
  exact env_add name type

theorem initializerIssues_eq_nil {type : Ty} {declared : Declared} {name : String} {init : Expr}
    (isType : ctx.env.IsValueType type) :
    ctx.initializerIssues type declared name init = [] ↔ ctx.env.Fits (ctx.typeOf init) type := by
  rw [initializerIssues, checkType_eq_ok.mpr ⟨isType, rfl⟩]
  exact Issue.ofCondition_eq_nil.trans conforms_eq_false

theorem conditionIssues_eq_nil {construct : Conditional} {condition : Expr} :
    ctx.conditionIssues construct condition = [] ↔
      ctx.issuesOf condition = [] ∧ ctx.typeOf condition = .boolean := by
  simp [conditionIssues]

theorem clauseIssues_eq_nil {clause : Clause} {expr : Option Expr} :
    ctx.clauseIssues clause expr = [] ↔
      ∀ inner ∈ expr, ctx.issuesOf inner = [] ∧ ctx.typeOf inner = .int := by
  cases expr <;> simp [clauseIssues]

theorem loopConditionIssues_eq_nil {condition : Option Expr} :
    (condition.map (ctx.conditionIssues .forLoop)).getD [] = [] ↔
      ∀ inner ∈ condition, ctx.issuesOf inner = [] ∧ ctx.typeOf inner = .boolean := by
  cases condition <;> simp [conditionIssues]

namespace Placed
variable (placed : ctx.Placed)
include placed

theorem typedAs {expr : Expr} {type : Ty} (clean : ctx.issuesOf expr = [])
    (isType : ctx.typeOf expr = type) : Typed ctx.env expr type (ctx.annotate expr) :=
  placed.typed_iff.mpr ⟨clean, isType, rfl⟩

theorem optional {expr : Option Expr} {type : Ty}
    (clean : ∀ inner ∈ expr, ctx.issuesOf inner = [] ∧ ctx.typeOf inner = type) :
    Optional ctx.env type expr (ctx.annotateOption expr) := by
  cases expr with
  | none => exact .missing
  | some inner =>
    obtain ⟨clean, isType⟩ := clean inner rfl
    exact .present (placed.typedAs clean isType)

theorem optional_computes {expr expr' : Option Expr} {type : Ty}
    (derived : Optional ctx.env type expr expr') :
    (∀ inner ∈ expr, ctx.issuesOf inner = [] ∧ ctx.typeOf inner = type) ∧
      ctx.annotateOption expr = expr' := by
  cases derived with
  | missing => exact ⟨by simp, rfl⟩
  | present typed =>
    obtain ⟨clean, isType, rfl⟩ := placed.typed_iff.mp typed
    refine ⟨fun inner isInner => ?_, rfl⟩
    cases isInner
    exact ⟨clean, isType⟩

theorem checked_giveBack {span : Span} {value : Option Expr}
    (clean : ctx.returnIssues span value = []) :
    Checked ctx.env (.giveBack span value) (.giveBack span (ctx.annotateOption value)) ctx.env := by
  cases value with
  | none =>
    rw [returnIssues, Issue.ofCondition_eq_nil, bne_eq_false_iff_eq] at clean
    exact .giveNothing clean
  | some value =>
    simp only [returnIssues, List.append_eq_nil_iff] at clean
    obtain ⟨cleanValue, fits⟩ := clean
    split at fits
    · contradiction
    · next notVoid =>
      -- A value is spared where the declared type does not exist, but here it does.
      have exists_ := placed.returns.resolve_left notVoid
      rw [Issue.ofCondition_eq_nil, exists_, Bool.true_and, conforms_eq_false] at fits
      exact .giveBack notVoid (placed.typed cleanValue) fits

theorem returnIssues_of_checked {span : Span} {value value' : Option Expr} {behind : Env}
    (derived : Checked ctx.env (.giveBack span value) (.giveBack span value') behind) :
    ctx.returnIssues span value = [] ∧ ctx.annotateOption value = value' := by
  cases derived with
  | giveNothing isVoid =>
    refine ⟨?_, rfl⟩
    rw [returnIssues, Issue.ofCondition_eq_nil, bne_eq_false_iff_eq]
    exact isVoid
  | giveBack notVoid typed fits =>
    obtain ⟨clean, rfl, rfl⟩ := placed.typed_iff.mp typed
    refine ⟨?_, rfl⟩
    have fits := conforms_eq_false.mpr fits
    simp only [returnIssues, clean, List.nil_append]
    rw [if_neg (show ctx.returns ≠ .void from notVoid), Issue.ofCondition_eq_nil]
    rw [show ctx.env.returns = ctx.returns from rfl] at fits
    rw [fits, Bool.and_false]

end Placed

mutual

/-- A statement without issues is right, in any place of a method whose return type exists. -/
theorem checked_of_issues {ctx : Context} (placed : ctx.Placed) (stmt : Stmt)
    (clean : ctx.issuesOfStmt stmt = []) :
    Checked ctx.env stmt (ctx.annotateStmt stmt) (ctx.after stmt).env :=
  match stmt with
  | .expr span value => .expr (placed.typed clean)
  | .decl span type name init => by
    simp only [issuesOfStmt, List.append_eq_nil_iff, Issue.ofOutcome_eq_nil] at clean
    obtain ⟨⟨⟨⟨checked, isChecked⟩, cleanInit⟩, fits⟩, locals, declared⟩ := clean
    obtain ⟨isType, rfl⟩ := checkType_eq_ok.mp isChecked
    obtain ⟨unreserved, unbound, -⟩ := declareVariable_eq_ok.mp declared
    rw [after_decl declared]
    exact .decl isType (placed.typed cleanInit) ((initializerIssues_eq_nil isType).mp fits)
      unreserved unbound
  | .block span body => by
    have inner := checkedAll_of_issues placed.nested body clean
    rw [env_nested] at inner
    exact .block inner
  | .branch span condition thenBranch none => by
    simp only [issuesOfStmt, List.append_eq_nil_iff, conditionIssues_eq_nil] at clean
    obtain ⟨⟨test, first⟩, -⟩ := clean
    have first := checked_of_issues placed.nested thenBranch first
    rw [env_nested] at first
    exact .branch (placed.typedAs test.1 test.2) first
  | .branch span condition thenBranch (some elseBranch) => by
    simp only [issuesOfStmt, issuesOfElse, List.append_eq_nil_iff, conditionIssues_eq_nil] at clean
    obtain ⟨⟨test, first⟩, second⟩ := clean
    have first := checked_of_issues placed.nested thenBranch first
    have second := checked_of_issues placed.nested elseBranch second
    rw [env_nested] at first second
    exact .branchElse (placed.typedAs test.1 test.2) first second
  | .whileLoop span condition body => by
    simp only [issuesOfStmt, List.append_eq_nil_iff, conditionIssues_eq_nil] at clean
    obtain ⟨test, inner⟩ := clean
    have inner := checked_of_issues placed.inBody body inner
    rw [env_inBody] at inner
    exact .whileLoop (placed.typedAs test.1 test.2) inner
  | .forLoop span init condition update body => by
    simp only [issuesOfStmt, List.append_eq_nil_iff, clauseIssues_eq_nil,
      loopConditionIssues_eq_nil] at clean
    obtain ⟨⟨⟨before, test⟩, after⟩, inner⟩ := clean
    have inner := checked_of_issues placed.inBody body inner
    rw [env_inBody] at inner
    exact .forLoop (placed.optional before) (placed.optional test) (placed.optional after) inner
  | .leave span => by
    rw [issuesOfStmt, Issue.ofCondition_eq_nil, Bool.not_eq_false'] at clean
    exact .leave clean
  | .giveBack span value => placed.checked_giveBack clean

theorem checkedAll_of_issues {ctx : Context} (placed : ctx.Placed) (stmts : List Stmt)
    (clean : ctx.issuesOfBlock stmts = []) :
    CheckedAll ctx.env stmts (ctx.annotateBlock stmts) :=
  match stmts with
  | [] => .nil
  | stmt :: rest => by
    rw [issuesOfBlock, List.append_eq_nil_iff] at clean
    exact .cons (checked_of_issues placed stmt clean.1)
      (checkedAll_of_issues (placed.after stmt) rest clean.2)

end

def ComputesStmt (ctx : Context) (stmt stmt' : Stmt) (behind : Env) : Prop :=
  ctx.issuesOfStmt stmt = [] ∧ ctx.annotateStmt stmt = stmt' ∧ (ctx.after stmt).env = behind

theorem Placed.computes_decl (placed : ctx.Placed) {span : Span} {type actual : Ty} {name : String}
    {init init' : Expr} (isType : ctx.env.IsValueType type)
    (typed : Typed ctx.env init actual init') (fits : ctx.env.Fits actual type)
    (unreserved : isReserved name = false) (unbound : ctx.env.locals name = none) :
    ctx.ComputesStmt (.decl span type name init) (.decl span type name init')
      (ctx.env.declare name type) := by
  obtain ⟨clean, rfl, rfl⟩ := placed.typed_iff.mp typed
  have declared : ctx.declareVariable name type = .ok (ctx.locals.add name type) :=
    declareVariable_eq_ok.mpr ⟨unreserved, unbound, rfl⟩
  refine ⟨?_, rfl, after_decl declared⟩
  simp only [issuesOfStmt, List.append_eq_nil_iff, Issue.ofOutcome_eq_nil]
  exact ⟨⟨⟨⟨_, checkType_eq_ok.mpr ⟨isType, rfl⟩⟩, clean⟩,
    (initializerIssues_eq_nil isType).mpr fits⟩, _, declared⟩

mutual

/-- Whatever is right is computed, without issues, in every place with the environment. -/
theorem computes_of_checked {env behind : Env} {stmt stmt' : Stmt} :
    Checked env stmt stmt' behind → ∀ {ctx : Context}, ctx.env = env → ctx.Placed →
      ctx.ComputesStmt stmt stmt' behind
  | .expr typed, _, rfl, placed => by
    obtain ⟨clean, -, rfl⟩ := placed.typed_iff.mp typed
    exact ⟨clean, rfl, rfl⟩
  | .decl isType typed fits unreserved unbound, _, same, placed => by
    subst same
    exact placed.computes_decl isType typed fits unreserved unbound
  | .block inner, _, rfl, placed => by
    obtain ⟨clean, rfl⟩ := computes_of_checkedAll inner env_nested placed.nested
    exact ⟨clean, rfl, rfl⟩
  | .branch test first, _, rfl, placed => by
    obtain ⟨cleanTest, isBoolean, rfl⟩ := placed.typed_iff.mp test
    obtain ⟨clean, rfl, -⟩ := computes_of_checked first env_nested placed.nested
    refine ⟨?_, rfl, rfl⟩
    simp only [issuesOfStmt, issuesOfElse, List.append_eq_nil_iff, conditionIssues_eq_nil]
    exact ⟨⟨⟨cleanTest, isBoolean⟩, clean⟩, trivial⟩
  | .branchElse test first second, _, rfl, placed => by
    obtain ⟨cleanTest, isBoolean, rfl⟩ := placed.typed_iff.mp test
    obtain ⟨clean, rfl, -⟩ := computes_of_checked first env_nested placed.nested
    obtain ⟨cleanElse, rfl, -⟩ := computes_of_checked second env_nested placed.nested
    refine ⟨?_, rfl, rfl⟩
    simp only [issuesOfStmt, issuesOfElse, List.append_eq_nil_iff, conditionIssues_eq_nil]
    exact ⟨⟨⟨cleanTest, isBoolean⟩, clean⟩, cleanElse⟩
  | .whileLoop test inner, _, rfl, placed => by
    obtain ⟨cleanTest, isBoolean, rfl⟩ := placed.typed_iff.mp test
    obtain ⟨clean, rfl, -⟩ := computes_of_checked inner env_inBody placed.inBody
    refine ⟨?_, rfl, rfl⟩
    simp only [issuesOfStmt, List.append_eq_nil_iff, conditionIssues_eq_nil]
    exact ⟨⟨cleanTest, isBoolean⟩, clean⟩
  | .forLoop before test after inner, _, rfl, placed => by
    obtain ⟨cleanBefore, rfl⟩ := placed.optional_computes before
    obtain ⟨cleanTest, rfl⟩ := placed.optional_computes test
    obtain ⟨cleanAfter, rfl⟩ := placed.optional_computes after
    obtain ⟨clean, rfl, -⟩ := computes_of_checked inner env_inBody placed.inBody
    refine ⟨?_, rfl, rfl⟩
    simp only [issuesOfStmt, List.append_eq_nil_iff, clauseIssues_eq_nil,
      loopConditionIssues_eq_nil]
    exact ⟨⟨⟨cleanBefore, cleanTest⟩, cleanAfter⟩, clean⟩
  | .leave inLoop, _, rfl, _ => by
    refine ⟨?_, rfl, rfl⟩
    rw [issuesOfStmt, Issue.ofCondition_eq_nil, Bool.not_eq_false']
    exact inLoop
  | .giveNothing isVoid, _, rfl, placed => by
    obtain ⟨clean, -⟩ := placed.returnIssues_of_checked (.giveNothing isVoid)
    exact ⟨clean, rfl, rfl⟩
  | .giveBack notVoid typed fits, _, rfl, placed => by
    obtain ⟨clean, annotated⟩ := placed.returnIssues_of_checked (.giveBack notVoid typed fits)
    exact ⟨clean, by rw [annotateStmt, annotated], rfl⟩

theorem computes_of_checkedAll {env : Env} {stmts stmts' : List Stmt} :
    CheckedAll env stmts stmts' → ∀ {ctx : Context}, ctx.env = env → ctx.Placed →
      ctx.issuesOfBlock stmts = [] ∧ ctx.annotateBlock stmts = stmts'
  | .nil, _, _, _ => ⟨rfl, rfl⟩
  | .cons first others, ctx, same, placed => by
    obtain ⟨clean, rfl, behind⟩ := computes_of_checked first same placed
    obtain ⟨cleanOthers, rfl⟩ := computes_of_checkedAll others behind (placed.after _)
    refine ⟨?_, rfl⟩
    rw [issuesOfBlock, clean, cleanOthers]
    rfl

end

theorem checkedAll_iff {ctx : Context} (placed : ctx.Placed) {stmts stmts' : List Stmt} :
    CheckedAll ctx.env stmts stmts' ↔
      ctx.issuesOfBlock stmts = [] ∧ ctx.annotateBlock stmts = stmts' := by
  constructor
  · exact fun derived => computes_of_checkedAll derived rfl placed
  · rintro ⟨clean, rfl⟩
    exact checkedAll_of_issues placed stmts clean

end Context

end Bantam
