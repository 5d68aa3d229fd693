import Bantam.Proofs.Syntax.Marks
import Bantam.Proofs.Typing.SeparateChecking

/-! Types that are known already. An analysis writes the types of expressions into the program, and
reads none that were written before: it finds the same in a program, wherever the types of some
expressions are known, as in that program without any types. -/
namespace Bantam

/-- Forgets the types of expressions, and leaves everything where it stands. -/
def Marking.untyped : Marking where
  span := id
  info := fun info => { info with type := none }

@[simp] theorem Marking.span_untyped (span : Span) : untyped.span span = span := rfl

@[simp] theorem Marking.info_untyped (info : Info) : (untyped.info info).span = info.span := rfl

@[simp] theorem Expr.span_untyped (expr : Expr) : (expr.mark .untyped).span = expr.span := by
  rw [span, span, info_mark]
  rfl

namespace Context

mutual

theorem typeOf_untyped (ctx : Context) :
    ∀ expr : Expr, ctx.typeOf (expr.mark .untyped) = ctx.typeOf expr
  | .int .. | .bool .. | .string .. | .new .. | .newArray .. | .instanceOf .. | .cast ..
  | .binary .. | .unary .. => rfl
  | .var _ qualifier _ _ | .assign _ qualifier _ _ _ => by
    simp only [Expr.mark, typeOf, ctx.qualifierOf_untyped qualifier, Expr.isSome_markOption]
  | .call _ receiver _ _ => by
    simp only [Expr.mark, typeOf, ctx.qualifierOf_untyped receiver]

theorem qualifierOf_untyped (ctx : Context) : ∀ expr : Option Expr,
    ctx.qualifierOf (Expr.markOption .untyped expr) = ctx.qualifierOf expr
  | none => rfl
  | some expr => by
    simp only [Expr.markOption, qualifierOf, Expr.bareName?_mark, ctx.typeOf_untyped expr]

end

section Issues
variable (ctx : Context) {span : Span}

theorem nameIssues_untyped (qualifier : Option Expr) (name : String) (indexed writing : Bool) :
    ctx.nameIssues span (Expr.markOption .untyped qualifier) name indexed writing =
      ctx.nameIssues span qualifier name indexed writing := by
  simp only [nameIssues, ctx.qualifierOf_untyped]

theorem indexIssues_untyped (qualifier : Option Expr) (name : String) (index : Option Expr) :
    ctx.indexIssues span (Expr.markOption .untyped qualifier) name
      (Expr.markOption .untyped index) = ctx.indexIssues span qualifier name index := by
  cases index with
  | none => rfl
  | some index =>
    simp only [Expr.markOption, indexIssues, ctx.qualifierOf_untyped, ctx.typeOf_untyped,
      Expr.span_untyped]

theorem receiverIssues_untyped (method : String) (receiver : Option Expr) :
    ctx.receiverIssues method (Expr.markOption .untyped receiver) =
      ctx.receiverIssues method receiver := by
  cases receiver with
  | none => rfl
  | some receiver =>
    simp only [Expr.markOption, receiverIssues, ctx.typeOf_untyped, Expr.span_untyped]

theorem argumentIssues_untyped (method : String) (position : Nat) (types : List Ty)
    (arguments : List Expr) :
    ctx.argumentIssues method position types (Expr.markList .untyped arguments) =
      ctx.argumentIssues method position types arguments := by
  induction types generalizing position arguments with
  | nil => rfl
  | cons expected types ih =>
    cases arguments with
    | nil => rfl
    | cons argument arguments =>
      simp only [Expr.markList, argumentIssues, ctx.typeOf_untyped, Expr.span_untyped, ih]

theorem callIssues_untyped (receiver : Option Expr) (method : String) (arguments : List Expr) :
    ctx.callIssues span (Expr.markOption .untyped receiver) method
      (Expr.markList .untyped arguments) = ctx.callIssues span receiver method arguments := by
  simp only [callIssues, ctx.qualifierOf_untyped, ctx.argumentIssues_untyped,
    Expr.length_markList]

theorem unaryIssues_untyped (op : UnaryOp) (operand : Expr) :
    ctx.unaryIssues span op (operand.mark .untyped) = ctx.unaryIssues span op operand := by
  simp only [unaryIssues, ctx.typeOf_untyped, Expr.isVar_mark]

end Issues

mutual

theorem issuesOf_untyped (ctx : Context) :
    ∀ expr : Expr, ctx.issuesOf (expr.mark .untyped) = ctx.issuesOf expr
  | .int .. | .bool .. | .string .. | .new .. => rfl
  | .var _ qualifier _ index => by
    simp only [Expr.mark, issuesOf, Marking.info_untyped, ctx.issuesOfOption_untyped qualifier,
      ctx.issuesOfOption_untyped index, ctx.nameIssues_untyped, ctx.indexIssues_untyped,
      Expr.isSome_markOption]
  | .assign _ qualifier _ index value => by
    simp only [Expr.mark, issuesOf, ctx.issuesOfOption_untyped qualifier,
      ctx.issuesOfOption_untyped index, ctx.issuesOf_untyped value, ctx.nameIssues_untyped,
      ctx.indexIssues_untyped, ctx.qualifierOf_untyped, ctx.typeOf_untyped, Expr.span_untyped,
      Marking.info_untyped, Expr.isSome_markOption]
  | .call _ receiver _ arguments => by
    simp only [Expr.mark, issuesOf, ctx.issuesOfOption_untyped receiver,
      ctx.issuesOfList_untyped arguments, ctx.receiverIssues_untyped, ctx.callIssues_untyped,
      Marking.info_untyped]
  | .newArray _ _ size => by
    simp only [Expr.mark, issuesOf, ctx.issuesOf_untyped size, ctx.typeOf_untyped,
      Expr.span_untyped, Marking.info_untyped]
  | .instanceOf _ operand _ | .cast _ _ operand => by
    simp only [Expr.mark, issuesOf, ctx.issuesOf_untyped operand, ctx.typeOf_untyped,
      Marking.info_untyped]
  | .binary _ _ left right => by
    simp only [Expr.mark, issuesOf, ctx.issuesOf_untyped left, ctx.issuesOf_untyped right,
      ctx.typeOf_untyped, Marking.info_untyped]
  | .unary _ _ operand => by
    simp only [Expr.mark, issuesOf, ctx.issuesOf_untyped operand, ctx.unaryIssues_untyped,
      Marking.info_untyped]

theorem issuesOfOption_untyped (ctx : Context) : ∀ expr : Option Expr,
    ctx.issuesOfOption (Expr.markOption .untyped expr) = ctx.issuesOfOption expr
  | none => rfl
  | some expr => by
    simp only [Expr.markOption, issuesOfOption, ctx.issuesOf_untyped expr]

theorem issuesOfList_untyped (ctx : Context) : ∀ exprs : List Expr,
    ctx.issuesOfList (Expr.markList .untyped exprs) = ctx.issuesOfList exprs
  | [] => rfl
  | expr :: rest => by
    simp only [Expr.markList, issuesOfList, ctx.issuesOf_untyped expr,
      ctx.issuesOfList_untyped rest]

end

mutual

theorem annotate_untyped (ctx : Context) :
    ∀ expr : Expr, ctx.annotate (expr.mark .untyped) = ctx.annotate expr
  | .int .. | .bool .. | .string .. | .new .. => rfl
  | .var _ qualifier _ index => by
    simp only [Expr.mark, annotate, typeOf, ctx.qualifierOf_untyped, Expr.isSome_markOption,
      ctx.annotateOption_untyped qualifier, ctx.annotateOption_untyped index]
    rfl
  | .assign _ qualifier _ index value => by
    simp only [Expr.mark, annotate, typeOf, ctx.qualifierOf_untyped, Expr.isSome_markOption,
      ctx.annotateOption_untyped qualifier, ctx.annotateOption_untyped index,
      ctx.annotate_untyped value]
    rfl
  | .call _ receiver _ arguments => by
    simp only [Expr.mark, annotate, typeOf, ctx.qualifierOf_untyped,
      ctx.annotateOption_untyped receiver, ctx.annotateList_untyped arguments]
    rfl
  | .newArray _ _ operand | .instanceOf _ operand _ | .cast _ _ operand | .unary _ _ operand => by
    simp only [Expr.mark, annotate, ctx.annotate_untyped operand]
    rfl
  | .binary _ _ left right => by
    simp only [Expr.mark, annotate, ctx.annotate_untyped left, ctx.annotate_untyped right]
    rfl

theorem annotateOption_untyped (ctx : Context) : ∀ expr : Option Expr,
    ctx.annotateOption (Expr.markOption .untyped expr) = ctx.annotateOption expr
  | none => rfl
  | some expr => by
    simp only [Expr.markOption, annotateOption, ctx.annotate_untyped expr]

theorem annotateList_untyped (ctx : Context) : ∀ exprs : List Expr,
    ctx.annotateList (Expr.markList .untyped exprs) = ctx.annotateList exprs
  | [] => rfl
  | expr :: rest => by
    simp only [Expr.markList, annotateList, ctx.annotate_untyped expr,
      ctx.annotateList_untyped rest]

end

mutual

/-- Apart from types, an expression with its types is the same expression. -/
theorem untyped_annotate (ctx : Context) :
    ∀ expr : Expr, (ctx.annotate expr).mark .untyped = expr.mark .untyped
  | .int .. | .bool .. | .string .. | .new .. => rfl
  | .var _ qualifier _ index => by
    simp only [annotate, Expr.mark, ctx.untyped_annotateOption qualifier,
      ctx.untyped_annotateOption index]
    rfl
  | .assign _ qualifier _ index value => by
    simp only [annotate, Expr.mark, ctx.untyped_annotateOption qualifier,
      ctx.untyped_annotateOption index, ctx.untyped_annotate value]
    rfl
  | .call _ receiver _ arguments => by
    simp only [annotate, Expr.mark, ctx.untyped_annotateOption receiver,
      ctx.untyped_annotateList arguments]
    rfl
  | .newArray _ _ operand | .instanceOf _ operand _ | .cast _ _ operand | .unary _ _ operand => by
    simp only [annotate, Expr.mark, ctx.untyped_annotate operand]
    rfl
  | .binary _ _ left right => by
    simp only [annotate, Expr.mark, ctx.untyped_annotate left, ctx.untyped_annotate right]
    rfl

theorem untyped_annotateOption (ctx : Context) : ∀ expr : Option Expr,
    Expr.markOption .untyped (ctx.annotateOption expr) = Expr.markOption .untyped expr
  | none => rfl
  | some expr => by
    simp only [annotateOption, Expr.markOption, ctx.untyped_annotate expr]

theorem untyped_annotateList (ctx : Context) : ∀ exprs : List Expr,
    Expr.markList .untyped (ctx.annotateList exprs) = Expr.markList .untyped exprs
  | [] => rfl
  | expr :: rest => by
    simp only [annotateList, Expr.markList, ctx.untyped_annotate expr,
      ctx.untyped_annotateList rest]

end

theorem after_untyped (ctx : Context) (stmt : Stmt) :
    ctx.after (stmt.mark .untyped) = ctx.after stmt := by
  cases stmt <;> rfl

section Issues
variable (ctx : Context) {span : Span}

theorem initializerIssues_untyped (type : Ty) (declared : Declared) (name : String)
    (init : Expr) : ctx.initializerIssues type declared name (init.mark .untyped) =
      ctx.initializerIssues type declared name init := by
  simp only [initializerIssues, ctx.typeOf_untyped, Expr.span_untyped]

theorem conditionIssues_untyped (construct : Conditional) (condition : Expr) :
    ctx.conditionIssues construct (condition.mark .untyped) =
      ctx.conditionIssues construct condition := by
  simp only [conditionIssues, ctx.typeOf_untyped, ctx.issuesOf_untyped, Expr.span_untyped]

theorem loopConditionIssues_untyped (construct : Conditional) (condition : Option Expr) :
    ((Expr.markOption .untyped condition).map (ctx.conditionIssues construct)).getD [] =
      (condition.map (ctx.conditionIssues construct)).getD [] := by
  cases condition with
  | none => rfl
  | some condition => exact ctx.conditionIssues_untyped construct condition

theorem clauseIssues_untyped (clause : Clause) (expr : Option Expr) :
    ctx.clauseIssues clause (Expr.markOption .untyped expr) = ctx.clauseIssues clause expr := by
  cases expr with
  | none => rfl
  | some expr =>
    simp only [Expr.markOption, clauseIssues, ctx.typeOf_untyped, ctx.issuesOf_untyped,
      Expr.span_untyped]

theorem returnIssues_untyped (value : Option Expr) :
    ctx.returnIssues span (Expr.markOption .untyped value) = ctx.returnIssues span value := by
  cases value with
  | none => rfl
  | some value =>
    simp only [Expr.markOption, returnIssues, ctx.typeOf_untyped, ctx.issuesOf_untyped,
      Expr.span_untyped]

end Issues

mutual

theorem issuesOfStmt_untyped : ∀ (ctx : Context) (stmt : Stmt),
    ctx.issuesOfStmt (stmt.mark .untyped) = ctx.issuesOfStmt stmt
  | ctx, .expr .. => by simp only [Stmt.mark, issuesOfStmt, ctx.issuesOf_untyped]
  | ctx, .decl .. => by
    simp only [Stmt.mark, issuesOfStmt, Marking.span_untyped, ctx.issuesOf_untyped,
      ctx.initializerIssues_untyped]
  | ctx, .block _ body => by
    simp only [Stmt.mark, issuesOfStmt, ctx.nested.issuesOfBlock_untyped body]
  | ctx, .branch _ _ thenBranch elseBranch => by
    simp only [Stmt.mark, issuesOfStmt, ctx.conditionIssues_untyped,
      ctx.nested.issuesOfStmt_untyped thenBranch, ctx.nested.issuesOfElse_untyped elseBranch]
  | ctx, .whileLoop _ _ body => by
    simp only [Stmt.mark, issuesOfStmt, ctx.conditionIssues_untyped,
      ctx.inBody.issuesOfStmt_untyped body]
  | ctx, .forLoop _ _ _ _ body => by
    simp only [Stmt.mark, issuesOfStmt, ctx.clauseIssues_untyped,
      ctx.loopConditionIssues_untyped, ctx.inBody.issuesOfStmt_untyped body]
  | _, .leave _ => rfl
  | ctx, .giveBack .. => by
    simp only [Stmt.mark, issuesOfStmt, Marking.span_untyped, ctx.returnIssues_untyped]

theorem issuesOfElse_untyped : ∀ (ctx : Context) (stmt : Option Stmt),
    ctx.issuesOfElse (Stmt.markOption .untyped stmt) = ctx.issuesOfElse stmt
  | _, none => rfl
  | ctx, some stmt => by
    simp only [Stmt.markOption, issuesOfElse, ctx.issuesOfStmt_untyped stmt]

theorem issuesOfBlock_untyped : ∀ (ctx : Context) (stmts : List Stmt),
    ctx.issuesOfBlock (Stmt.markList .untyped stmts) = ctx.issuesOfBlock stmts
  | _, [] => rfl
  | ctx, stmt :: rest => by
    simp only [Stmt.markList, issuesOfBlock, ctx.issuesOfStmt_untyped stmt, ctx.after_untyped,
      (ctx.after stmt).issuesOfBlock_untyped rest]

end

mutual

theorem annotateStmt_untyped : ∀ (ctx : Context) (stmt : Stmt),
    ctx.annotateStmt (stmt.mark .untyped) = ctx.annotateStmt stmt
  | ctx, .expr .. | ctx, .decl .. => by
    simp only [Stmt.mark, annotateStmt, Marking.span_untyped, ctx.annotate_untyped]
  | ctx, .block _ body => by
    simp only [Stmt.mark, annotateStmt, Marking.span_untyped,
      ctx.nested.annotateBlock_untyped body]
  | ctx, .branch _ _ thenBranch elseBranch => by
    simp only [Stmt.mark, annotateStmt, Marking.span_untyped, ctx.annotate_untyped,
      ctx.nested.annotateStmt_untyped thenBranch, ctx.nested.annotateElse_untyped elseBranch]
  | ctx, .whileLoop _ _ body => by
    simp only [Stmt.mark, annotateStmt, Marking.span_untyped, ctx.annotate_untyped,
      ctx.inBody.annotateStmt_untyped body]
  | ctx, .forLoop _ _ _ _ body => by
    simp only [Stmt.mark, annotateStmt, Marking.span_untyped, ctx.annotateOption_untyped,
      ctx.inBody.annotateStmt_untyped body]
  | _, .leave _ => rfl
  | ctx, .giveBack .. => by
    simp only [Stmt.mark, annotateStmt, Marking.span_untyped, ctx.annotateOption_untyped]

theorem annotateElse_untyped : ∀ (ctx : Context) (stmt : Option Stmt),
    ctx.annotateElse (Stmt.markOption .untyped stmt) = ctx.annotateElse stmt
  | _, none => rfl
  | ctx, some stmt => by
    simp only [Stmt.markOption, annotateElse, ctx.annotateStmt_untyped stmt]

theorem annotateBlock_untyped : ∀ (ctx : Context) (stmts : List Stmt),
    ctx.annotateBlock (Stmt.markList .untyped stmts) = ctx.annotateBlock stmts
  | _, [] => rfl
  | ctx, stmt :: rest => by
    simp only [Stmt.markList, annotateBlock, ctx.annotateStmt_untyped stmt, ctx.after_untyped,
      (ctx.after stmt).annotateBlock_untyped rest]

end

mutual

/-- Apart from types, a statement with the types of its expressions is the same statement. -/
theorem untyped_annotateStmt : ∀ (ctx : Context) (stmt : Stmt),
    (ctx.annotateStmt stmt).mark .untyped = stmt.mark .untyped
  | ctx, .expr .. | ctx, .decl .. => by
    simp only [annotateStmt, Stmt.mark, ctx.untyped_annotate]
  | ctx, .block _ body => by
    simp only [annotateStmt, Stmt.mark, ctx.nested.untyped_annotateBlock body]
  | ctx, .branch _ _ thenBranch elseBranch => by
    simp only [annotateStmt, Stmt.mark, ctx.untyped_annotate,
      ctx.nested.untyped_annotateStmt thenBranch, ctx.nested.untyped_annotateElse elseBranch]
  | ctx, .whileLoop _ _ body => by
    simp only [annotateStmt, Stmt.mark, ctx.untyped_annotate,
      ctx.inBody.untyped_annotateStmt body]
  | ctx, .forLoop _ _ _ _ body => by
    simp only [annotateStmt, Stmt.mark, ctx.untyped_annotateOption,
      ctx.inBody.untyped_annotateStmt body]
  | _, .leave _ => rfl
  | ctx, .giveBack .. => by simp only [annotateStmt, Stmt.mark, ctx.untyped_annotateOption]

theorem untyped_annotateElse : ∀ (ctx : Context) (stmt : Option Stmt),
    Stmt.markOption .untyped (ctx.annotateElse stmt) = Stmt.markOption .untyped stmt
  | _, none => rfl
  | ctx, some stmt => by
    simp only [annotateElse, Stmt.markOption, ctx.untyped_annotateStmt stmt]

theorem untyped_annotateBlock : ∀ (ctx : Context) (stmts : List Stmt),
    Stmt.markList .untyped (ctx.annotateBlock stmts) = Stmt.markList .untyped stmts
  | _, [] => rfl
  | ctx, stmt :: rest => by
    simp only [annotateBlock, Stmt.markList, ctx.untyped_annotateStmt stmt,
      (ctx.after stmt).untyped_annotateBlock rest]

end

end Context

theorem map_mark_untyped (formals : List Formal) : formals.map (Formal.mark .untyped) = formals :=
  List.map_id' formals

theorem Method.formals_untyped (method : Method) :
    (method.mark .untyped).formals = method.formals := map_mark_untyped method.formals

namespace Hierarchy
variable (hierarchy : Hierarchy) (id : ClassId)

theorem ofMethod_untyped (method : Method) :
    Context.ofMethod hierarchy id (method.mark .untyped) = .ofMethod hierarchy id method := by
  rw [Context.ofMethod, Method.bindFormals, Method.formals_untyped]
  rfl

theorem issuesOfField_untyped (field : Field) :
    hierarchy.issuesOfField id (field.mark .untyped) = hierarchy.issuesOfField id field := by
  obtain ⟨type, name, init, span⟩ := field
  cases init with
  | none => rfl
  | some init =>
    simp only [issuesOfField, Field.mark, Expr.markOption, Context.issuesOf_untyped,
      Context.initializerIssues_untyped, Marking.span_untyped]

theorem issuesOfMethod_untyped (method : Method) :
    hierarchy.issuesOfMethod id (method.mark .untyped) = hierarchy.issuesOfMethod id method := by
  have signature : Signature.ofMethod (method.mark .untyped) = .ofMethod method := by
    rw [Signature.ofMethod, Method.formals_untyped]
    rfl
  simp only [issuesOfMethod, overrideIssues, signature, ofMethod_untyped, Method.formals_untyped]
  simp only [Method.mark, Context.issuesOfBlock_untyped]
  rfl

theorem issuesOfMember_untyped (member : Member) :
    hierarchy.issuesOfMember id (member.mark .untyped) = hierarchy.issuesOfMember id member := by
  cases member with
  | field field => exact hierarchy.issuesOfField_untyped id field
  | method method => exact hierarchy.issuesOfMethod_untyped id method

theorem classDiagnostics_untyped (decl : ClassDecl) :
    hierarchy.classDiagnostics id (decl.mark .untyped) = hierarchy.classDiagnostics id decl := by
  simp only [classDiagnostics, ClassDecl.mark, List.flatMap_map, issuesOfMember_untyped]

theorem annotateMember_untyped (member : Member) :
    hierarchy.annotateMember id (member.mark .untyped) = hierarchy.annotateMember id member := by
  cases member with
  | field field =>
    simp only [Member.mark, annotateMember, Field.mark, Context.annotateOption_untyped,
      Marking.span_untyped]
  | method method =>
    simp only [Member.mark, annotateMember, ofMethod_untyped]
    simp only [Method.mark, Context.annotateBlock_untyped, Marking.span_untyped,
      map_mark_untyped]

theorem annotateClass_untyped (decl : ClassDecl) :
    hierarchy.annotateClass id (decl.mark .untyped) = hierarchy.annotateClass id decl := by
  simp only [annotateClass, ClassDecl.mark, List.map_map, Marking.span_untyped]
  congr 2
  funext member
  exact hierarchy.annotateMember_untyped id member

theorem untyped_annotateMember (member : Member) :
    (hierarchy.annotateMember id member).mark .untyped = member.mark .untyped := by
  cases member with
  | field field => simp only [annotateMember, Member.mark, Field.mark, Context.untyped_annotateOption]
  | method method =>
    simp only [annotateMember, Member.mark, Method.mark, Context.untyped_annotateBlock]

/-- Apart from types, a class with the types of its expressions is the same class. -/
theorem untyped_annotateClass (decl : ClassDecl) :
    (hierarchy.annotateClass id decl).mark .untyped = decl.mark .untyped := by
  simp only [annotateClass, ClassDecl.mark, List.map_map]
  congr 2
  funext member
  exact hierarchy.untyped_annotateMember id member

/-- A second look at a class with its types finds the same types. -/
theorem annotateClass_annotateClass (decl : ClassDecl) :
    hierarchy.annotateClass id (hierarchy.annotateClass id decl) =
      hierarchy.annotateClass id decl := by
  rw [← annotateClass_untyped, untyped_annotateClass, annotateClass_untyped]

variable (program : Program)

theorem typeDiagnostics_untyped :
    hierarchy.typeDiagnostics (program.mark .untyped) = hierarchy.typeDiagnostics program := by
  simp only [typeDiagnostics, Program.mark, List.zipIdx_map, List.flatMap_map, Prod.map_fst,
    Prod.map_snd, id_eq, classDiagnostics_untyped]

theorem untyped_annotateProgram :
    (hierarchy.annotateProgram program).mark .untyped = program.mark .untyped := by
  simp only [Program.mark, annotateProgram, Program.mk.injEq]
  apply List.ext_getElem?
  intro index
  rw [List.getElem?_map, List.getElem?_mapIdx, List.getElem?_map, Option.map_map]
  congr 1
  funext decl
  simp only [Function.comp_apply]
  cases hierarchy.idOfDecl? index with
  | none => rfl
  | some id => exact hierarchy.untyped_annotateClass id decl

theorem annotateProgram_annotateProgram :
    hierarchy.annotateProgram (hierarchy.annotateProgram program) =
      hierarchy.annotateProgram program := by
  simp only [annotateProgram, List.mapIdx_mapIdx, Program.mk.injEq]
  congr 1
  funext index decl
  simp only [Function.comp_apply]
  cases hierarchy.idOfDecl? index with
  | none => rfl
  | some id => exact hierarchy.annotateClass_annotateClass id decl

end Hierarchy

theorem Member.interface_untyped (member : Member) :
    (member.mark .untyped).interface = member.interface := by
  cases member with
  | field field => rfl
  | method method => simp only [mark, interface, Method.mark, map_mark_untyped, Marking.span_untyped]

theorem Program.interface_untyped (program : Program) :
    (program.mark .untyped).interface = program.interface := by
  simp only [interface, mark, List.map_map, Program.mk.injEq]
  congr 1
  funext decl
  simp only [Function.comp_apply, ClassDecl.interface, ClassDecl.mark, List.map_map,
    Marking.span_untyped]
  congr 2
  funext member
  exact member.interface_untyped

/-- Programs that differ in the types that are known of their expressions alone have the same
hierarchy and the same diagnostics. -/
theorem analyze_congr {program other : Program}
    (same : program.mark .untyped = other.mark .untyped) :
    (analyze program).hierarchy = (analyze other).hierarchy ∧
      (analyze program).diagnostics = (analyze other).diagnostics := by
  have interfaces : program.interface = other.interface := by
    rw [← program.interface_untyped, same, other.interface_untyped]
  have hierarchies : program.hierarchy = other.hierarchy := Program.hierarchy_congr interfaces
  refine ⟨hierarchies, ?_⟩
  show program.declarationDiagnostics ++ program.hierarchy.typeDiagnostics program =
    other.declarationDiagnostics ++ other.hierarchy.typeDiagnostics other
  rw [Program.declarationDiagnostics_congr interfaces, hierarchies,
    ← Hierarchy.typeDiagnostics_untyped, same, Hierarchy.typeDiagnostics_untyped]

end Bantam
