import Bantam.Proofs.Hierarchy.Namesakes
import Bantam.Typing.Member

/-! The same place in two hierarchies. Code is checked against a hierarchy by the names of classes
alone, so where the hierarchies differ in nothing but numbers, all types and all issues are the
same. -/
namespace Bantam
open Hierarchy

variable {program other : Program} {ctx ctx' : Context}

/-- The same code stands in namesakes, with the same variables in scope. -/
structure Context.Alike (program other : Program) (ctx ctx' : Context) : Prop where
  hierarchy : ctx.hierarchy.Alike program other ctx'.hierarchy
  twin : Twin ctx.hierarchy ctx'.hierarchy ctx.classId ctx'.classId
  locals : ctx.locals = ctx'.locals
  method : ctx.method = ctx'.method
  returns : ctx.returns = ctx'.returns
  inLoop : ctx.inLoop = ctx'.inLoop

namespace Context.Alike
variable (same : ctx.Alike program other ctx')
include same

theorem nested : ctx.nested.Alike program other ctx'.nested :=
  { same with locals := congrArg SymbolTable.push same.locals }

theorem inBody : ctx.inBody.Alike program other ctx'.inBody :=
  { same.nested with inLoop := rfl }

theorem declareVariable (name : String) (type : Ty) :
    ctx.declareVariable name type = ctx'.declareVariable name type := by
  rw [Context.declareVariable, Context.declareVariable, same.locals, same.method]

theorem after (stmt : Stmt) : (ctx.after stmt).Alike program other (ctx'.after stmt) := by
  unfold Context.after
  split
  · rw [same.declareVariable]
    split
    · exact { same with locals := rfl }
    · exact same
  · exact same

theorem className : ctx.className = ctx'.className := same.twin.nameOf

theorem parentName : ctx.parentName = ctx'.parentName := by
  have parents := same.hierarchy.parentOf? same.twin
  rw [Context.parentName, Context.parentName]
  generalize ctx.hierarchy.parentOf? ctx.classId = parent,
    ctx'.hierarchy.parentOf? ctx'.classId = parent' at parents
  cases parents with
  | none => rfl
  | some twin => exact twin.nameOf

theorem conforms (actual expected : Ty) :
    ctx.conforms actual expected = ctx'.conforms actual expected :=
  same.hierarchy.conforms actual expected

theorem checkType (type : Ty) : ctx.checkType type = ctx'.checkType type := by
  rw [Context.checkType, Context.checkType, same.hierarchy.hasType]

theorem resolveClass (name : String) : ctx.resolveClass name = ctx'.resolveClass name := by
  rw [Context.resolveClass, Context.resolveClass, isSome_eq_of_rel (same.hierarchy.idOf? name)]

theorem resolveName (name : String) : ctx.resolveName name = ctx'.resolveName name := by
  rw [Context.resolveName, Context.resolveName, same.className, same.parentName, same.locals,
    same.hierarchy.lookupField same.twin]

theorem ownerOf? (qualifier : Qualifier) : Option.Rel (Twin ctx.hierarchy ctx'.hierarchy)
    (ctx.ownerOf? qualifier) (ctx'.ownerOf? qualifier) := by
  unfold Context.ownerOf?
  split
  · exact .some same.twin
  · split
    · exact same.hierarchy.parentOf? same.twin
    · exact .none

theorem resolveField (qualifier : Qualifier) (name : String) (indexed : Bool) :
    ctx.resolveField qualifier name indexed = ctx'.resolveField qualifier name indexed := by
  have owners := same.ownerOf? qualifier
  rw [Context.resolveField, Context.resolveField]
  generalize ctx.ownerOf? qualifier = owner, ctx'.ownerOf? qualifier = owner' at owners
  cases owners with
  | none => rfl
  | some twin =>
    dsimp only
    rw [same.hierarchy.lookupField twin, twin.nameOf]

theorem resolveVariable (qualifier : Option Qualifier) (name : String) (indexed : Bool) :
    ctx.resolveVariable qualifier name indexed = ctx'.resolveVariable qualifier name indexed := by
  cases qualifier with
  | none => exact same.resolveName name
  | some qualifier => exact same.resolveField qualifier name indexed

theorem variableType (qualifier : Option Qualifier) (name : String) (indexed : Bool) :
    ctx.variableType qualifier name indexed = ctx'.variableType qualifier name indexed := by
  rw [Context.variableType, Context.variableType, same.resolveVariable]

theorem receiverClass? (receiver : Option Ty) : Option.Rel (Twin ctx.hierarchy ctx'.hierarchy)
    (ctx.receiverClass? receiver) (ctx'.receiverClass? receiver) := by
  cases receiver with
  | none => exact .some same.twin
  | some type => exact same.hierarchy.classOf? type

theorem callType (receiver : Option Ty) (method : String) :
    ctx.callType receiver method = ctx'.callType receiver method := by
  have called : ctx.calledMethod? receiver method = ctx'.calledMethod? receiver method :=
    bind_eq_of_rel (same.receiverClass? receiver) fun twin =>
      same.hierarchy.lookupMethod twin method
  rw [Context.callType, Context.callType, called]

end Context.Alike

namespace Context.Alike

mutual

theorem typeOf (same : ctx.Alike program other ctx') :
    ∀ expr : Expr, ctx.typeOf expr = ctx'.typeOf expr
  | .int .. | .bool .. | .string .. | .instanceOf .. | .binary .. | .unary .. => rfl
  | .var _ qualifier name index | .assign _ qualifier name index _ => by
    simp only [Context.typeOf, same.qualifierOf qualifier, same.variableType]
  | .call _ receiver method _ => by
    simp only [Context.typeOf, same.qualifierOf receiver, same.callType]
  | .new _ className => by simp only [Context.typeOf, same.resolveClass]
  | .newArray .. | .cast .. => by simp only [Context.typeOf, same.checkType]

theorem qualifierOf (same : ctx.Alike program other ctx') :
    ∀ expr : Option Expr, ctx.qualifierOf expr = ctx'.qualifierOf expr
  | none => rfl
  | some expr => by simp only [Context.qualifierOf, same.typeOf expr]

end

section Issues
variable (same : ctx.Alike program other ctx') {span : Span}
include same

theorem nameIssues (qualifier : Option Expr) (name : String) (indexed writing : Bool) :
    ctx.nameIssues span qualifier name indexed writing =
      ctx'.nameIssues span qualifier name indexed writing := by
  simp only [Context.nameIssues, same.qualifierOf, same.resolveVariable]

theorem indexIssues (qualifier : Option Expr) (name : String) (index : Option Expr) :
    ctx.indexIssues span qualifier name index = ctx'.indexIssues span qualifier name index := by
  cases index with
  | none => rfl
  | some index =>
    simp only [Context.indexIssues, same.qualifierOf, same.resolveVariable, same.typeOf]

theorem receiverIssues (method : String) (receiver : Option Expr) :
    ctx.receiverIssues method receiver = ctx'.receiverIssues method receiver := by
  cases receiver with
  | none => rfl
  | some receiver =>
    have known := isSome_eq_of_rel (same.hierarchy.classOf? (ctx'.typeOf receiver))
    simp only [Context.receiverIssues, same.typeOf, ← Option.not_isSome, known]

theorem argumentIssues (method : String) (position : Nat) (types : List Ty)
    (arguments : List Expr) : ctx.argumentIssues method position types arguments =
      ctx'.argumentIssues method position types arguments := by
  induction types generalizing position arguments with
  | nil => rfl
  | cons expected types ih =>
    cases arguments with
    | nil => rfl
    | cons argument arguments =>
      simp only [Context.argumentIssues, same.typeOf, same.conforms, ih]

theorem callIssues (receiver : Option Expr) (method : String) (arguments : List Expr) :
    ctx.callIssues span receiver method arguments =
      ctx'.callIssues span receiver method arguments := by
  have owners := same.receiverClass? ((ctx'.qualifierOf receiver).map Qualifier.type)
  rw [Context.callIssues, Context.callIssues, same.qualifierOf]
  generalize ctx.receiverClass? ((ctx'.qualifierOf receiver).map Qualifier.type) = owner,
    ctx'.receiverClass? ((ctx'.qualifierOf receiver).map Qualifier.type) = owner' at owners
  cases owners with
  | none => rfl
  | some twin =>
    simp only [same.hierarchy.lookupMethod twin, twin.nameOf, same.argumentIssues]

theorem testIssues (actual type : Ty) :
    ctx.testIssues span actual type = ctx'.testIssues span actual type := by
  simp only [Context.testIssues, same.checkType, same.conforms]

theorem castIssues (actual type : Ty) :
    ctx.castIssues span actual type = ctx'.castIssues span actual type := by
  simp only [Context.castIssues, same.checkType, same.conforms]

theorem binaryIssues (op : BinaryOp) (left right : Ty) :
    ctx.binaryIssues span op left right = ctx'.binaryIssues span op left right := by
  simp only [Context.binaryIssues, same.conforms]

theorem unaryIssues (op : UnaryOp) (operand : Expr) :
    ctx.unaryIssues span op operand = ctx'.unaryIssues span op operand := by
  simp only [Context.unaryIssues, same.typeOf]

end Issues

mutual

theorem issuesOf (same : ctx.Alike program other ctx') :
    ∀ expr : Expr, ctx.issuesOf expr = ctx'.issuesOf expr
  | .int .. | .bool .. | .string .. => rfl
  | .var _ qualifier _ index => by
    simp only [Context.issuesOf, same.issuesOfOption qualifier, same.issuesOfOption index,
      same.nameIssues, same.indexIssues]
  | .assign _ qualifier _ index value => by
    simp only [Context.issuesOf, same.issuesOfOption qualifier, same.issuesOfOption index,
      same.issuesOf value, same.nameIssues, same.indexIssues, same.qualifierOf, same.variableType,
      same.typeOf, same.conforms]
  | .call _ receiver _ arguments => by
    simp only [Context.issuesOf, same.issuesOfOption receiver, same.issuesOfList arguments,
      same.receiverIssues, same.callIssues]
  | .new .. => by simp only [Context.issuesOf, same.resolveClass]
  | .newArray _ _ size => by
    simp only [Context.issuesOf, same.issuesOf size, same.typeOf, same.checkType]
  | .instanceOf _ operand _ => by
    simp only [Context.issuesOf, same.issuesOf operand, same.typeOf, same.testIssues]
  | .cast _ _ operand => by
    simp only [Context.issuesOf, same.issuesOf operand, same.typeOf, same.castIssues]
  | .binary _ _ left right => by
    simp only [Context.issuesOf, same.issuesOf left, same.issuesOf right, same.typeOf,
      same.binaryIssues]
  | .unary _ _ operand => by simp only [Context.issuesOf, same.issuesOf operand, same.unaryIssues]

theorem issuesOfOption (same : ctx.Alike program other ctx') :
    ∀ expr : Option Expr, ctx.issuesOfOption expr = ctx'.issuesOfOption expr
  | none => rfl
  | some expr => by simp only [Context.issuesOfOption, same.issuesOf expr]

theorem issuesOfList (same : ctx.Alike program other ctx') :
    ∀ exprs : List Expr, ctx.issuesOfList exprs = ctx'.issuesOfList exprs
  | [] => rfl
  | expr :: rest => by
    simp only [Context.issuesOfList, same.issuesOf expr, same.issuesOfList rest]

end

mutual

theorem annotate (same : ctx.Alike program other ctx') :
    ∀ expr : Expr, ctx.annotate expr = ctx'.annotate expr
  | .int .. | .bool .. | .string .. => rfl
  | .var _ qualifier _ index => by
    simp only [Context.annotate, same.typeOf, same.annotateOption qualifier,
      same.annotateOption index]
  | .assign _ qualifier _ index value => by
    simp only [Context.annotate, same.typeOf, same.annotateOption qualifier,
      same.annotateOption index, same.annotate value]
  | .call _ receiver _ arguments => by
    simp only [Context.annotate, same.typeOf, same.annotateOption receiver,
      same.annotateList arguments]
  | .new .. => by simp only [Context.annotate, same.typeOf]
  | .newArray _ _ operand | .instanceOf _ operand _ | .cast _ _ operand | .unary _ _ operand => by
    simp only [Context.annotate, same.typeOf, same.annotate operand]
  | .binary _ _ left right => by
    simp only [Context.annotate, same.typeOf, same.annotate left, same.annotate right]

theorem annotateOption (same : ctx.Alike program other ctx') :
    ∀ expr : Option Expr, ctx.annotateOption expr = ctx'.annotateOption expr
  | none => rfl
  | some expr => by simp only [Context.annotateOption, same.annotate expr]

theorem annotateList (same : ctx.Alike program other ctx') :
    ∀ exprs : List Expr, ctx.annotateList exprs = ctx'.annotateList exprs
  | [] => rfl
  | expr :: rest => by
    simp only [Context.annotateList, same.annotate expr, same.annotateList rest]

end

section Statements
variable (same : ctx.Alike program other ctx') {span : Span}
include same

theorem initializerIssues (type : Ty) (declared : Declared) (name : String) (init : Expr) :
    ctx.initializerIssues type declared name init =
      ctx'.initializerIssues type declared name init := by
  simp only [Context.initializerIssues, same.checkType, same.typeOf, same.conforms]

theorem conditionIssues (construct : Conditional) (condition : Expr) :
    ctx.conditionIssues construct condition = ctx'.conditionIssues construct condition := by
  simp only [Context.conditionIssues, same.typeOf, same.issuesOf]

theorem clauseIssues (clause : Clause) (expr : Option Expr) :
    ctx.clauseIssues clause expr = ctx'.clauseIssues clause expr := by
  cases expr with
  | none => rfl
  | some expr => simp only [Context.clauseIssues, same.typeOf, same.issuesOf]

theorem returnIssues (value : Option Expr) :
    ctx.returnIssues span value = ctx'.returnIssues span value := by
  cases value with
  | none => rw [Context.returnIssues, Context.returnIssues, same.returns]
  | some value =>
    simp only [Context.returnIssues, same.typeOf, same.issuesOf, same.returns,
      same.hierarchy.hasType, same.conforms]

end Statements

mutual

theorem issuesOfStmt : ∀ {ctx ctx' : Context}, ctx.Alike program other ctx' →
    ∀ stmt : Stmt, ctx.issuesOfStmt stmt = ctx'.issuesOfStmt stmt
  | _, _, same, .expr .. => by simp only [Context.issuesOfStmt, same.issuesOf]
  | _, _, same, .decl .. => by
    simp only [Context.issuesOfStmt, same.issuesOf, same.checkType, same.initializerIssues,
      same.declareVariable]
  | _, _, same, .block _ body => by
    simp only [Context.issuesOfStmt, same.nested.issuesOfBlock body]
  | _, _, same, .branch _ _ thenBranch elseBranch => by
    simp only [Context.issuesOfStmt, same.conditionIssues, same.nested.issuesOfStmt thenBranch,
      same.nested.issuesOfElse elseBranch]
  | _, _, same, .whileLoop _ _ body => by
    simp only [Context.issuesOfStmt, same.conditionIssues, same.inBody.issuesOfStmt body]
  | _, _, same, .forLoop _ _ _ _ body => by
    simp only [Context.issuesOfStmt, same.clauseIssues, funext (same.conditionIssues .forLoop),
      same.inBody.issuesOfStmt body]
  | _, _, same, .leave _ => by simp only [Context.issuesOfStmt, same.inLoop]
  | _, _, same, .giveBack .. => by simp only [Context.issuesOfStmt, same.returnIssues]

theorem issuesOfElse : ∀ {ctx ctx' : Context}, ctx.Alike program other ctx' →
    ∀ stmt : Option Stmt, ctx.issuesOfElse stmt = ctx'.issuesOfElse stmt
  | _, _, _, none => rfl
  | _, _, same, some stmt => by simp only [Context.issuesOfElse, same.issuesOfStmt stmt]

theorem issuesOfBlock : ∀ {ctx ctx' : Context}, ctx.Alike program other ctx' →
    ∀ stmts : List Stmt, ctx.issuesOfBlock stmts = ctx'.issuesOfBlock stmts
  | _, _, _, [] => rfl
  | _, _, same, stmt :: rest => by
    simp only [Context.issuesOfBlock, same.issuesOfStmt stmt,
      (same.after stmt).issuesOfBlock rest]

end

mutual

theorem annotateStmt : ∀ {ctx ctx' : Context}, ctx.Alike program other ctx' →
    ∀ stmt : Stmt, ctx.annotateStmt stmt = ctx'.annotateStmt stmt
  | _, _, same, .expr .. | _, _, same, .decl .. => by
    simp only [Context.annotateStmt, same.annotate]
  | _, _, same, .block _ body => by
    simp only [Context.annotateStmt, same.nested.annotateBlock body]
  | _, _, same, .branch _ _ thenBranch elseBranch => by
    simp only [Context.annotateStmt, same.annotate, same.nested.annotateStmt thenBranch,
      same.nested.annotateElse elseBranch]
  | _, _, same, .whileLoop _ _ body => by
    simp only [Context.annotateStmt, same.annotate, same.inBody.annotateStmt body]
  | _, _, same, .forLoop _ _ _ _ body => by
    simp only [Context.annotateStmt, same.annotateOption, same.inBody.annotateStmt body]
  | _, _, _, .leave _ => rfl
  | _, _, same, .giveBack .. => by simp only [Context.annotateStmt, same.annotateOption]

theorem annotateElse : ∀ {ctx ctx' : Context}, ctx.Alike program other ctx' →
    ∀ stmt : Option Stmt, ctx.annotateElse stmt = ctx'.annotateElse stmt
  | _, _, _, none => rfl
  | _, _, same, some stmt => by simp only [Context.annotateElse, same.annotateStmt stmt]

theorem annotateBlock : ∀ {ctx ctx' : Context}, ctx.Alike program other ctx' →
    ∀ stmts : List Stmt, ctx.annotateBlock stmts = ctx'.annotateBlock stmts
  | _, _, _, [] => rfl
  | _, _, same, stmt :: rest => by
    simp only [Context.annotateBlock, same.annotateStmt stmt,
      (same.after stmt).annotateBlock rest]

end

end Context.Alike

namespace Hierarchy.Alike

variable {left right : Hierarchy} {id id' : ClassId}
  (alike : Alike program other left right) (twin : Twin left right id id')
include alike twin

theorem ofClass : (Context.ofClass left id).Alike program other (Context.ofClass right id') where
  hierarchy := alike
  twin := twin
  locals := rfl
  method := rfl
  returns := rfl
  inLoop := rfl

theorem ofMethod (method : Method) :
    (Context.ofMethod left id method).Alike program other (Context.ofMethod right id' method) where
  hierarchy := alike
  twin := twin
  locals := rfl
  method := rfl
  returns := rfl
  inLoop := rfl

theorem overrideIssues (method : Method) :
    left.overrideIssues id method = right.overrideIssues id' method := by
  have inherited : (left.parentOf? id).bind (left.lookupMethod · method.name) =
      (right.parentOf? id').bind (right.lookupMethod · method.name) :=
    bind_eq_of_rel (alike.parentOf? twin) fun twin => alike.lookupMethod twin method.name
  rw [Hierarchy.overrideIssues, Hierarchy.overrideIssues, inherited]

theorem issuesOfField (field : Field) :
    left.issuesOfField id field = right.issuesOfField id' field := by
  have same := alike.ofClass twin
  simp only [Hierarchy.issuesOfField, same.checkType, same.issuesOf, same.initializerIssues]

theorem issuesOfMethod (method : Method) :
    left.issuesOfMethod id method = right.issuesOfMethod id' method := by
  have same := alike.ofMethod twin method
  simp only [Hierarchy.issuesOfMethod, returnTypeIssues, alike.hasType,
    alike.overrideIssues twin, same.checkType, same.issuesOfBlock]

theorem issuesOfMember (member : Member) :
    left.issuesOfMember id member = right.issuesOfMember id' member := by
  cases member with
  | field field => exact alike.issuesOfField twin field
  | method method => exact alike.issuesOfMethod twin method

theorem classDiagnostics (decl : ClassDecl) :
    left.classDiagnostics id decl = right.classDiagnostics id' decl := by
  simp only [Hierarchy.classDiagnostics, funext (alike.issuesOfMember twin)]

theorem annotateMember (member : Member) :
    left.annotateMember id member = right.annotateMember id' member := by
  cases member with
  | field field =>
    simp only [Hierarchy.annotateMember, (alike.ofClass twin).annotateOption]
  | method method =>
    simp only [Hierarchy.annotateMember, (alike.ofMethod twin method).annotateBlock]

theorem annotateClass (decl : ClassDecl) :
    left.annotateClass id decl = right.annotateClass id' decl := by
  simp only [Hierarchy.annotateClass, funext (alike.annotateMember twin)]

end Hierarchy.Alike

end Bantam
