import Bantam.Proofs.Typing.Scoping

/-! The check of a body, step by step. One environment is carried through all statements: scopes are
opened and closed in it, declarations are bound in the innermost one, and loops are counted on the
way in and out. Every statement leaves the environment as it found it, but for what it declares. The
issues are those of the statements in their places, and so are the types that are written into their
expressions. -/
namespace Bantam

/-- A moment of a check: the piece that is to be checked next, in the scopes that are open and
inside of so many loops. -/
structure Moment where
  piece : Piece
  locals : SymbolTable Ty
  loops : Nat

structure Check where
  locals : SymbolTable Ty
  loops : Nat := 0
  issues : List Issue := []
  moments : List Moment := []

def Context.within (ctx : Context) (locals : SymbolTable Ty) (loops : Nat) : Context :=
  { ctx with locals, inLoop := 0 < loops }

structure Moment.Reaches (moment : Moment) (site : Site) : Prop where
  piece : moment.piece = site.piece
  locals : moment.locals.Spreads site.enclosing

namespace Check

def place (check : Check) (ctx : Context) : Context := ctx.within check.locals check.loops

def enter (check : Check) (piece : Piece) : Check :=
  { check with moments := check.moments ++ [⟨piece, check.locals, check.loops⟩] }

def report (check : Check) (issues : List Issue) : Check :=
  { check with issues := check.issues ++ issues }

def inScope {α : Type} (run : StateM Check α) : StateM Check α := do
  modify fun check => { check with locals := check.locals.push }
  let written ← run
  modify fun check => { check with locals := check.locals.pop }
  return written

def inLoop {α : Type} (run : StateM Check α) : StateM Check α := do
  modify fun check => { check with loops := check.loops + 1 }
  let written ← run
  modify fun check => { check with loops := check.loops - 1 }
  return written

/-- Checks an expression for these issues of it, and writes its types into it. -/
def examine (ctx : Context) (expr : Expr) (issues : Context → List Issue) : StateM Check Expr := do
  let place := (← get).place ctx
  modify fun check => (check.enter (.expr expr)).report (issues place)
  return place.annotate expr

def examineOption (ctx : Context) (expr : Option Expr) (issues : Expr → Context → List Issue) :
    StateM Check (Option Expr) :=
  match expr with
  | none => return none
  | some expr => return some (← examine ctx expr (issues expr))

/-- Binds a variable in the innermost scope, unless its name is reserved or bound in an open one. -/
def declare (ctx : Context) (span : Span) (name : String) (type : Ty) (check : Check) : Check :=
  if isReserved name then check.report [⟨span, .reservedName name⟩]
  else if (check.locals.lookupChain name).isSome then
    check.report [⟨span, .duplicateVariable name ctx.method⟩]
  else { check with locals := check.locals.add name type }

mutual

def stmt (ctx : Context) (outer : Stmt) : StateM Check Stmt := do
  modify (·.enter (.stmt outer))
  match outer with
  | .expr span value =>
    let value ← examine ctx value fun place => place.issuesOf value
    return .expr span value
  | .decl span type name init =>
    modify (·.report (Issue.ofOutcome span (ctx.checkType type)))
    let init ← examine ctx init fun place =>
      place.issuesOf init ++ place.initializerIssues type .localVariable name init
    modify (·.declare ctx span name type)
    return .decl span type name init
  | .block span body =>
    let body ← inScope (block ctx body)
    return .block span body
  | .branch span condition thenBranch elseBranch =>
    let condition ← examine ctx condition fun place => place.conditionIssues .branch condition
    let thenBranch ← inScope (stmt ctx thenBranch)
    let elseBranch ← otherwise ctx elseBranch
    return .branch span condition thenBranch elseBranch
  | .whileLoop span condition body =>
    let condition ← examine ctx condition fun place => place.conditionIssues .whileLoop condition
    let body ← inLoop (inScope (stmt ctx body))
    return .whileLoop span condition body
  | .forLoop span init condition update body =>
    let init ← examineOption ctx init fun expr place =>
      place.clauseIssues .initialization (some expr)
    let condition ← examineOption ctx condition fun expr place =>
      place.conditionIssues .forLoop expr
    let update ← examineOption ctx update fun expr place => place.clauseIssues .update (some expr)
    let body ← inLoop (inScope (stmt ctx body))
    return .forLoop span init condition update body
  | .leave span =>
    modify fun check => check.report (Issue.ofCondition (check.loops == 0) span .misplacedBreak)
    return .leave span
  | .giveBack span none =>
    modify (·.report (ctx.returnIssues span none))
    return .giveBack span none
  | .giveBack span (some value) =>
    let value ← examine ctx value fun place => place.returnIssues span (some value)
    return .giveBack span (some value)

def otherwise (ctx : Context) : Option Stmt → StateM Check (Option Stmt)
  | none => return none
  | some inner => return some (← inScope (stmt ctx inner))

def block (ctx : Context) : List Stmt → StateM Check (List Stmt)
  | [] => return []
  | first :: rest => do
    let first ← stmt ctx first
    let rest ← block ctx rest
    return first :: rest

end

def ofMethod (hierarchy : Hierarchy) (id : ClassId) (method : Method) : List Stmt × Check :=
  (inScope (block (.ofMethod hierarchy id method) method.body)).run { locals := method.environment }

/-- What a part of a check does: what it writes, the scopes that it leaves open, the issues that it
finds and the sites that it goes through. It ends in the loop in which it began. -/
structure Gives {α : Type} (check : Check) (written : α) (locals : SymbolTable Ty)
    (issues : List Issue) (sites : List Site) (outcome : α × Check) : Prop where
  written : outcome.1 = written
  locals : outcome.2.locals = locals
  loops : outcome.2.loops = check.loops
  issues : outcome.2.issues = check.issues ++ issues
  moments : ∃ moments, outcome.2.moments = check.moments ++ moments ∧
    List.Forall₂ Moment.Reaches moments sites

/-- In whatever scopes a part begins, it writes what belongs there, finds the issues and the sites
that belong there, and leaves all scopes but the innermost one as they are. -/
def Finds {α : Type} (ctx : Context) (run : StateM Check α) (written : Context → α)
    (found : Context → List Issue) (sites : List (Entry Ty) → List Site) : Prop :=
  ∀ (start : Check) (enclosing : List (Entry Ty)), start.locals.Spreads enclosing →
    ∃ locals, locals.pop = start.locals.pop ∧
      start.Gives (written (start.place ctx)) locals (found (start.place ctx)) (sites enclosing)
        (run start)

section Parts
variable {α β : Type} {ctx : Context} {check : Check} {locals locals' : SymbolTable Ty}
  {issues issues' : List Issue} {sites sites' : List Site} {enclosing : List (Entry Ty)}
  {written : α} {written' : β} {before : α × Check} {after : β × Check}

theorem Gives.refl (check : Check) (value : α) :
    check.Gives value check.locals [] [] (value, check) := by
  constructor
  case written | locals | loops => rfl
  case issues => exact (List.append_nil _).symm
  case moments => exact ⟨[], (List.append_nil _).symm, .nil⟩

theorem Gives.trans (first : check.Gives written locals issues sites before)
    (second : before.2.Gives written' locals' issues' sites' after) :
    check.Gives written' locals' (issues ++ issues') (sites ++ sites') after := by
  obtain ⟨moments, isMiddle, reached⟩ := first.moments
  obtain ⟨moments', isAfter, reached'⟩ := second.moments
  constructor
  case written => exact second.written
  case locals => exact second.locals
  case loops => exact second.loops.trans first.loops
  case issues => rw [second.issues, first.issues, List.append_assoc]
  case moments =>
    refine ⟨moments ++ moments', ?_, List.rel_append reached reached'⟩
    rw [isAfter, isMiddle, List.append_assoc]

theorem Gives.returns (last : check.Gives written locals issues sites before) {value : β}
    (same : value = written') : check.Gives written' locals issues sites (value, before.2) :=
  ⟨same, last.locals, last.loops, last.issues, last.moments⟩

theorem Gives.place (gives : check.Gives written locals issues sites before) :
    before.2.place ctx = ctx.within locals check.loops := by
  rw [Check.place, gives.locals, gives.loops]

theorem Gives.report (gives : check.Gives written locals issues sites before)
    (more : List Issue) :
    check.Gives written locals (issues ++ more) sites (before.1, before.2.report more) := by
  constructor
  case written => exact gives.written
  case locals => exact gives.locals
  case loops => exact gives.loops
  case issues => rw [Check.report, gives.issues, List.append_assoc]
  case moments => exact gives.moments

theorem Gives.enter (gives : check.Gives written check.locals issues sites before)
    (spreads : check.locals.Spreads enclosing) (piece : Piece) :
    check.Gives written check.locals issues (sites ++ [⟨piece, enclosing⟩])
      (before.1, before.2.enter piece) := by
  obtain ⟨moments, isMiddle, reached⟩ := gives.moments
  have here : Moment.Reaches ⟨piece, before.2.locals, before.2.loops⟩ ⟨piece, enclosing⟩ :=
    ⟨rfl, gives.locals ▸ spreads⟩
  constructor
  case written => exact gives.written
  case locals => exact gives.locals
  case loops => exact gives.loops
  case issues => exact gives.issues
  case moments =>
    refine ⟨_, ?_, List.rel_append reached (.cons here .nil)⟩
    rw [Check.enter, isMiddle, List.append_assoc]

theorem Gives.examine (gives : check.Gives written check.locals issues sites before)
    (spreads : check.locals.Spreads enclosing) (ctx : Context) (expr : Expr)
    (found : Context → List Issue) :
    check.Gives ((check.place ctx).annotate expr) check.locals
      (issues ++ found (check.place ctx)) (sites ++ [⟨.expr expr, enclosing⟩])
      (Check.examine ctx expr found before.2) := by
  have here : before.2.place ctx = check.place ctx := gives.place
  have reported := (gives.enter spreads (.expr expr)).report (found (check.place ctx))
  rw [← here] at reported ⊢
  exact reported.returns rfl

theorem Gives.examineOption (gives : check.Gives written check.locals issues sites before)
    (spreads : check.locals.Spreads enclosing) (ctx : Context) (expr : Option Expr)
    (found : Expr → Context → List Issue) :
    check.Gives ((check.place ctx).annotateOption expr) check.locals
      (issues ++ (expr.map (found · (check.place ctx))).getD [])
      (sites ++ expr.toList.map fun expr => ⟨.expr expr, enclosing⟩)
      (Check.examineOption ctx expr found before.2) := by
  cases expr with
  | none =>
    rw [Option.map_none, Option.getD_none, Option.toList_none, List.map_nil, List.append_nil,
      List.append_nil]
    exact gives.returns rfl
  | some expr =>
    have examined := gives.examine spreads ctx expr (found expr)
    exact examined.returns (congrArg some examined.written)

theorem Gives.inScope {run : StateM Check β} {type : Context → β} {found : Context → List Issue}
    {inner : List (Entry Ty) → List Site}
    (gives : check.Gives written check.locals issues sites before)
    (spreads : check.locals.Spreads enclosing) (part : Finds ctx run type found inner) :
    check.Gives (type (check.place ctx).nested) check.locals
      (issues ++ found (check.place ctx).nested) (sites ++ inner enclosing)
      (Check.inScope run before.2) := by
  let opened : Check := { before.2 with locals := before.2.locals.push }
  have isOpen : opened.locals.Spreads enclosing := by
    rw [← gives.locals] at spreads
    exact spreads.push
  have here : before.2.place ctx = check.place ctx := gives.place
  have inside : opened.place ctx = (check.place ctx).nested := congrArg Context.nested here
  obtain ⟨locals, kept, part⟩ := part opened enclosing isOpen
  rw [inside] at part
  have closed : before.2.Gives (type (check.place ctx).nested) check.locals
      (found (check.place ctx).nested) (inner enclosing) (Check.inScope run before.2) := by
    constructor
    case written => exact part.written
    case locals =>
      show (run opened).2.locals.pop = check.locals
      rw [part.locals, kept, SymbolTable.pop_push, gives.locals]
    case loops => exact part.loops
    case issues => exact part.issues
    case moments => exact part.moments
  exact gives.trans closed

theorem Gives.inLoop {run : StateM Check β} {type : Context → β} {found : Context → List Issue}
    {inner : List (Entry Ty) → List Site}
    (gives : check.Gives written check.locals issues sites before)
    (spreads : check.locals.Spreads enclosing) (part : Finds ctx run type found inner) :
    check.Gives (type (check.place ctx).inBody) check.locals
      (issues ++ found (check.place ctx).inBody) (sites ++ inner enclosing)
      (Check.inLoop (Check.inScope run) before.2) := by
  let entered : Check := { before.2 with loops := before.2.loops + 1 }
  have spread : entered.locals.Spreads enclosing := by rwa [← gives.locals] at spreads
  have here : before.2.place ctx = check.place ctx := gives.place
  have inside : (entered.place ctx).nested = (check.place ctx).inBody := by
    rw [← here]
    simp [entered, Check.place, Context.within, Context.nested, Context.inBody]
  have part := (Gives.refl entered ()).inScope spread part
  rw [inside] at part
  have left : before.2.Gives (type (check.place ctx).inBody) check.locals
      (found (check.place ctx).inBody) (inner enclosing)
      (Check.inLoop (Check.inScope run) before.2) := by
    constructor
    case written => exact part.written
    case locals => exact part.locals.trans gives.locals
    case loops => exact congrArg (· - 1) part.loops
    case issues => exact part.issues
    case moments => exact part.moments
  exact gives.trans left

theorem Gives.declare (gives : check.Gives written check.locals issues sites before)
    (ctx : Context) (span : Span) (type : Ty) (name : String) (init : Expr) :
    check.Gives written ((check.place ctx).after (.decl span type name init)).locals
      (issues ++ Issue.ofOutcome span ((check.place ctx).declareVariable name type)) sites
      (before.1, before.2.declare ctx span name type) := by
  have locals : (check.place ctx).locals = check.locals := rfl
  rw [Check.declare, Context.after, Context.declareVariable, locals, gives.locals]
  cases isReserved name with
  | true => exact gives.report _
  | false =>
    cases check.locals.lookupChain name with
    | some => exact gives.report _
    | none =>
      constructor
      case written => exact gives.written
      case locals => rfl
      case loops => exact gives.loops
      case issues => exact gives.issues.trans (by simp [Issue.ofOutcome])
      case moments => exact gives.moments

theorem Gives.place_after {stmt : Stmt}
    (gives : check.Gives written ((check.place ctx).after stmt).locals issues sites before) :
    before.2.place ctx = (check.place ctx).after stmt := by
  rw [gives.place]
  cases stmt with
  | decl =>
    simp only [Context.after]
    split <;> rfl
  | _ => rfl

theorem finds_stmt {stmt : Stmt}
    (gives : ∀ {check : Check} {enclosing : List (Entry Ty)}, check.locals.Spreads enclosing →
      check.Gives ((check.place ctx).annotateStmt stmt) ((check.place ctx).after stmt).locals
        ((check.place ctx).issuesOfStmt stmt) (stmt.sites ctx.method enclosing)
        (Check.stmt ctx stmt check)) :
    Finds ctx (Check.stmt ctx stmt) (·.annotateStmt stmt) (·.issuesOfStmt stmt)
      (stmt.sites ctx.method) := by
  intro start enclosing spreads
  exact ⟨_, Context.pop_after .., gives spreads⟩

end Parts

-- By induction on statements. Carried along is that what is declared around a statement is spread
-- over the scopes that are open when it is checked.
mutual

theorem gives_stmt (ctx : Context) : ∀ (stmt : Stmt) {check : Check} {enclosing : List (Entry Ty)},
    check.locals.Spreads enclosing →
      check.Gives ((check.place ctx).annotateStmt stmt) ((check.place ctx).after stmt).locals
        ((check.place ctx).issuesOfStmt stmt) (stmt.sites ctx.method enclosing)
        (Check.stmt ctx stmt check)
  | .expr span value, check, _, spreads => by
    have entered := (Gives.refl check ()).enter spreads (.stmt (.expr span value))
    have examined := entered.examine spreads ctx value fun place => place.issuesOf value
    exact examined.returns (congrArg (Stmt.expr span) examined.written)
  | .decl span type name init, check, _, spreads => by
    have entered := (Gives.refl check ()).enter spreads (.stmt (.decl span type name init))
    have typed := entered.report (Issue.ofOutcome span (ctx.checkType type))
    have initial := typed.examine spreads ctx init
      fun place => place.issuesOf init ++ place.initializerIssues type .localVariable name init
    have declared := initial.declare ctx span type name init
    rw [← List.append_assoc] at declared
    exact declared.returns (congrArg (Stmt.decl span type name) initial.written)
  | .block span body, check, _, spreads => by
    have entered := (Gives.refl check ()).enter spreads (.stmt (.block span body))
    have inner := entered.inScope spreads (finds_block ctx body)
    exact inner.returns (congrArg (Stmt.block span) inner.written)
  | .branch span condition thenBranch elseBranch, check, enclosing, spreads => by
    have entered := (Gives.refl check ()).enter spreads
      (.stmt (.branch span condition thenBranch elseBranch))
    have tested := entered.examine spreads ctx condition
      fun place => place.conditionIssues .branch condition
    have first := tested.inScope spreads (finds_stmt (gives_stmt ctx thenBranch))
    have second := gives_otherwise ctx spreads elseBranch first
    rw [List.append_assoc _ (thenBranch.sites ..)] at second
    have written := congr (congr (congrArg (Stmt.branch span) tested.written) first.written)
      second.written
    exact second.returns written
  | .whileLoop span condition body, check, _, spreads => by
    have entered := (Gives.refl check ()).enter spreads (.stmt (.whileLoop span condition body))
    have tested := entered.examine spreads ctx condition
      fun place => place.conditionIssues .whileLoop condition
    have looped := tested.inLoop spreads (finds_stmt (gives_stmt ctx body))
    have written := congr (congrArg (Stmt.whileLoop span) tested.written) looped.written
    exact looped.returns written
  | .forLoop span init condition update body, check, _, spreads => by
    have entered := (Gives.refl check ()).enter spreads
      (.stmt (.forLoop span init condition update body))
    have started := entered.examineOption spreads ctx init
      fun expr place => place.clauseIssues .initialization (some expr)
    have tested := started.examineOption spreads ctx condition
      fun expr place => place.conditionIssues .forLoop expr
    have updated := tested.examineOption spreads ctx update
      fun expr place => place.clauseIssues .update (some expr)
    have looped := updated.inLoop spreads (finds_stmt (gives_stmt ctx body))
    have header := congr (congr (congrArg (Stmt.forLoop span) started.written) tested.written)
      updated.written
    have written := congr header looped.written
    cases init <;> cases condition <;> cases update <;> exact looped.returns written
  | .leave span, check, _, spreads => by
    have entered := (Gives.refl check ()).enter spreads (.stmt (.leave span))
    have outside : (check.loops == 0) = !(check.place ctx).inLoop := by
      cases found : check.loops <;> simp [place, Context.within, found]
    rw [Context.issuesOfStmt, ← outside]
    exact (entered.report _).returns rfl
  | .giveBack span none, check, _, spreads => by
    have entered := (Gives.refl check ()).enter spreads (.stmt (.giveBack span none))
    exact (entered.report (ctx.returnIssues span none)).returns rfl
  | .giveBack span (some value), check, _, spreads => by
    have entered := (Gives.refl check ()).enter spreads (.stmt (.giveBack span (some value)))
    have examined := entered.examine spreads ctx value
      fun place => place.returnIssues span (some value)
    exact examined.returns (congrArg (Stmt.giveBack span ∘ some) examined.written)

theorem gives_otherwise (ctx : Context) {α : Type} {check : Check} {written : α}
    {issues : List Issue} {sites : List Site} {before : α × Check} {enclosing : List (Entry Ty)}
    (spreads : check.locals.Spreads enclosing) :
    ∀ inner : Option Stmt, check.Gives written check.locals issues sites before →
      check.Gives ((check.place ctx).nested.annotateElse inner) check.locals
        (issues ++ (check.place ctx).nested.issuesOfElse inner)
        (sites ++ elseSites ctx.method enclosing inner) (otherwise ctx inner before.2)
  | none, gives => by
    rw [Context.issuesOfElse, elseSites, List.append_nil, List.append_nil]
    exact gives.returns rfl
  | some inner, gives => by
    have checked := gives.inScope spreads (finds_stmt (gives_stmt ctx inner))
    exact checked.returns (congrArg some checked.written)

theorem finds_block (ctx : Context) : ∀ body : List Stmt,
    Finds ctx (block ctx body) (·.annotateBlock body) (·.issuesOfBlock body)
      (blockSites ctx.method · body)
  | [], start, _, _ => ⟨_, rfl, .refl start []⟩
  | first :: rest, start, enclosing, spreads => by
    have before := gives_stmt ctx first spreads
    -- The others are checked with what the first statement declares around them.
    have behind : (Check.stmt ctx first start).2.locals.Spreads
        (enclosing ++ (first.declared? ctx.method).toList) := by
      rw [before.locals]
      exact (start.place ctx).spreads_after spreads first
    obtain ⟨locals, kept, others⟩ := finds_block ctx rest _ _ behind
    refine ⟨locals, ?_, ?_⟩
    · rw [kept, before.locals, Context.pop_after]
      rfl
    · rw [before.place_after] at others
      have written := congr (congrArg List.cons before.written) others.written
      exact (before.trans others).returns written

end

/-- What a statement leaves behind it: the scopes and the loops around it as they were, and no more
bindings in the innermost scope than that of what it declares, which no open scope binds. -/
structure Framed (check : Check) (stmt : Stmt) (after : Check) : Prop where
  size : after.locals.size = check.locals.size
  loops : after.loops = check.loops
  outer : after.locals.pop = check.locals.pop
  innermost : after.locals = check.locals ∨
    ∃ span type name init, stmt = .decl span type name init ∧ isReserved name = false ∧
      (∀ scope ∈ check.locals.scopes, name ∉ scope.map Prod.fst) ∧
      after.locals = check.locals.add name type

theorem framed_stmt (ctx : Context) (stmt : Stmt) {check : Check} {enclosing : List (Entry Ty)}
    (spreads : check.locals.Spreads enclosing) :
    check.Framed stmt (Check.stmt ctx stmt check).2 := by
  have gives := gives_stmt ctx stmt spreads
  have after := (check.place ctx).locals_after stmt
  rw [← gives.locals] at after
  refine ⟨?_, gives.loops, ?_, ?_⟩
  · obtain same | ⟨_, type, name, _, -, -, -, added⟩ := after
    · rw [same]
      rfl
    · obtain ⟨innermost, others, scopes⟩ := List.exists_cons_of_ne_nil spreads.isOpen
      rw [added]
      simp [place, Context.within, SymbolTable.size, SymbolTable.add, scopes]
  · rw [gives.locals, Context.pop_after]
    rfl
  · obtain same | ⟨span, type, name, init, isDecl, unreserved, unbound, added⟩ := after
    · exact .inl same
    · refine .inr ⟨span, type, name, init, isDecl, unreserved, fun scope isScope => ?_, added⟩
      rw [← Scope.isSome_lookup, Option.not_isSome_iff_eq_none]
      exact List.findSome?_eq_none_iff.mp unbound scope isScope

theorem gives_ofMethod (hierarchy : Hierarchy) (id : ClassId) (method : Method) :
    let ctx := Context.ofMethod hierarchy id method
    Gives { locals := method.environment } (ctx.annotateBlock method.body) method.environment
      (ctx.issuesOfBlock method.body) method.sites (ofMethod hierarchy id method) := by
  intro ctx
  have gives := (Gives.refl { locals := method.environment } ()).inScope
    method.spreads_environment (finds_block ctx method.body)
  have start : (Check.place { locals := method.environment } ctx).nested = ctx := by
    simp only [ctx, Context.ofMethod, method.table_bindFormals]
    rfl
  rw [start] at gives
  exact gives

end Check

/-- Every variable has its scope. The check of a body, which carries one environment through all
statements, writes the types of the body, finds its issues and ends outside of all loops with the
formals alone in scope. On its way it goes through the statements of the body and their expressions
as they are written. Wherever it is, the open scopes have no name in common, and a name stands for
the one declaration around that place that is bound for it, or else for a field. A statement that is
checked there gets the types that its expressions have there; the scopes and the loops around it are
left as they were, and the innermost scope has no more than the binding of what it declares. -/
theorem locals_scoped (hierarchy : Hierarchy) (id : ClassId) (method : Method) :
    let ctx := Context.ofMethod hierarchy id method
    let body := (Check.ofMethod hierarchy id method).1
    let check := (Check.ofMethod hierarchy id method).2
    (body = ctx.annotateBlock method.body ∧ check.locals = method.environment ∧ check.loops = 0 ∧
      check.issues = ctx.issuesOfBlock method.body) ∧
    List.Forall₂ (fun moment site => moment.piece = site.piece ∧
      (ctx.within moment.locals moment.loops).Scoped site.enclosing ∧
      ∀ stmt, site.piece = .stmt stmt → ∀ before : Check, before.locals = moment.locals →
        before.loops = moment.loops →
          (Check.stmt ctx stmt before).1 =
            (ctx.within moment.locals moment.loops).annotateStmt stmt ∧
          before.Framed stmt (Check.stmt ctx stmt before).2)
      check.moments method.sites := by
  intro ctx body check
  obtain ⟨written, locals, loops, issues, moments, gone, reached⟩ :=
    Check.gives_ofMethod hierarchy id method
  refine ⟨⟨written, locals, loops, issues⟩, ?_⟩
  rw [show check.moments = moments from gone]
  refine reached.imp fun moment site ⟨piece, spreads⟩ => ⟨piece, ?_, ?_⟩
  · exact Context.scoped_of_spreads spreads
  · intro stmt isStmt before sameLocals sameLoops
    have spread : before.locals.Spreads site.enclosing := sameLocals ▸ spreads
    have gives := Check.gives_stmt ctx stmt spread
    rw [Check.place, sameLocals, sameLoops] at gives
    exact ⟨gives.written, Check.framed_stmt ctx stmt spread⟩

-- A name is free again behind the block that declares it, and taken inside of one further on.
example :
    let declared : Stmt := .decl default .int "a" (.int ⟨default, none⟩ 1)
    (Check.ofMethod builtins 0 ⟨.void, "m", [], [.block default [declared], declared,
      .block default [declared]], default⟩).2.issues =
        [⟨default, .duplicateVariable "a" "m"⟩] := by
  rfl

end Bantam
