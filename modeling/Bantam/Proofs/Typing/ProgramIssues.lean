import Bantam.Proofs.Hierarchy.DeclaredParents
import Bantam.Proofs.Typing.ExpressionIssues
import Bantam.Proofs.Typing.ValidMembers

/-! Where the diagnostics of an analysis are, and what they name. Each of them is about one class of
the program, in its file, and within whatever bounds hold for its declaration, as long as they hold
for the words of the other classes too. The one exception is that there is no class to start. -/
namespace Bantam

variable {bounds : Bounds}

namespace Context.Within
section
variable {ctx : Context} (within : ctx.Within bounds.word)
include within

theorem nested : ctx.nested.Within bounds.word where
  hierarchy := within.hierarchy
  locals := by
    intro name type bound
    rw [Context.nested, SymbolTable.lookupChain_push] at bound
    exact within.locals name type bound
  method := within.method
  returns := within.returns

theorem inBody : ctx.inBody.Within bounds.word where
  hierarchy := within.hierarchy
  locals := within.nested.locals
  method := within.method
  returns := within.returns

theorem declareVariable {name : String} (named : bounds.word name) (type : Ty)
    {error : SemanticError} (failed : ctx.declareVariable name type = .error error) :
    error.Within bounds.word := by
  unfold Context.declareVariable at failed
  split at failed
  · cases failed
    exact named
  · split at failed
    · cases failed
      exact ⟨named, within.method⟩
    · contradiction

theorem after {stmt : Stmt} (inside : stmt.Within bounds) :
    (ctx.after stmt).Within bounds.word := by
  cases stmt with
  | decl span type name init =>
    unfold Context.after
    dsimp only
    split
    · next locals declared =>
      refine ⟨within.hierarchy, fun other found bound => ?_, within.method, within.returns⟩
      unfold Context.declareVariable at declared
      split at declared
      · contradiction
      split at declared
      · contradiction
      cases declared
      rw [SymbolTable.lookupChain_add] at bound
      split at bound
      · cases bound
        exact inside.2.1
      · exact within.locals other found bound
    · exact within
  | _ => exact within

theorem initializerIssues {type : Ty} (typed : type.Within bounds.word) (declared : Declared)
    {name : String} (named : bounds.word name) {init : Expr} (inside : init.Within bounds) :
    AllWithin bounds (ctx.initializerIssues type declared name init) := by
  unfold Context.initializerIssues
  split
  · exact .nil
  · exact .ofCondition inside.place ⟨within.typeOf inside, typed, named⟩

theorem conditionIssues (construct : Conditional) {condition : Expr}
    (inside : condition.Within bounds) :
    AllWithin bounds (ctx.conditionIssues construct condition) := by
  have typed := within.typeOf inside
  unfold Context.conditionIssues
  apply (within.issuesOf inside).append
  exact .ofCondition inside.place typed

theorem loopConditionIssues {condition : Option Expr}
    (inside : Expr.WithinOption bounds condition) :
    AllWithin bounds ((condition.map (ctx.conditionIssues .forLoop)).getD []) := by
  cases condition with
  | none => exact .nil
  | some condition => exact within.conditionIssues .forLoop inside

theorem clauseIssues (clause : Clause) {expr : Option Expr}
    (inside : Expr.WithinOption bounds expr) : AllWithin bounds (ctx.clauseIssues clause expr) := by
  cases expr with
  | none => exact .nil
  | some expr =>
    have typed := within.typeOf inside
    unfold Context.clauseIssues
    apply (within.issuesOf inside).append
    exact .ofCondition inside.place typed

theorem returnIssues {span : Span} (place : bounds.place span) {value : Option Expr}
    (inside : Expr.WithinOption bounds value) : AllWithin bounds (ctx.returnIssues span value) := by
  cases value with
  | none => exact .ofCondition place within.returns
  | some value =>
    refine .append (within.issuesOf inside) ?_
    split
    · exact .single inside.place trivial
    · exact .ofCondition inside.place ⟨within.typeOf inside, within.returns⟩

end

mutual

theorem issuesOfStmt : ∀ {ctx : Context} {stmt : Stmt}, ctx.Within bounds.word →
    stmt.Within bounds → AllWithin bounds (ctx.issuesOfStmt stmt)
  | _, .expr _ _, within, ⟨_, inside⟩ => within.issuesOf inside
  | ctx, .decl _ type name _, within, ⟨place, typed, named, inside⟩ => by
    have written := ctx.checkType_within typed
    have initial := within.issuesOf inside
    have conforms := within.initializerIssues typed .localVariable named inside
    have declared (error : SemanticError) (failed : ctx.declareVariable name type = .error error) :
        error.Within bounds.word := within.declareVariable named type failed
    rw [Context.issuesOfStmt]
    apply AllWithin.append
    · exact ((AllWithin.ofResult place written).append initial).append conforms
    · exact .ofOutcome place declared
  | _, .block _ _, within, ⟨_, inside⟩ => within.nested.issuesOfBlock inside
  | _, .branch _ _ _ _, within, ⟨_, test, first, second⟩ => by
    have tested := within.conditionIssues .branch test
    have thenBranch := within.nested.issuesOfStmt first
    have elseBranch := within.nested.issuesOfElse second
    rw [Context.issuesOfStmt]
    exact (tested.append thenBranch).append elseBranch
  | _, .whileLoop _ _ _, within, ⟨_, test, inside⟩ => by
    have tested := within.conditionIssues .whileLoop test
    have body := within.inBody.issuesOfStmt inside
    rw [Context.issuesOfStmt]
    exact tested.append body
  | _, .forLoop _ _ _ _ _, within, ⟨_, before, test, after, inside⟩ => by
    have started := within.clauseIssues .initialization before
    have tested := within.loopConditionIssues test
    have updated := within.clauseIssues .update after
    have body := within.inBody.issuesOfStmt inside
    rw [Context.issuesOfStmt]
    exact ((started.append tested).append updated).append body
  | _, .leave _, _, place => .ofCondition place trivial
  | _, .giveBack _ _, within, ⟨place, inside⟩ => within.returnIssues place inside

theorem issuesOfElse : ∀ {ctx : Context} {stmt : Option Stmt}, ctx.Within bounds.word →
    Stmt.WithinOption bounds stmt → AllWithin bounds (ctx.issuesOfElse stmt)
  | _, none, _, _ => .nil
  | _, some _, within, inside => within.issuesOfStmt inside

theorem issuesOfBlock : ∀ {ctx : Context} {stmts : List Stmt}, ctx.Within bounds.word →
    Stmt.WithinList bounds stmts → AllWithin bounds (ctx.issuesOfBlock stmts)
  | _, [], _, _ => .nil
  | _, _ :: _, within, ⟨first, others⟩ => by
    have head := within.issuesOfStmt first
    have tail := (within.after first).issuesOfBlock others
    exact head.append tail

end

end Context.Within

/-- What is seen of a class from elsewhere has such words. -/
structure ClassDecl.Declares (word : String → Prop) (decl : ClassDecl) : Prop where
  name : word decl.name
  field : ∀ field ∈ decl.fields, field.type.Within word
  method : ∀ method ∈ decl.methods, method.returns.Within word ∧
    ∀ formal ∈ method.formals, formal.type.Within word

theorem ClassDecl.Within.declares {decl : ClassDecl} (within : decl.Within bounds) :
    decl.Declares bounds.word where
  name := within.word
  field _ member := (within.members _ (mem_fields.mp member)).2.1
  method _ member := by
    have inside := within.members _ (mem_methods.mp member)
    exact ⟨inside.2.1, fun formal isFormal => (inside.2.2.2.1 formal isFormal).type⟩

theorem Binding.issues_declare {α : Type} {binding : Binding α} {name : String} {value : α}
    {span : Span} {taken : SemanticError} (before : AllWithin bounds binding.issues)
    (place : bounds.place span) (named : bounds.word name) (blamed : taken.Within bounds.word) :
    AllWithin bounds (binding.declare name value span taken).issues := by
  unfold declare
  split
  · exact before.append (.single place named)
  · split
    · exact before.append (.single place blamed)
    · exact before

theorem Binding.lookupChain_declare_cases {α : Type} {binding : Binding α} {name other : String}
    {value bound : α} {span : Span} {taken : SemanticError}
    (found : (binding.declare name value span taken).table.lookupChain other = some bound) :
    bound = value ∨ binding.table.lookupChain other = some bound := by
  unfold declare at found
  split at found
  · exact .inr found
  split at found
  · exact .inr found
  · rw [SymbolTable.lookupChain_add] at found
    split at found
    · exact .inl (Option.some.inj found).symm
    · exact .inr found

namespace Method
variable {method : Method}

theorem issues_bindFormals (named : bounds.word method.name)
    (formals : ∀ formal ∈ method.formals, formal.Within bounds) (table : SymbolTable Ty) :
    AllWithin bounds (method.bindFormals table).issues := by
  unfold bindFormals
  refine List.foldlRecOn (motive := fun binding : Binding Ty => AllWithin bounds binding.issues)
    _ _ .nil ?_
  intro binding before formal member
  have inside := formals formal member
  exact Binding.issues_declare before inside.place inside.word ⟨inside.word, named⟩

theorem lookupChain_bindFormals {word : String → Prop}
    (formals : ∀ formal ∈ method.formals, formal.type.Within word) (name : String) (type : Ty)
    (found : (method.bindFormals .empty).table.lookupChain name = some type) :
    type.Within word := by
  revert found
  unfold bindFormals
  refine List.foldlRecOn (motive := fun binding : Binding Ty =>
    binding.table.lookupChain name = some type → type.Within word) _ _ (nomatch ·) ?_
  intro binding before formal member found
  rcases Binding.lookupChain_declare_cases found with rfl | earlier
  · exact formals formal member
  · exact before earlier

end Method

theorem MemberTables.issues_ofClass {decl : ClassDecl} (within : decl.Within bounds) :
    AllWithin bounds (MemberTables.ofClass decl).issues := by
  unfold ofClass
  refine List.foldlRecOn (motive := fun tables : MemberTables => AllWithin bounds tables.issues)
    _ _ .nil ?_
  intro tables before member isMember
  have inside := within.members member isMember
  cases member with
  | field field =>
    have bound : AllWithin bounds (Binding.declare ⟨tables.fields, []⟩ field.name field.type
        field.span (.duplicateField field.name decl.name)).issues :=
      Binding.issues_declare .nil inside.1 inside.2.2.1 ⟨inside.2.2.1, within.word⟩
    exact before.append bound
  | method method =>
    obtain ⟨place, -, named, formals, -⟩ := inside
    have bound : AllWithin bounds (Binding.declare ⟨tables.methods, []⟩ method.name
        (.ofMethod method) method.span (.duplicateMethod method.name decl.name)).issues :=
      Binding.issues_declare .nil place named ⟨named, within.word⟩
    exact (before.append bound).append (method.issues_bindFormals named formals tables.fields)

def builtinDecls : List ClassDecl :=
  [Builtin.object, Builtin.string, Builtin.textIO, Builtin.sys]

theorem fixedWords_builtin : ∀ decl ∈ builtinDecls, decl.name ∈ fixedWords ∧
    (∀ field ∈ decl.fields, ∃ name ∈ fixedWords, field.type = .named name) ∧
    ∀ method ∈ decl.methods, ∀ type ∈ method.returns :: method.formals.map Formal.type,
      ∃ name ∈ fixedWords, type = .named name := by
  decide

theorem issues_builtin : ∀ decl ∈ builtinDecls, (MemberTables.ofClass decl).issues = [] := by
  decide

section Classes
variable {word : String → Prop} (fixed : ∀ name ∈ fixedWords, word name)
include fixed

theorem declares_builtin {decl : ClassDecl} (builtin : decl ∈ builtinDecls) :
    decl.Declares word := by
  have typed {type : Ty} (known : ∃ name ∈ fixedWords, type = .named name) : type.Within word := by
    obtain ⟨name, isFixed, rfl⟩ := known
    exact fixed name isFixed
  obtain ⟨named, fields, methods⟩ := fixedWords_builtin decl builtin
  refine ⟨fixed _ named, fun field member => typed (fields field member), fun method member => ?_⟩
  obtain ⟨returns, formals⟩ := List.forall_mem_cons.mp (methods method member)
  exact ⟨typed returns, fun formal isFormal => typed (formals _ (List.mem_map_of_mem isFormal))⟩

end Classes

namespace Hierarchy
variable {hierarchy : Hierarchy} {program : Program} {id : ClassId} {node : ClassNode}
  {decl : ClassDecl}

/-- Every class has a declaration, which is built in or in the program. -/
theorem Enlists.exists_decl_of_node (enlists : hierarchy.Enlists program)
    (found : hierarchy.node? id = some node) :
    ∃ decl, node.origin.decl? program = some decl ∧ decl.name = node.name ∧
      (decl ∈ builtinDecls ∨ decl ∈ program.classes) := by
  have name : hierarchy.names[id]? = some node.name := by
    rw [getElem?_names, found]
    rfl
  have origin : (hierarchy.nodes.map ClassNode.origin)[id]? = some node.origin := by
    rw [List.getElem?_map]
    exact congrArg (Option.map ClassNode.origin) found
  rw [enlists.names, getElem?_names] at name
  rw [enlists.origins, List.getElem?_map] at origin
  obtain ⟨other, isOther, same⟩ := Option.map_eq_some_iff.mp name
  have origin : other.origin = node.origin := by
    rw [show (registered program).nodes[id]? = some other from isOther] at origin
    exact Option.some.inj origin
  rw [← origin, ← same]
  rcases node?_registered isOther with builtin | ⟨-, index, decl, here, rfl⟩
  · match id, builtin with
    | 0, builtin => cases builtin; exact ⟨_, rfl, rfl, .inl (.head _)⟩
    | 1, builtin => cases builtin; exact ⟨_, rfl, rfl, .inl (.tail _ (.head _))⟩
    | 2, builtin => cases builtin; exact ⟨_, rfl, rfl, .inl (.tail _ (.tail _ (.head _)))⟩
    | 3, builtin =>
      cases builtin
      exact ⟨_, rfl, rfl, .inl (.tail _ (.tail _ (.tail _ (.head _))))⟩
    | _ + 4, builtin => cases builtin
  · exact ⟨decl, here, rfl, .inr (List.mem_of_getElem? here)⟩

theorem enlists_ofProgram (program : Program) : (ofProgram program).1.Enlists program :=
  enlists_linked.cutCycles.rebuild

section Within
variable {word : String → Prop} (fixed : ∀ name ∈ fixedWords, word name)
  (declares : ∀ decl ∈ program.classes, decl.Declares word)
include fixed declares

theorem exists_declares (found : (ofProgram program).1.node? id = some node) :
    ∃ decl, node.origin.decl? program = some decl ∧ decl.name = node.name ∧
      decl.Declares word := by
  obtain ⟨decl, isDecl, named, builtin | declared⟩ :=
    (enlists_ofProgram program).exists_decl_of_node found
  · exact ⟨decl, isDecl, named, declares_builtin fixed builtin⟩
  · exact ⟨decl, isDecl, named, declares decl declared⟩

/-- What is bound in a class is bound for a declaration with such words. -/
theorem exists_declares_of_own {α : Type} {tables : ClassNode → SymbolTable α} {name : String}
    {value : α} (found : program.hierarchy.own tables name id = some value) :
    ∃ node decl, (ofProgram program).1.node? id = some node ∧
      node.origin.decl? program = some decl ∧ decl.Declares word := by
  obtain ⟨bound, isBound, -⟩ := Option.bind_eq_some_iff.mp found
  have inside : id < (ofProgram program).1.size := by
    simpa [Program.hierarchy, Hierarchy.bindMembers] using node?_lt isBound
  obtain ⟨node, isNode⟩ := exists_node inside
  obtain ⟨decl, isDecl, -, declared⟩ := exists_declares fixed declares isNode
  exact ⟨node, decl, isNode, isDecl, declared⟩

theorem within_hierarchy : program.hierarchy.Within word where
  fixed := fixed
  name id := by
    rw [nameOf]
    cases found : program.hierarchy.node? id with
    | none => exact fixed "" (by decide)
    | some node =>
      show word node.name
      obtain ⟨decl, -, named, builtin | declared⟩ :=
        (enlists_ofProgram program).bindMembers.exists_decl_of_node found
      · exact named ▸ (declares_builtin fixed builtin).name
      · exact named ▸ (declares decl declared).name
  field id name type found := by
    rw [lookupField_eq (closed_hierarchy program) (acyclic_hierarchy program)
      (chained_hierarchy program).1] at found
    obtain ⟨owner, -, found⟩ := List.exists_of_findSome?_eq_some found
    obtain ⟨node, decl, isNode, isDecl, declared⟩ := exists_declares_of_own fixed declares found
    rw [Program.hierarchy, own_fields_bindMembers isNode isDecl] at found
    split at found
    · contradiction
    · obtain ⟨field, isField, rfl⟩ := Option.map_eq_some_iff.mp found
      exact declared.field field (List.mem_of_find?_eq_some isField)
  method id name signature found := by
    rw [lookupMethod_eq (closed_hierarchy program) (acyclic_hierarchy program)
      (chained_hierarchy program).2] at found
    obtain ⟨owner, -, found⟩ := List.exists_of_findSome?_eq_some found
    obtain ⟨node, decl, isNode, isDecl, declared⟩ := exists_declares_of_own fixed declares found
    rw [Program.hierarchy, own_methods_bindMembers isNode isDecl] at found
    split at found
    · contradiction
    · obtain ⟨method, isMethod, rfl⟩ := Option.map_eq_some_iff.mp found
      obtain ⟨returns, formals⟩ := declared.method method (List.mem_of_find?_eq_some isMethod)
      refine ⟨returns, fun type isType => ?_⟩
      rw [Signature.types, Signature.ofMethod, List.map_map] at isType
      obtain ⟨formal, isFormal, rfl⟩ := List.mem_map.mp isType
      exact formals formal isFormal

end Within

/-- The diagnostic is an issue of a class of the program, and the issue is within all bounds that
the declaration of the class is within, if they ask for such words. -/
def Concerns (word : String → Prop) (program : Program) (diagnostic : Diagnostic) : Prop :=
  ∃ decl ∈ program.classes, ∃ issue : Issue, diagnostic = issue.toDiagnostic decl.file ∧
    ∀ place, decl.Within ⟨place, word⟩ → issue.Within ⟨place, word⟩

section Diagnostics
variable {word : String → Prop}

theorem concerns_class (member : decl ∈ program.classes) {error : SemanticError}
    (named : ∀ place, decl.Within ⟨place, word⟩ → error.Within word) :
    Concerns word program (decl.diagnostic error) :=
  ⟨decl, member, ⟨decl.span, error⟩, rfl, fun place inside => ⟨inside.place, named place inside⟩⟩

theorem mem_of_declared {hierarchy : Hierarchy} (member : (id, decl) ∈ hierarchy.declared program) :
    decl ∈ program.classes := by
  obtain ⟨node, -, isDecl⟩ := mem_declared_iff.mp member
  cases origin : node.origin with
  | builtin => rw [origin] at isDecl; contradiction
  | declared index =>
    rw [origin] at isDecl
    exact List.mem_of_getElem? isDecl

theorem concerns_duplicates : ∀ diagnostic ∈ (builtins.register 0 program.classes).2,
    Concerns word program diagnostic := by
  intro diagnostic reported
  obtain ⟨decl, member, rfl⟩ := register_ignores _ _ _ diagnostic reported
  exact concerns_class member fun _ inside => inside.word

theorem requestedParent_error {error : SemanticError}
    (refused : hierarchy.requestedParent decl = .error error) : ∃ parent ∈ decl.parent,
      error = .undefinedParent decl.name parent ∨ error = .builtinParent decl.name parent := by
  unfold requestedParent at refused
  split at refused
  · contradiction
  · next parent asked =>
    refine ⟨parent, asked, ?_⟩
    split at refused
    · exact .inl (Except.error.inj refused).symm
    · split at refused
      · contradiction
      · exact .inr (Except.error.inj refused).symm

theorem concerns_parents : ∀ diagnostic ∈ hierarchy.parentDiagnostics program,
    Concerns word program diagnostic := by
  intro diagnostic reported
  obtain ⟨⟨id, decl⟩, member, reported⟩ := List.mem_filterMap.mp reported
  dsimp only at reported
  split at reported
  · contradiction
  · next error refused =>
    obtain rfl := Option.some.inj reported
    obtain ⟨parent, asked, rfl | rfl⟩ := requestedParent_error refused <;>
      exact concerns_class (mem_of_declared member)
        fun _ inside => ⟨inside.word, inside.parent parent asked⟩

theorem concerns_cycles : ∀ diagnostic ∈ hierarchy.cycleDiagnostics program,
    Concerns word program diagnostic := by
  intro diagnostic reported
  obtain ⟨⟨id, decl⟩, member, reported⟩ := List.mem_filterMap.mp reported
  dsimp only at reported
  split at reported
  · obtain rfl := Option.some.inj reported
    exact concerns_class (mem_of_declared member) fun _ inside => inside.word
  · contradiction

theorem concerns_main : ∀ diagnostic ∈ (ofProgram program).1.mainDiagnostics program,
    diagnostic = missingMain program ∨ Concerns word program diagnostic := by
  intro diagnostic reported
  rcases mainDiagnostics_cases reported with none | ⟨decl, isMain, rfl⟩
  · exact .inl none
  · obtain ⟨node, found, isDecl⟩ := Option.bind_eq_some_iff.mp isMain
    rw [find?] at found
    obtain ⟨id, isNode⟩ := List.mem_iff_getElem?.mp (List.mem_of_find?_eq_some found)
    have isNamed := List.find?_some found
    obtain ⟨other, isOther, same, builtin | declared⟩ :=
      (enlists_ofProgram program).exists_decl_of_node isNode
    · have unbuilt : ∀ decl ∈ builtinDecls, decl.name ≠ mainClass := by decide
      exact absurd (same.trans (beq_iff_eq.mp isNamed)) (unbuilt other builtin)
    · obtain rfl := Option.some.inj (isDecl.symm.trans isOther)
      exact .inr (concerns_class declared fun _ _ => trivial)

theorem concerns_members : ∀ diagnostic ∈ (ofProgram program).1.memberDiagnostics program,
    Concerns word program diagnostic := by
  intro diagnostic reported
  obtain ⟨decl, isClass, reported⟩ := List.mem_flatMap.mp reported
  obtain ⟨issue, isIssue, rfl⟩ := List.mem_map.mp reported
  obtain ⟨node, member, isDecl⟩ := List.mem_filterMap.mp isClass
  obtain ⟨id, isNode⟩ := List.mem_iff_getElem?.mp member
  obtain ⟨other, isOther, -, builtin | declared⟩ :=
    (enlists_ofProgram program).exists_decl_of_node isNode
  · obtain rfl := Option.some.inj (isDecl.symm.trans isOther)
    rw [issues_builtin decl builtin] at isIssue
    contradiction
  · obtain rfl := Option.some.inj (isDecl.symm.trans isOther)
    exact ⟨decl, declared, issue, rfl,
      fun _ inside => MemberTables.issues_ofClass inside issue isIssue⟩

end Diagnostics

/-- The issues of a member are within the bounds of its class. -/
theorem issuesOfMember_within (within : hierarchy.Within bounds.word) {member : Member}
    (inside : member.Within bounds) : AllWithin bounds (hierarchy.issuesOfMember id member) := by
  have empty : ∀ name type, (SymbolTable.empty.push : SymbolTable Ty).lookupChain name =
      some type → type.Within bounds.word := by
    intro _ _ none
    cases none
  cases member with
  | field field =>
    obtain ⟨place, typed, named, valued⟩ := inside
    have ctx : (Context.ofClass hierarchy id).Within bounds.word :=
      ⟨within, empty, within.fixed "" (by decide), within.fixed "void" (by decide)⟩
    refine .append (.ofResult place (Context.checkType_within _ typed)) ?_
    split
    · exact .nil
    · next init isInit =>
      rw [isInit] at valued
      have inside := ctx.issuesOf valued
      have conforms := ctx.initializerIssues typed .field named valued
      exact inside.append conforms
  | method method =>
    obtain ⟨place, returns, named, formals, body⟩ := inside
    have ctx : (Context.ofMethod hierarchy id method).Within bounds.word := by
      refine ⟨within, fun name type found => ?_, named, returns⟩
      rw [Context.ofMethod, SymbolTable.lookupChain_push] at found
      exact method.lookupChain_bindFormals (fun formal member => (formals formal member).type)
        name type found
    have returned : AllWithin bounds (hierarchy.returnTypeIssues method) :=
      .ofCondition place ⟨returns, named⟩
    have overriding : AllWithin bounds (hierarchy.overrideIssues id method) := by
      unfold overrideIssues
      split
      · exact .nil
      · exact .ofCondition place named
    have typed : AllWithin bounds (method.formals.flatMap fun formal =>
        Issue.ofOutcome formal.span
          ((Context.ofMethod hierarchy id method).checkType formal.type)) := by
      intro issue reported
      obtain ⟨formal, member, reported⟩ := List.mem_flatMap.mp reported
      have inside := formals formal member
      exact AllWithin.ofResult inside.place (Context.checkType_within _ inside.type) issue reported
    exact ((returned.append overriding).append typed).append (ctx.issuesOfBlock body)

theorem concerns_types {word : String → Prop} (within : hierarchy.Within word) :
    ∀ diagnostic ∈ hierarchy.typeDiagnostics program, Concerns word program diagnostic := by
  intro diagnostic reported
  obtain ⟨⟨decl, index⟩, entry, reported⟩ := List.mem_flatMap.mp reported
  have declared := List.mem_of_getElem? (List.mem_zipIdx_iff_getElem?.mp entry)
  dsimp only at reported
  split at reported
  · contradiction
  · next id _ =>
    obtain ⟨issue, isIssue, rfl⟩ := List.mem_map.mp reported
    obtain ⟨member, isMember, isIssue⟩ := List.mem_flatMap.mp isIssue
    refine ⟨decl, declared, issue, rfl, fun place inside => ?_⟩
    have all : AllWithin ⟨place, word⟩ (hierarchy.issuesOfMember id member) :=
      issuesOfMember_within within (inside.members member isMember)
    exact all issue isIssue

/-- Every diagnostic of an analysis is about a class of the program, unless it is that there is no
class to start. -/
theorem concerns_analyze {word : String → Prop} (fixed : ∀ name ∈ fixedWords, word name)
    (declares : ∀ decl ∈ program.classes, decl.Declares word) :
    ∀ diagnostic ∈ (analyze program).diagnostics,
      diagnostic = missingMain program ∨ Concerns word program diagnostic := by
  intro diagnostic reported
  rcases List.mem_append.mp reported with reported | types
  · rcases List.mem_append.mp reported with classes | members
    · rcases List.mem_append.mp classes with classes | main
      · rcases List.mem_append.mp classes with classes | cycles
        · rcases List.mem_append.mp classes with duplicates | parents
          · exact .inr (concerns_duplicates diagnostic duplicates)
          · exact .inr (concerns_parents diagnostic parents)
        · exact .inr (concerns_cycles diagnostic cycles)
      · exact concerns_main diagnostic main
    · exact .inr (concerns_members diagnostic members)
  · exact .inr (concerns_types (within_hierarchy fixed declares) diagnostic types)

end Hierarchy

end Bantam
