import Bantam.Proofs.Hierarchy.DistinctClasses
import Bantam.Proofs.Typing.KnownTypes
import Bantam.Proofs.Typing.Pieces

/-! Types written into programs. Main statement: an analysis gives a type to every expression of
every class that it registers, whatever is wrong, and leaves the declarations that it ignores alone.
If nothing is wrong, every type exists, or is that of `null` or void. -/
namespace Bantam
open Relation Typing

namespace Hierarchy
variable {hierarchy : Hierarchy} {type element : Ty} {name : String}

/-- The types that expressions can have. -/
def Gives (hierarchy : Hierarchy) (type : Ty) : Prop :=
  hierarchy.hasType type ∨ type = .null ∨ type = .void

/-- Whatever the classes declare has a type that exists, and every parent is a class. -/
structure Formed (hierarchy : Hierarchy) : Prop where
  builtin : ∀ name ∈ builtinNames, name ∈ hierarchy.names
  closed : hierarchy.Closed
  fields : ∀ id name type, hierarchy.lookupField id name = some type → hierarchy.hasType type
  returns : ∀ id name signature, hierarchy.lookupMethod id name = some signature →
    hierarchy.Gives signature.returns

theorem hasType_named (known : name ∈ hierarchy.names) : hierarchy.hasType (.named name) := by
  rw [hasType, isElement, (isSome_idOf? name).mpr known, Bool.or_true]
  intro element same
  cases same

theorem hasType_element (isType : hierarchy.hasType (.array element)) :
    hierarchy.hasType element := by
  cases element with
  | named name => exact isType
  | array inner => contradiction

theorem nameOf_mem {id : ClassId} (inside : id < hierarchy.size) :
    hierarchy.nameOf id ∈ hierarchy.names := by
  obtain ⟨node, found⟩ := exists_node inside
  rw [nameOf, found]
  exact List.mem_map_of_mem (List.mem_of_getElem? found)

theorem Formed.object (formed : hierarchy.Formed) : hierarchy.Gives .object :=
  .inl (hasType_named (formed.builtin rootClass (by decide)))

end Hierarchy

namespace Context
variable {ctx : Context}

/-- The place is in a class, and the variables there have types that exist. -/
structure Formed (ctx : Context) : Prop where
  hierarchy : ctx.hierarchy.Formed
  self : ctx.classId < ctx.hierarchy.size
  locals : ∀ name type, ctx.env.locals name = some type → ctx.hierarchy.hasType type

namespace Formed
variable (formed : ctx.Formed)
include formed

theorem nested : ctx.nested.Formed where
  hierarchy := formed.hierarchy
  self := formed.self
  locals := by
    rw [env_nested]
    exact formed.locals

theorem inBody : ctx.inBody.Formed where
  hierarchy := formed.hierarchy
  self := formed.self
  locals := by
    rw [env_inBody]
    exact formed.locals

theorem after {stmt : Stmt} (clean : ctx.issuesOfStmt stmt = []) : (ctx.after stmt).Formed := by
  cases stmt with
  | decl span type name init =>
    simp only [issuesOfStmt, List.append_eq_nil_iff, Issue.ofOutcome_eq_nil] at clean
    obtain ⟨⟨⟨⟨checked, isType⟩, -⟩, -⟩, locals, declared⟩ := clean
    obtain ⟨-, isType⟩ := (checkType_eq_ok.mp isType).1
    have place := @after_decl ctx span type name init locals declared
    simp only [Context.after, declared] at place ⊢
    refine ⟨formed.hierarchy, formed.self, fun other found bound => ?_⟩
    rw [place, Env.declare] at bound
    dsimp only at bound
    split at bound
    · cases bound
      exact isType
    · exact formed.locals other found bound
  | _ => exact formed

theorem gives_resolveName (name : String) :
    ctx.hierarchy.Gives (orObject (ctx.resolveName name)) := by
  unfold resolveName
  split
  · exact .inl (Hierarchy.hasType_named (Hierarchy.nameOf_mem formed.self))
  split
  · unfold orObject parentName
    dsimp only
    split
    · next inherits =>
      have inside := formed.hierarchy.closed _ _ inherits
      exact .inl (Hierarchy.hasType_named (Hierarchy.nameOf_mem inside))
    · exact formed.hierarchy.object
  split
  · exact .inr (.inl rfl)
  · split
    · next type found =>
      cases isLocal : ctx.locals.lookupChain name with
      | some bound =>
        rw [isLocal] at found
        cases found
        exact .inl (formed.locals name type isLocal)
      | none =>
        rw [isLocal] at found
        exact .inl (formed.hierarchy.fields _ name type found)
    · exact formed.hierarchy.object

theorem gives_resolveVariable (qualifier : Option Qualifier) (name : String) (indexed : Bool) :
    ctx.hierarchy.Gives (orObject (ctx.resolveVariable qualifier name indexed)) := by
  cases qualifier with
  | none => exact formed.gives_resolveName name
  | some qualifier =>
    unfold resolveVariable resolveField
    dsimp only
    split
    · split
      · next found => exact .inl (formed.hierarchy.fields _ name _ found)
      · exact formed.hierarchy.object
    · split
      · exact .inl rfl
      · exact formed.hierarchy.object

theorem gives_variableType (qualifier : Option Qualifier) (name : String) (indexed : Bool) :
    ctx.hierarchy.Gives (ctx.variableType qualifier name indexed) := by
  have whole := formed.gives_resolveVariable qualifier name indexed
  unfold variableType
  cases indexed with
  | false => exact whole
  | true =>
    simp only [if_true]
    generalize orObject (ctx.resolveVariable qualifier name true) = type at whole ⊢
    cases type with
    | named => exact whole
    | array element =>
      rcases whole with isType | isNull | isVoid
      · exact .inl (Hierarchy.hasType_element isType)
      · contradiction
      · contradiction

theorem gives_callType (receiver : Option Ty) (method : String) :
    ctx.hierarchy.Gives (ctx.callType receiver method) := by
  unfold callType
  cases called : ctx.calledMethod? receiver method with
  | none => exact formed.hierarchy.object
  | some signature =>
    obtain ⟨owner, -, found⟩ := Option.bind_eq_some_iff.mp called
    exact formed.hierarchy.returns owner method signature found

theorem gives_orObject {type : Except SemanticError Ty}
    (exists_ : ∀ found, type = .ok found → ctx.hierarchy.hasType found) :
    ctx.hierarchy.Gives (orObject type) := by
  cases type with
  | ok found => exact .inl (exists_ found rfl)
  | error => exact formed.hierarchy.object

/-- The type of an expression exists, also where the expression is wrong. -/
theorem gives_typeOf (expr : Expr) : ctx.hierarchy.Gives (ctx.typeOf expr) := by
  have checked (type found : Ty) (ok : ctx.checkType type = .ok found) :
      ctx.hierarchy.hasType found := by
    obtain ⟨isType, rfl⟩ := checkType_eq_ok.mp ok
    exact isType.2
  cases expr with
  | int | bool | instanceOf => exact .inl rfl
  | string => exact .inl (Hierarchy.hasType_named (formed.hierarchy.builtin "String" (by decide)))
  | var | assign => exact formed.gives_variableType _ _ _
  | call => exact formed.gives_callType _ _
  | new _ className =>
    refine formed.gives_orObject fun found ok => ?_
    obtain ⟨known, rfl⟩ := resolveClass_eq_ok.mp ok
    exact Hierarchy.hasType_named ((Hierarchy.isSome_idOf? className).mp known)
  | newArray _ element =>
    refine formed.gives_orObject fun found ok => ?_
    cases elementOk : ctx.checkType (.named element) with
    | error => rw [elementOk] at ok; contradiction
    | ok type =>
      rw [elementOk] at ok
      cases ok
      obtain ⟨isType, rfl⟩ := checkType_eq_ok.mp elementOk
      exact isType.2
  | cast _ type => exact formed.gives_orObject (checked type)
  | binary _ op =>
    unfold typeOf BinaryOp.resultType
    split <;> exact .inl rfl
  | unary _ op =>
    unfold typeOf UnaryOp.type
    split <;> exact .inl rfl

end Formed

end Context

/-- The piece is one with the types of its expressions. Where the premise holds, its place is well
formed and nothing is wrong with its statements. -/
inductive Annotated (premise : Prop) (hierarchy : Hierarchy) : Piece → Prop
  | field {ctx : Context} {field : Field} (place : ctx.hierarchy = hierarchy)
      (formed : premise → ctx.Formed) :
      Annotated premise hierarchy (.field { field with init := ctx.annotateOption field.init })
  | stmt {ctx : Context} {stmt : Stmt} (place : ctx.hierarchy = hierarchy)
      (formed : premise → ctx.Formed) (clean : premise → ctx.issuesOfStmt stmt = []) :
      Annotated premise hierarchy (.stmt (ctx.annotateStmt stmt))
  | expr {ctx : Context} {expr : Expr} (place : ctx.hierarchy = hierarchy)
      (formed : premise → ctx.Formed) : Annotated premise hierarchy (.expr (ctx.annotate expr))

namespace Annotated
variable {premise : Prop} {hierarchy : Hierarchy} {ctx : Context}
  (place : ctx.hierarchy = hierarchy) (formed : premise → ctx.Formed)

theorem gives {expr : Expr} (annotated : Annotated premise hierarchy (.expr expr)) :
    ∃ type, expr.type? = some type ∧ (premise → hierarchy.Gives type) := by
  cases annotated with
  | @expr ctx expr place formed =>
    refine ⟨ctx.typeOf expr, ?_, fun holds => place ▸ (formed holds).gives_typeOf expr⟩
    cases expr <;> rfl

include place formed

theorem mem_option {expr : Option Expr} :
    ∀ part ∈ (ctx.annotateOption expr).toList, Annotated premise hierarchy (.expr part) := by
  cases expr with
  | none => exact List.forall_mem_nil _
  | some expr => exact List.forall_mem_singleton.mpr (.expr place formed)

theorem mem_list {exprs : List Expr} :
    ∀ part ∈ ctx.annotateList exprs, Annotated premise hierarchy (.expr part) := by
  induction exprs with
  | nil => exact List.forall_mem_nil _
  | cons expr rest ih => exact List.forall_mem_cons.mpr ⟨.expr place formed, ih⟩

theorem mem_parts (expr : Expr) :
    ∀ part ∈ (ctx.annotate expr).parts, Annotated premise hierarchy (.expr part) := by
  have inner := @mem_option premise hierarchy ctx place formed
  have one (expr : Expr) : Annotated premise hierarchy (.expr (ctx.annotate expr)) :=
    .expr place formed
  cases expr with
  | int | bool | string | new => exact fun _ none => nomatch none
  | var => exact List.forall_mem_append.mpr ⟨inner, inner⟩
  | assign =>
    exact List.forall_mem_append.mpr
      ⟨List.forall_mem_append.mpr ⟨inner, inner⟩, List.forall_mem_singleton.mpr (one _)⟩
  | call => exact List.forall_mem_append.mpr ⟨inner, mem_list place formed⟩
  | newArray | instanceOf | cast | unary => exact List.forall_mem_singleton.mpr (one _)
  | binary =>
    exact List.forall_mem_cons.mpr ⟨one _, List.forall_mem_singleton.mpr (one _)⟩

theorem mem_exprs (stmt : Stmt) :
    ∀ part ∈ (ctx.annotateStmt stmt).exprs, Annotated premise hierarchy (.expr part) := by
  have inner := @mem_option premise hierarchy ctx place formed
  have one (expr : Expr) : Annotated premise hierarchy (.expr (ctx.annotate expr)) :=
    .expr place formed
  cases stmt with
  | block | leave => exact fun _ none => nomatch none
  | expr | decl | branch | whileLoop => exact List.forall_mem_singleton.mpr (one _)
  | forLoop =>
    exact List.forall_mem_append.mpr ⟨List.forall_mem_append.mpr ⟨inner, inner⟩, inner⟩
  | giveBack => exact inner

omit place formed

theorem mem_block : ∀ {ctx : Context} {stmts : List Stmt}, ctx.hierarchy = hierarchy →
    (premise → ctx.Formed) → (premise → ctx.issuesOfBlock stmts = []) →
      ∀ part ∈ ctx.annotateBlock stmts, Annotated premise hierarchy (.stmt part)
  | _, [], _, _, _ => fun _ none => nomatch none
  | ctx, next :: _, place, formed, clean => by
    have first (holds : premise) := (List.append_eq_nil_iff.mp (clean holds)).1
    have others (holds : premise) := (List.append_eq_nil_iff.mp (clean holds)).2
    have behind : (ctx.after next).hierarchy = hierarchy := by
      rw [← place]
      cases next with
      | decl => unfold Context.after; dsimp only; split <;> rfl
      | _ => rfl
    exact List.forall_mem_cons.mpr ⟨.stmt place formed first,
      mem_block behind (fun holds => (formed holds).after (first holds)) others⟩

include place formed

theorem mem_else {stmt : Option Stmt} (clean : premise → ctx.issuesOfElse stmt = []) :
    ∀ part ∈ (ctx.annotateElse stmt).toList, Annotated premise hierarchy (.stmt part) := by
  cases stmt with
  | none => exact List.forall_mem_nil _
  | some stmt => exact List.forall_mem_singleton.mpr (.stmt place formed clean)

theorem mem_stmts {stmt : Stmt} (clean : premise → ctx.issuesOfStmt stmt = []) :
    ∀ part ∈ (ctx.annotateStmt stmt).parts, Annotated premise hierarchy (.stmt part) := by
  have nested (holds : premise) := (formed holds).nested
  have inBody (holds : premise) := (formed holds).inBody
  cases stmt with
  | expr | decl | leave | giveBack => exact fun _ none => nomatch none
  | block => exact mem_block place nested clean
  | branch =>
    have inside : ctx.nested.hierarchy = hierarchy := place
    simp only [Context.issuesOfStmt, List.append_eq_nil_iff] at clean
    exact List.forall_mem_cons.mpr ⟨.stmt inside nested fun holds => (clean holds).1.2,
      mem_else inside nested fun holds => (clean holds).2⟩
  | whileLoop | forLoop =>
    simp only [Context.issuesOfStmt, List.append_eq_nil_iff] at clean
    exact List.forall_mem_singleton.mpr (.stmt place inBody fun holds => (clean holds).2)

omit place formed

theorem of_contains {id : ClassId} {decl : ClassDecl} {piece : Piece}
    (fields : premise → (Context.ofClass hierarchy id).Formed)
    (methods : ∀ method ∈ decl.methods, premise →
      (Context.ofMethod hierarchy id method).Formed ∧
        (Context.ofMethod hierarchy id method).issuesOfBlock method.body = [])
    (contained : Program.Contains ⟨[hierarchy.annotateClass id decl]⟩ piece) :
    Annotated premise hierarchy piece := by
  induction contained with
  | field declared member =>
    cases List.mem_singleton.mp declared
    obtain ⟨member, inside, same⟩ := List.mem_map.mp (ClassDecl.mem_fields.mp member)
    cases member with
    | field field => cases same; exact .field rfl fields
    | method => contradiction
  | body declared member inBody =>
    cases List.mem_singleton.mp declared
    obtain ⟨member, inside, same⟩ := List.mem_map.mp (ClassDecl.mem_methods.mp member)
    cases member with
    | field => contradiction
    | method method =>
      cases same
      have placed := methods method (ClassDecl.mem_methods.mpr inside)
      exact mem_block rfl (fun holds => (placed holds).1) (fun holds => (placed holds).2) _ inBody
  | stmt _ part ih =>
    cases ih with
    | stmt place formed clean => exact mem_stmts place formed clean _ part
  | expr _ part ih =>
    cases ih with
    | field place formed => exact mem_option place formed _ part
    | stmt place formed => exact mem_exprs place formed _ _ part
    | expr place formed => exact mem_parts place formed _ _ part

end Annotated

namespace Program
open Hierarchy
variable {program : Program} {id index : Nat} {decl : ClassDecl}

theorem builtin_returns {node : ClassNode} (found : builtins.node? id = some node)
    (origin : node.origin = .builtin decl) : ∀ method ∈ decl.methods,
      method.returns ∈ [Ty.void, .int, .boolean, .object, .string, .named "TextIO"] := by
  match id, found with
  | 0, found => cases found; cases origin; decide
  | 1, found => cases found; cases origin; decide
  | 2, found => cases found; cases origin; decide
  | 3, found => cases found; cases origin; decide
  | _ + 4, found => cases found

theorem gives_of_builtin {type : Ty}
    (builtin : type ∈ [Ty.void, .int, .boolean, .object, .string, .named "TextIO"]) :
    program.hierarchy.Gives type := by
  have known (name : String) (builtin : name ∈ builtinNames) :
      program.hierarchy.Gives (.named name) := .inl (hasType_named (mem_names_hierarchy builtin))
  simp only [List.mem_cons, List.not_mem_nil, or_false] at builtin
  rcases builtin with rfl | rfl | rfl | rfl | rfl | rfl
  · exact .inr (.inr rfl)
  · exact .inl rfl
  · exact .inl rfl
  · exact known rootClass (by decide)
  · exact known "String" (by decide)
  · exact known "TextIO" (by decide)

theorem Valid.formed {typed : Program} (valid : program.Valid typed) :
    program.hierarchy.Formed where
  builtin name := mem_names_hierarchy
  closed := closed_hierarchy program
  fields id name type found := (valid.isValueType_of_lookupField found).2
  returns id name signature found := by
    rw [lookupMethod_eq (closed_hierarchy program) (acyclic_hierarchy program)
      (chained_hierarchy program).2] at found
    obtain ⟨owner, -, found⟩ := List.exists_of_findSome?_eq_some found
    obtain ⟨decl, isClass, method, isMethod, -, rfl⟩ := valid.own_method found
    cases isClass with
    | builtin isBuiltin origin =>
      exact gives_of_builtin (builtin_returns isBuiltin origin method isMethod)
    | declared member registered =>
      obtain ⟨member', derived⟩ :=
        valid.memberTyped member registered (ClassDecl.mem_methods.mp isMethod)
      cases derived with
      | method returns =>
        rcases returns with isVoid | isType
        · exact .inr (.inr isVoid)
        · exact .inl isType

/-- A built-in class or an earlier declaration has the name of the declaration. -/
def Ignores (program : Program) (index : Nat) (decl : ClassDecl) : Prop :=
  decl.name ∈ builtinNames ∨ ∃ earlier ∈ program.classes.take index, earlier.name = decl.name

end Program

namespace Hierarchy

/-- A declaration is registered if no class and no declaration before it has its name. -/
theorem declared_mem_register (hierarchy : Hierarchy) (index : Nat) {decls : List ClassDecl}
    {place : Nat} {decl : ClassDecl} (here : decls[place]? = some decl)
    (before : ∀ node ∈ hierarchy.nodes, ∀ later ≥ index, node.origin.index? ≠ some later) :
    (∃ node ∈ (hierarchy.register index decls).1.nodes,
      node.origin.index? = some (index + place)) ↔
      decl.name ∉ hierarchy.names ∧
        ∀ earlier ∈ decls.take place, earlier.name ≠ decl.name := by
  induction decls generalizing hierarchy index place with
  | nil => contradiction
  | cons first rest ih =>
    rw [register]
    split
    · next known =>
      have known := (isSome_idOf? first.name).mp known
      have before' : ∀ node ∈ hierarchy.nodes, ∀ later ≥ index + 1,
          node.origin.index? ≠ some later :=
        fun node member later above => before node member later (Nat.le_of_succ_le above)
      cases place with
      | zero =>
        cases here
        obtain ⟨added, nodes, declared⟩ := register_nodes hierarchy (index + 1) rest
        refine iff_of_false ?_ fun free => free.1 known
        rintro ⟨node, member, stands⟩
        rcases List.mem_append.mp (nodes ▸ member) with old | isNew
        · exact before node old index (Nat.le_refl index) stands
        · obtain ⟨place, other, -, rfl⟩ := declared node isNew
          have same : index + 1 + place = index + 0 := Option.some.inj stands
          omega
      | succ place =>
        rw [show index + (place + 1) = index + 1 + place by omega,
          ih hierarchy (index + 1) here before', List.take_succ_cons, List.forall_mem_cons]
        exact and_congr_right fun free =>
          (and_iff_right fun same : first.name = decl.name => free (same ▸ known)).symm
    · next free =>
      have free : first.name ∉ hierarchy.names := fun known =>
        free ((isSome_idOf? first.name).mpr known)
      have before' : ∀ node ∈ (hierarchy.insert (fresh index first)).nodes, ∀ later ≥ index + 1,
          node.origin.index? ≠ some later := by
        refine List.forall_mem_append.mpr ⟨fun node member later above =>
          before node member later (Nat.le_of_succ_le above), ?_⟩
        refine List.forall_mem_singleton.mpr fun later above same => ?_
        have same : index = later := Option.some.inj same
        omega
      cases place with
      | zero =>
        cases here
        obtain ⟨added, nodes, -⟩ :=
          register_nodes (hierarchy.insert (fresh index decl)) (index + 1) rest
        refine iff_of_true ⟨fresh index decl, ?_, rfl⟩ ⟨free, List.forall_mem_nil _⟩
        exact nodes ▸ List.mem_append_left added (List.mem_append_right _ List.mem_cons_self)
      | succ place =>
        have names : (hierarchy.insert (fresh index first)).names =
          hierarchy.names ++ [first.name] := names_insert _
        rw [show index + (place + 1) = index + 1 + place by omega,
          show (hierarchy.insert { name := first.name, origin := .declared index }) =
            hierarchy.insert (fresh index first) from rfl,
          ih _ (index + 1) here before', names, List.take_succ_cons, List.forall_mem_cons,
          List.mem_append, List.mem_singleton, not_or, and_assoc, ne_comm]

end Hierarchy

namespace Program
open Hierarchy
variable {program : Program} {index : Nat} {decl : ClassDecl}

theorem idOfDecl?_eq_none_iff (here : program.classes[index]? = some decl) :
    program.hierarchy.idOfDecl? index = none ↔ program.Ignores index decl := by
  have enlists : program.hierarchy.Enlists program :=
    enlists_linked.cutCycles.rebuild.bindMembers
  have origins := enlists.origins
  have stands : (∃ node ∈ program.hierarchy.nodes, node.origin.index? = some index) ↔
      ∃ node ∈ (registered program).nodes, node.origin.index? = some index := by
    have moved (nodes : List ClassNode) : (∃ node ∈ nodes, node.origin.index? = some index) ↔
        ∃ origin ∈ nodes.map ClassNode.origin, origin.index? = some index := by
      simp only [List.mem_map, exists_exists_and_eq_and]
    rw [moved, origins, ← moved]
  have old : ∀ node ∈ builtins.nodes, ∀ later ≥ 0, node.origin.index? ≠ some later := by
    intro node member later _ same
    obtain ⟨id, found⟩ := List.mem_iff_getElem?.mp member
    rw [(parent_builtin found).1] at same
    contradiction
  have registers := declared_mem_register builtins 0 here old
  rw [Nat.zero_add] at registers
  rw [← not_iff_not, idOfDecl?, ← ne_eq, ← Option.isSome_iff_ne_none, List.findIdx?_isSome,
    List.any_eq_true]
  simp only [beq_iff_eq]
  rw [stands]
  refine registers.trans ?_
  rw [Ignores, not_or, names_builtins]
  simp only [not_exists, not_and]
  rfl

theorem idOfDecl?_lt {hierarchy : Hierarchy} {id : ClassId}
    (found : hierarchy.idOfDecl? index = some id) : id < hierarchy.size :=
  (List.findIdx?_eq_some_iff_getElem.mp found).1

/-- In a valid program, all places of a class are well formed, and nothing is wrong there. -/
theorem Valid.formed_class {typed : Program} (valid : program.Valid typed)
    (here : program.classes[index]? = some decl) {id : ClassId}
    (found : program.hierarchy.idOfDecl? index = some id) :
    (Context.ofClass program.hierarchy id).Formed ∧ ∀ method ∈ decl.methods,
      (Context.ofMethod program.hierarchy id method).Formed ∧
        (Context.ofMethod program.hierarchy id method).issuesOfBlock method.body = [] := by
  have inside := idOfDecl?_lt found
  refine ⟨⟨valid.formed, inside, fun _ _ bound => nomatch bound⟩, fun method member => ?_⟩
  obtain ⟨clean, -⟩ := valid_iff.mp valid
  obtain ⟨-, clean⟩ : _ ∧ program.hierarchy.typeDiagnostics program = [] :=
    List.append_eq_nil_iff.mp clean
  have entry : (decl, index) ∈ program.classes.zipIdx := List.mem_zipIdx_iff_getElem?.mpr here
  have clean := List.flatMap_eq_nil_iff.mp clean (decl, index) entry
  have clean : program.hierarchy.classDiagnostics id decl = [] := by
    simpa only [found] using clean
  have clean := List.flatMap_eq_nil_iff.mp (List.map_eq_nil_iff.mp clean) (.method method)
    (ClassDecl.mem_methods.mp member)
  obtain ⟨clean, body⟩ := List.append_eq_nil_iff.mp clean
  have formals := formalIssues_eq_nil.mp (List.append_eq_nil_iff.mp clean).2
  have proper := (valid.members decl (List.mem_of_getElem? here)).formals method member
  refine ⟨⟨valid.formed, inside, fun name type bound => ?_⟩, body⟩
  rw [Context.env_ofMethod proper] at bound
  obtain ⟨formal, isFormal, rfl⟩ := Option.map_eq_some_iff.mp bound
  exact (formals formal (List.mem_of_find?_eq_some isFormal)).2

end Program

/-- An analysis leaves as they are the declarations that it ignores, and writes types into all
others and nothing else. There every expression has a type, which exists or is that of `null` or
void if nothing was wrong. -/
theorem analysis_annotates (program : Program) :
    (analyze program).program.classes.length = program.classes.length ∧
      ∀ index decl, program.classes[index]? = some decl →
        ∃ typed, (analyze program).program.classes[index]? = some typed ∧
          (program.Ignores index decl → typed = decl) ∧
          (¬ program.Ignores index decl → typed.mark .untyped = decl.mark .untyped ∧
            ∀ expr, Program.Contains ⟨[typed]⟩ (.expr expr) →
              ∃ type, expr.type? = some type ∧
                ((analyze program).diagnostics = [] →
                  (analyze program).hierarchy.hasType type ∨ type = .null ∨ type = .void)) := by
  refine ⟨List.length_mapIdx, fun index decl here => ?_⟩
  have image : (analyze program).program.classes[index]? =
      some ((program.hierarchy.idOfDecl? index).elim decl
        (program.hierarchy.annotateClass · decl)) := by
    show (program.hierarchy.annotateProgram program).classes[index]? = _
    rw [Hierarchy.annotateProgram, List.getElem?_mapIdx, here, Option.map_some]
    cases program.hierarchy.idOfDecl? index <;> rfl
  refine ⟨_, image, fun ignored => ?_, fun registered => ?_⟩
  · rw [(Program.idOfDecl?_eq_none_iff here).mpr ignored]
    rfl
  · rw [← Program.idOfDecl?_eq_none_iff here] at registered
    obtain ⟨id, found⟩ := Option.ne_none_iff_exists'.mp registered
    rw [found]
    refine ⟨Hierarchy.untyped_annotateClass program.hierarchy id decl, fun expr contained => ?_⟩
    have valid (clean : (analyze program).diagnostics = []) :
        program.Valid (analyze program).program := Program.valid_iff.mpr ⟨clean, rfl⟩
    have placed (clean : (analyze program).diagnostics = []) :=
      (valid clean).formed_class here found
    exact (Annotated.of_contains (fun clean => (placed clean).1)
      (fun method member clean => (placed clean).2 method member) contained).gives

end Bantam
