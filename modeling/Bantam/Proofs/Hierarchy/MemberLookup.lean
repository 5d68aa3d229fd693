import Bantam.Proofs.Typing.ValidMembers

/-! Member lookup. The search for a member goes up from the table of a class to that of its parent
and is bounded by nothing but the tree of classes. It ends, and it finds the first declaration in
the nearest class that has one. -/
namespace Bantam

namespace SymbolTable
variable {α : Type} {resolve : Nat → Option (SymbolTable α)} {name : String}
  {table : SymbolTable α}

/-- A search that starts at a table and goes up until a table binds the name or has no parent. -/
inductive Search (resolve : Nat → Option (SymbolTable α)) (name : String) :
    SymbolTable α → Option α → Prop
  | bound {table : SymbolTable α} {value : α} (here : table.lookupChain name = some value) :
      Search resolve name table (some value)
  | top {table : SymbolTable α} (unbound : table.lookupChain name = none)
      (parentless : table.parent = none) : Search resolve name table none
  | climb {table above : SymbolTable α} {parent : Nat} {result : Option α}
      (unbound : table.lookupChain name = none) (isParent : table.parent = some parent)
      (resolved : resolve parent = some above) (rest : Search resolve name above result) :
      Search resolve name table result

theorem Search.unique {first second : Option α} (left : Search resolve name table first)
    (right : Search resolve name table second) : first = second := by
  induction left with
  | bound here =>
    cases right with
    | bound again => exact here.symm.trans again
    | top unbound => exact here.symm.trans unbound
    | climb unbound => exact absurd (here.symm.trans unbound) (Option.some_ne_none _)
  | top unbound parentless =>
    cases right with
    | bound here => exact unbound.symm.trans here
    | top => rfl
    | climb _ isParent => exact absurd (isParent.symm.trans parentless) (Option.some_ne_none _)
  | climb unbound isParent resolved _ ih =>
    cases right with
    | bound here => exact absurd (here.symm.trans unbound) (Option.some_ne_none _)
    | top _ parentless => exact absurd (isParent.symm.trans parentless) (Option.some_ne_none _)
    | climb _ isOther found rest =>
      cases isParent.symm.trans isOther
      cases resolved.symm.trans found
      exact ih rest

theorem Flat.size_eq (flat : table.Flat) : table.size = 1 := by
  obtain ⟨scope, scopes⟩ := flat
  rw [size, scopes]
  rfl

end SymbolTable

namespace MemberTables

theorem flat_foldl_declare (className : String) (members : List Member) {tables : MemberTables}
    (fields : tables.fields.Flat) (methods : tables.methods.Flat) :
    (members.foldl (declare className) tables).fields.Flat ∧
      (members.foldl (declare className) tables).methods.Flat := by
  induction members generalizing tables with
  | nil => exact ⟨fields, methods⟩
  | cons member rest ih =>
    apply ih
    · cases member with
      | field => exact Binding.flat_declare fields
      | method => rw [fields_declare_method]; exact fields
    · cases member with
      | field => exact methods
      | method => exact Binding.flat_declare methods

theorem flat_ofClass (decl : ClassDecl) :
    (ofClass decl).fields.Flat ∧ (ofClass decl).methods.Flat :=
  flat_foldl_declare decl.name decl.members SymbolTable.flat_push_empty SymbolTable.flat_push_empty

end MemberTables

namespace Hierarchy
variable {α : Type} {hierarchy : Hierarchy} {tables : ClassNode → SymbolTable α} {name : String}
  {id : ClassId} {node : ClassNode} {program : Program}

/-- In a tree of classes every search ends, with what the nearest class on the way up binds. -/
theorem search_iff (closed : hierarchy.Closed) (acyclic : hierarchy.Acyclic)
    (chained : hierarchy.Chained tables) (found : hierarchy.node? id = some node)
    (result : Option α) :
    SymbolTable.Search (fun id => (hierarchy.node? id).map tables) name (tables node) result ↔
      result = (id :: hierarchy.ancestors id).findSome? (hierarchy.own tables name) := by
  have ends : SymbolTable.Search (fun id => (hierarchy.node? id).map tables) name (tables node)
      ((id :: hierarchy.ancestors id).findSome? (hierarchy.own tables name)) := by
    -- The search has no bound of its own, so the induction is on the classes further up.
    induction id using (wellFounded_extends closed acyclic).induction generalizing node with
    | _ id ih =>
      have linked : (tables node).parent = hierarchy.parentOf? id :=
        (chained id node found).trans (parentOf?_eq found).symm
      rw [List.findSome?_cons, own_eq found]
      cases here : (tables node).lookupChain name with
      | some value => exact .bound here
      | none =>
        cases isParent : hierarchy.parentOf? id with
        | none =>
          rw [ancestors_of_parentless isParent]
          exact .top here (linked.trans isParent)
        | some parent =>
          obtain ⟨above, isAbove⟩ := exists_node (closed id parent isParent)
          rw [ancestors_of_extends closed acyclic isParent]
          exact .climb here (linked.trans isParent) (by rw [isAbove]; rfl)
            (ih parent isParent isAbove)
  constructor
  · exact fun search => search.unique ends
  · rintro rfl
    exact ends

def declOf? (hierarchy : Hierarchy) (program : Program) (id : ClassId) : Option ClassDecl :=
  (hierarchy.node? id).bind fun node => node.origin.decl? program

theorem exists_decl_hierarchy (found : program.hierarchy.node? id = some node) :
    ∃ decl, program.hierarchy.declOf? program id = some decl ∧ decl.name = node.name ∧
      node.fields = (MemberTables.ofClass decl).fields.setParent node.parent ∧
      node.methods = (MemberTables.ofClass decl).methods.setParent node.parent := by
  have inside : id < (ofProgram program).1.size := by
    simpa [Program.hierarchy, bindMembers] using node?_lt found
  obtain ⟨old, isOld⟩ := exists_node inside
  obtain ⟨decl, isDecl, named⟩ := sourced_ofProgram program id old isOld
  have bound := node?_bindMembers isOld isDecl
  cases found.symm.trans bound
  exact ⟨decl, by rw [declOf?, found]; exact isDecl, named, rfl, rfl⟩

end Hierarchy

namespace Program
open Hierarchy
variable {program : Program} {id : ClassId} {node : ClassNode} {name : String}

def declaredField? (program : Program) (name : String) (id : ClassId) : Option Ty :=
  (program.hierarchy.declOf? program id).bind fun decl =>
    (decl.fields.find? (·.name == name)).map Field.type

def declaredMethod? (program : Program) (name : String) (id : ClassId) : Option Signature :=
  (program.hierarchy.declOf? program id).bind fun decl =>
    (decl.methods.find? (·.name == name)).map Signature.ofMethod

/-- What the nearest class on the way up declares under a name, unless the name is reserved. -/
def nearest? {α : Type} (program : Program) (declared? : String → ClassId → Option α)
    (id : ClassId) (name : String) : Option α :=
  if isReserved name then none
  else (id :: program.hierarchy.ancestors id).findSome? (declared? name)

theorem own_fields_hierarchy (name : String) :
    program.hierarchy.own ClassNode.fields name = fun id =>
      if isReserved name then none else program.declaredField? name id := by
  funext id
  cases found : program.hierarchy.node? id with
  | none => simp [own, declaredField?, declOf?, found]
  | some node =>
    obtain ⟨decl, isDecl, -, fields, -⟩ := exists_decl_hierarchy found
    rw [own_eq found, fields, declaredField?, isDecl]
    exact MemberTables.lookupChain_fields decl name

theorem own_methods_hierarchy (name : String) :
    program.hierarchy.own ClassNode.methods name = fun id =>
      if isReserved name then none else program.declaredMethod? name id := by
  funext id
  cases found : program.hierarchy.node? id with
  | none => simp [own, declaredMethod?, declOf?, found]
  | some node =>
    obtain ⟨decl, isDecl, -, -, methods⟩ := exists_decl_hierarchy found
    rw [own_eq found, methods, declaredMethod?, isDecl]
    exact MemberTables.lookupChain_methods decl name

section Lookup
variable {α : Type} {tables : ClassNode → SymbolTable α} {declared? : String → ClassId → Option α}
  (owns : ∀ name, program.hierarchy.own tables name = fun id =>
    if isReserved name then none else declared? name id)
include owns

theorem findSome?_own (id : ClassId) (name : String) :
    (id :: program.hierarchy.ancestors id).findSome? (program.hierarchy.own tables name) =
      program.nearest? declared? id name := by
  rw [owns, nearest?]
  split
  · simp
  · rfl

theorem search_hierarchy (chained : program.hierarchy.Chained tables)
    (found : program.hierarchy.node? id = some node) (name : String) (result : Option α) :
    SymbolTable.Search (fun id => (program.hierarchy.node? id).map tables) name (tables node)
      result ↔ result = program.nearest? declared? id name := by
  rw [← findSome?_own owns]
  exact search_iff (closed_hierarchy program) (acyclic_hierarchy program) chained found result

end Lookup

theorem exists_field_of_nearest? {type : Ty}
    (found : program.nearest? program.declaredField? id name = some type) :
    ∃ above ∈ id :: program.hierarchy.ancestors id, ∃ decl,
      program.hierarchy.declOf? program above = some decl ∧
        ∃ field ∈ decl.fields, field.name = name ∧ field.type = type := by
  rw [nearest?] at found
  split at found
  · contradiction
  · obtain ⟨above, inside, declared⟩ := List.exists_of_findSome?_eq_some found
    obtain ⟨decl, isDecl, declared⟩ := Option.bind_eq_some_iff.mp declared
    obtain ⟨field, first, typed⟩ := Option.map_eq_some_iff.mp declared
    have named : field.name = name := by simpa using List.find?_some first
    exact ⟨above, inside, decl, isDecl, field, List.mem_of_find?_eq_some first, named, typed⟩

/-- How the members of a class are found once the members of all classes are bound: the class has a
declaration, its tables have one scope each, and the searches that start at them end with what the
nearest class declares. What is found as a field has been declared as one. -/
structure FindsMembers (program : Program) (id : ClassId) (node : ClassNode) : Prop where
  isDecl : ∃ decl, program.hierarchy.declOf? program id = some decl ∧ decl.name = node.name
  one_scope : node.fields.size = 1 ∧ node.methods.size = 1
  field_search : ∀ name result,
    SymbolTable.Search (fun id => (program.hierarchy.node? id).map ClassNode.fields) name
      node.fields result ↔ result = program.nearest? program.declaredField? id name
  method_search : ∀ name result,
    SymbolTable.Search (fun id => (program.hierarchy.node? id).map ClassNode.methods) name
      node.methods result ↔ result = program.nearest? program.declaredMethod? id name
  field : ∀ name, program.hierarchy.lookupField id name =
    program.nearest? program.declaredField? id name
  method : ∀ name, program.hierarchy.lookupMethod id name =
    program.nearest? program.declaredMethod? id name
  field_declared : ∀ name type, program.hierarchy.lookupField id name = some type →
    ∃ above ∈ id :: program.hierarchy.ancestors id, ∃ decl,
      program.hierarchy.declOf? program above = some decl ∧
        ∃ field ∈ decl.fields, field.name = name ∧ field.type = type

/-- In every program, whatever its classes and members are called and however often, a member that
is looked up in a class is the first one of the name in the nearest class that declares it. -/
theorem lookup_finds_nearest (program : Program) (id : ClassId) (node : ClassNode)
    (found : program.hierarchy.node? id = some node) : program.FindsMembers id node := by
  obtain ⟨chainedFields, chainedMethods⟩ := chained_hierarchy program
  have closed := closed_hierarchy program
  have acyclic := acyclic_hierarchy program
  have field (name : String) : program.hierarchy.lookupField id name =
      program.nearest? program.declaredField? id name :=
    (lookupField_eq closed acyclic chainedFields id).trans
      (findSome?_own own_fields_hierarchy id name)
  refine {
    isDecl := ?isDecl
    one_scope := ?one_scope
    field_search := search_hierarchy own_fields_hierarchy chainedFields found
    method_search := search_hierarchy own_methods_hierarchy chainedMethods found
    field
    method := ?method
    field_declared := ?field_declared }
  case isDecl =>
    obtain ⟨decl, isDecl, named, -⟩ := exists_decl_hierarchy found
    exact ⟨decl, isDecl, named⟩
  case one_scope =>
    obtain ⟨decl, -, -, fields, methods⟩ := exists_decl_hierarchy found
    have flat := MemberTables.flat_ofClass decl
    rw [fields, methods]
    exact ⟨flat.1.size_eq, flat.2.size_eq⟩
  case method =>
    intro name
    exact (lookupMethod_eq closed acyclic chainedMethods id).trans
      (findSome?_own own_methods_hierarchy id name)
  case field_declared =>
    intro name type typed
    rw [field] at typed
    exact exists_field_of_nearest? typed

def inheriting : Program := ⟨[
  ⟨"A", none, [.field ⟨.int, "x", none, default⟩,
    .method ⟨.void, "f", [⟨.boolean, "y", default⟩], [], default⟩,
    .field ⟨.boolean, "x", none, default⟩], "Inherit.btm", default⟩,
  ⟨"B", some "A", [], "Inherit.btm", default⟩]⟩

theorem lookup_finds_nearest_inherited :
    (∃ node, inheriting.hierarchy.node? 5 = some node ∧ inheriting.FindsMembers 5 node) ∧
      inheriting.hierarchy.lookupField 5 "x" = some .int ∧
      inheriting.hierarchy.lookupField 5 "y" = none ∧
      (inheriting.hierarchy.lookupMethod 5 "toString").map Signature.returns = some .string :=
  ⟨⟨_, rfl, lookup_finds_nearest inheriting 5 _ rfl⟩, rfl, rfl, rfl⟩

end Program

end Bantam
