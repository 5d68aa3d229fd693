import Bantam.Proofs.Hierarchy.Inheritance

/-! The tables of classes. In the table of a class, a name stands for the first declaration of its
sort that has it, unless it is reserved: later declarations of the name bind nothing. The tables of
a bound hierarchy are linked as its classes are. -/
namespace Bantam

namespace SymbolTable
variable {α : Type} {table : SymbolTable α}

/-- No scope but one is open. -/
def Flat (table : SymbolTable α) : Prop := ∃ scope, table.scopes = [scope]

theorem flat_push_empty : (empty.push : SymbolTable α).Flat := ⟨[], rfl⟩

theorem Flat.add (flat : table.Flat) (name : String) (value : α) : (table.add name value).Flat := by
  obtain ⟨scope, scopes⟩ := flat
  exact ⟨_, by rw [SymbolTable.add, scopes]; rfl⟩

theorem Flat.peek_eq (flat : table.Flat) (name : String) :
    table.peek name = table.lookupChain name := by
  obtain ⟨scope, scopes⟩ := flat
  rw [peek, lookupChain, scopes, List.findSome?_cons]
  cases inScope : scope.lookup name <;> simp [inScope]

end SymbolTable

namespace Binding
variable {α ι : Type} {table : SymbolTable α} {name : String} {value : α} {span : Span}
  {taken : SemanticError}

theorem flat_declare (flat : table.Flat) :
    (declare ⟨table, []⟩ name value span taken).table.Flat := by
  unfold declare
  split
  · exact flat
  · split
    · exact flat
    · exact flat.add name value

/-- What a name is bound to stays, and a declaration binds its own name if it was free. -/
theorem lookupChain_declare (flat : table.Flat) (other : String) :
    (declare ⟨table, []⟩ name value span taken).table.lookupChain other =
      (table.lookupChain other).or
        (if isReserved other then none else if name = other then some value else none) := by
  unfold declare
  split
  · next reserved =>
    by_cases same : name = other
    · simp [← same, reserved]
    · simp [same]
  · next unreserved =>
    split
    · next bound =>
      rw [flat.peek_eq] at bound
      by_cases same : name = other
      · rw [← same]
        exact (Option.or_of_isSome bound).symm
      · simp [same]
    · next unbound =>
      rw [flat.peek_eq, Option.not_isSome_iff_eq_none] at unbound
      rw [SymbolTable.lookupChain_add]
      by_cases same : name = other
      · subst same
        simp [unreserved, unbound]
      · simp [same, Ne.symm same]

/-- The first of several declarations of a name is bound to it. -/
theorem lookupChain_foldl_declare {key : ι → String} {content : ι → α} {place : ι → Span}
    {blame : ι → SemanticError} (items : List ι) (flat : table.Flat) (name : String) :
    (items.foldl (fun table item =>
        (declare ⟨table, []⟩ (key item) (content item) (place item) (blame item)).table)
      table).lookupChain name =
      (table.lookupChain name).or
        (if isReserved name then none
        else (items.find? fun item => key item == name).map content) := by
  induction items generalizing table with
  | nil => simp
  | cons item rest ih =>
    rw [List.foldl_cons, ih (flat_declare flat), lookupChain_declare flat, Option.or_assoc]
    congr 1
    cases isReserved name with
    | true => rfl
    | false => by_cases same : key item = name <;> simp [same]

end Binding

namespace MemberTables
variable {className : String}

theorem fields_foldl_declare (members : List Member) (tables : MemberTables) :
    (members.foldl (declare className) tables).fields =
      (members.filterMap Member.field?).foldl (fun table field =>
        (Binding.declare ⟨table, []⟩ field.name field.type field.span
          (.duplicateField field.name className)).table) tables.fields := by
  induction members generalizing tables with
  | nil => rfl
  | cons member rest ih =>
    rw [List.foldl_cons, ih]
    cases member with
    | field => rfl
    | method method => rw [fields_declare_method]; rfl

theorem methods_foldl_declare (members : List Member) (tables : MemberTables) :
    (members.foldl (declare className) tables).methods =
      (members.filterMap Member.method?).foldl (fun table method =>
        (Binding.declare ⟨table, []⟩ method.name (Signature.ofMethod method) method.span
          (.duplicateMethod method.name className)).table) tables.methods := by
  induction members generalizing tables with
  | nil => rfl
  | cons member rest ih => cases member <;> exact ih _

theorem lookupChain_fields (decl : ClassDecl) (name : String) :
    (ofClass decl).fields.lookupChain name =
      if isReserved name then none
      else (decl.fields.find? (·.name == name)).map Field.type := by
  rw [ofClass, fields_foldl_declare, Binding.lookupChain_foldl_declare _ SymbolTable.flat_push_empty]
  rfl

theorem lookupChain_methods (decl : ClassDecl) (name : String) :
    (ofClass decl).methods.lookupChain name =
      if isReserved name then none
      else (decl.methods.find? (·.name == name)).map Signature.ofMethod := by
  rw [ofClass, methods_foldl_declare, Binding.lookupChain_foldl_declare _ SymbolTable.flat_push_empty]
  rfl

end MemberTables

namespace Hierarchy
variable {hierarchy : Hierarchy} {program : Program} {name : String} {id : ClassId}
  {node : ClassNode} {decl : ClassDecl}

/-- Every class is that of a declaration, built in or of the program. -/
def Sourced (hierarchy : Hierarchy) (program : Program) : Prop :=
  ∀ id node, hierarchy.node? id = some node →
    ∃ decl, node.origin.decl? program = some decl ∧ decl.name = node.name

theorem Sourced.mapNodes (sourced : hierarchy.Sourced program)
    {change : ClassId → ClassNode → ClassNode}
    (names : ∀ id node, (change id node).name = node.name)
    (origins : ∀ id node, (change id node).origin = node.origin) :
    (hierarchy.mapNodes change).Sourced program := by
  intro id node found
  rw [node?_mapNodes] at found
  obtain ⟨old, isOld, rfl⟩ := Option.map_eq_some_iff.mp found
  rw [origins, names]
  exact sourced id old isOld

theorem sourced_builtin (found : builtins.node? id = some node) :
    ∃ decl, node.origin = .builtin decl ∧ decl.name = node.name := by
  match id, found with
  | 0, found => cases found; exact ⟨_, rfl, rfl⟩
  | 1, found => cases found; exact ⟨_, rfl, rfl⟩
  | 2, found => cases found; exact ⟨_, rfl, rfl⟩
  | 3, found => cases found; exact ⟨_, rfl, rfl⟩
  | _ + 4, found => cases found

theorem sourced_registered (program : Program) : (registered program).Sourced program := by
  intro id node found
  rcases node?_registered found with builtin | ⟨-, index, decl, here, rfl⟩
  · obtain ⟨decl, origin, named⟩ := sourced_builtin builtin
    exact ⟨decl, by rw [origin]; rfl, named⟩
  · exact ⟨decl, here, rfl⟩

theorem sourced_ofProgram (program : Program) : (ofProgram program).1.Sourced program := by
  have sourced : (linked program).Sourced program := by
    refine (sourced_registered program).mapNodes ?_ ?_ <;>
    · intro id node
      split
      · rfl
      · split <;> rfl
  have cut : (linked program).cutCycles.Sourced program := by
    refine sourced.mapNodes ?_ ?_ <;>
    · intro id node
      split <;> rfl
  exact cut.mapNodes (fun _ _ => rfl) fun _ _ => rfl

theorem node?_bindMembers (found : hierarchy.node? id = some node)
    (isDecl : node.origin.decl? program = some decl) :
    (hierarchy.bindMembers program).node? id = some { node with
      fields := (MemberTables.ofClass decl).fields.setParent node.parent
      methods := (MemberTables.ofClass decl).methods.setParent node.parent } := by
  rw [bindMembers, node?_mapNodes, found, Option.map_some, isDecl]

theorem own_fields_bindMembers (found : hierarchy.node? id = some node)
    (isDecl : node.origin.decl? program = some decl) :
    (hierarchy.bindMembers program).own ClassNode.fields name id =
      if isReserved name then none
      else (decl.fields.find? (·.name == name)).map Field.type :=
  (own_eq (node?_bindMembers found isDecl)).trans (MemberTables.lookupChain_fields decl name)

theorem own_methods_bindMembers (found : hierarchy.node? id = some node)
    (isDecl : node.origin.decl? program = some decl) :
    (hierarchy.bindMembers program).own ClassNode.methods name id =
      if isReserved name then none
      else (decl.methods.find? (·.name == name)).map Signature.ofMethod :=
  (own_eq (node?_bindMembers found isDecl)).trans (MemberTables.lookupChain_methods decl name)

theorem chained_bindMembers (sourced : hierarchy.Sourced program) :
    (hierarchy.bindMembers program).Chained ClassNode.fields ∧
      (hierarchy.bindMembers program).Chained ClassNode.methods := by
  have tables {id : ClassId} {node : ClassNode}
      (found : (hierarchy.bindMembers program).node? id = some node) :
      node.fields.parent = node.parent ∧ node.methods.parent = node.parent := by
    obtain ⟨old, isOld⟩ := exists_node (by simpa [bindMembers] using node?_lt found)
    obtain ⟨decl, isDecl, -⟩ := sourced id old isOld
    rw [node?_bindMembers isOld isDecl] at found
    cases found
    exact ⟨rfl, rfl⟩
  exact ⟨fun _ _ found => (tables found).1, fun _ _ found => (tables found).2⟩

end Hierarchy

end Bantam
