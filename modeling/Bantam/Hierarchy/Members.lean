import Bantam.Hierarchy.Basic
import Bantam.SemanticError
import Bantam.Token

/-! The members of classes, bound in symbol tables. A declaration whose name is reserved or taken is
an issue and binds nothing; every other one is bound. -/
namespace Bantam

structure Binding (α : Type) where
  table : SymbolTable α
  issues : List Issue := []

/-- Binds a name in the innermost scope, unless it is reserved or taken there. -/
def Binding.declare {α : Type} (binding : Binding α) (name : String) (value : α) (span : Span)
    (taken : SemanticError) : Binding α :=
  if isReserved name then
    { binding with issues := binding.issues ++ [⟨span, .reservedName name⟩] }
  else if (binding.table.peek name).isSome then
    { binding with issues := binding.issues ++ [⟨span, taken⟩] }
  else { binding with table := binding.table.add name value }

theorem Binding.pop_declare {α : Type} (binding : Binding α) (name : String) (value : α)
    (span : Span) (taken : SemanticError) :
    (binding.declare name value span taken).table.pop = binding.table.pop := by
  unfold declare
  split
  · rfl
  · split
    · rfl
    · exact SymbolTable.pop_add _ name value

def Method.bindFormals (method : Method) (table : SymbolTable Ty) : Binding Ty :=
  method.formals.foldl
    (fun binding formal =>
      binding.declare formal.name formal.type formal.span
        (.duplicateFormal formal.name method.name))
    ⟨table.push, []⟩

theorem Method.pop_bindFormals (method : Method) (table : SymbolTable Ty) :
    (method.bindFormals table).table.pop = table := by
  unfold bindFormals
  refine List.foldlRecOn (motive := fun binding : Binding Ty => binding.table.pop = table)
    _ _ rfl ?_
  intro binding balanced formal _
  exact (binding.pop_declare ..).trans balanced

structure MemberTables where
  fields : SymbolTable Ty
  methods : SymbolTable Signature
  issues : List Issue

namespace MemberTables

/-- Binds a member of a class. The formals of a method are bound above the fields, in a scope that
is closed behind them. -/
def declare (className : String) (tables : MemberTables) : Member → MemberTables
  | .field field =>
    let bound := Binding.declare ⟨tables.fields, []⟩ field.name field.type field.span
      (.duplicateField field.name className)
    { tables with fields := bound.table, issues := tables.issues ++ bound.issues }
  | .method method =>
    let bound := Binding.declare ⟨tables.methods, []⟩ method.name (.ofMethod method) method.span
      (.duplicateMethod method.name className)
    let formals := method.bindFormals tables.fields
    { fields := formals.table.pop
      methods := bound.table
      issues := tables.issues ++ bound.issues ++ formals.issues }

theorem fields_declare_method (className : String) (tables : MemberTables) (method : Method) :
    (tables.declare className (.method method)).fields = tables.fields :=
  method.pop_bindFormals tables.fields

def ofClass (decl : ClassDecl) : MemberTables :=
  decl.members.foldl (declare decl.name) ⟨SymbolTable.empty.push, SymbolTable.empty.push, []⟩

end MemberTables

namespace Hierarchy

/-- Binds the members of every class, and links the tables of a class to those of its parent. -/
def bindMembers (hierarchy : Hierarchy) (program : Program) : Hierarchy :=
  hierarchy.mapNodes fun _ node =>
    match node.origin.decl? program with
    | none => node
    | some decl =>
      let tables := MemberTables.ofClass decl
      { node with
        fields := tables.fields.setParent node.parent
        methods := tables.methods.setParent node.parent }

def memberDiagnostics (hierarchy : Hierarchy) (program : Program) : List Diagnostic :=
  (hierarchy.nodes.filterMap (·.origin.decl? program)).flatMap fun decl =>
    (MemberTables.ofClass decl).issues.map (Issue.toDiagnostic decl.file)

end Hierarchy

end Bantam
