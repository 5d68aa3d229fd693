import Bantam.Hierarchy.Members
import Bantam.Proofs.Hierarchy.Registry

/-! The interface of a declaration: all of it but its initial values and the bodies of its methods.
Classes are registered, linked and given their members by the interfaces of their declarations
alone, so programs with the same interface have the same hierarchy. -/
namespace Bantam

def Member.interface : Member → Member
  | field f => field { f with init := none }
  | method m => method { m with body := [] }

def ClassDecl.interface (decl : ClassDecl) : ClassDecl :=
  { decl with members := decl.members.map Member.interface }

def Program.interface (program : Program) : Program := ⟨program.classes.map ClassDecl.interface⟩

theorem ClassDecl.methods_interface (decl : ClassDecl) :
    decl.interface.methods = decl.methods.map fun method => { method with body := [] } := by
  rw [methods, methods, interface, List.filterMap_map, List.map_filterMap]
  congr 1
  funext member
  cases member <;> rfl

theorem MemberTables.ofClass_interface (decl : ClassDecl) :
    MemberTables.ofClass decl.interface = MemberTables.ofClass decl := by
  rw [ofClass, ofClass, ClassDecl.interface, List.foldl_map]
  congr 1
  funext tables member
  cases member <;> rfl

namespace Origin

variable {program : Program} {origin : Origin}

theorem declared?_interface :
    origin.declared? program.interface = (origin.declared? program).map ClassDecl.interface := by
  cases origin with
  | builtin => rfl
  | declared index => exact List.getElem?_map

/-- A built-in declaration is found as it is, one of the program by its interface. What depends on
the interface alone is the same for both. -/
theorem map_decl?_interface {α : Type} {value : ClassDecl → α}
    (depends : ∀ decl : ClassDecl, value decl.interface = value decl) :
    (origin.decl? program.interface).map value = (origin.decl? program).map value := by
  cases origin with
  | builtin => rfl
  | declared index =>
    have found : (declared index).decl? program.interface =
      ((declared index).decl? program).map ClassDecl.interface := List.getElem?_map
    rw [found, Option.map_map]
    congr 1
    funext decl
    exact depends decl

end Origin

namespace Hierarchy

variable {hierarchy : Hierarchy} {program : Program}

theorem register_interface (hierarchy : Hierarchy) (index : Nat) (decls : List ClassDecl) :
    hierarchy.register index (decls.map ClassDecl.interface) = hierarchy.register index decls := by
  induction decls generalizing hierarchy index with
  | nil => rfl
  | cons decl rest ih =>
    have name : decl.interface.name = decl.name := rfl
    have diagnostic (error : SemanticError) :
        decl.interface.diagnostic error = decl.diagnostic error := rfl
    rw [List.map_cons, register, register, name, diagnostic, ih, ih]

theorem link_interface : hierarchy.link program.interface = hierarchy.link program := by
  rw [link_eq, link_eq]
  congr 1
  funext id node
  rw [Origin.declared?_interface]
  cases node.origin.declared? program <;> rfl

theorem declared_interface : hierarchy.declared program.interface =
    (hierarchy.declared program).map fun entry => (entry.1, entry.2.interface) := by
  rw [declared_eq, declared_eq, List.map_filterMap]
  congr 1
  funext entry
  rw [Origin.declared?_interface, Option.map_map, Option.map_map]
  rfl

theorem parentDiagnostics_interface :
    hierarchy.parentDiagnostics program.interface = hierarchy.parentDiagnostics program := by
  rw [parentDiagnostics, declared_interface, List.filterMap_map]
  rfl

theorem cycleDiagnostics_interface :
    hierarchy.cycleDiagnostics program.interface = hierarchy.cycleDiagnostics program := by
  rw [cycleDiagnostics, declared_interface, List.filterMap_map]
  rfl

def startDiagnostics (decl : ClassDecl) : List Diagnostic :=
  if decl.methods.any fun method => method.name == mainMethod && method.formals.isEmpty then []
  else [decl.diagnostic .missingMainMethod]

theorem startDiagnostics_interface (decl : ClassDecl) :
    startDiagnostics decl.interface = startDiagnostics decl := by
  rw [startDiagnostics, ClassDecl.methods_interface, List.any_map]
  rfl

def missingMain (program : Program) : Diagnostic :=
  ⟨.semantic, (program.classes.head?.map ClassDecl.file).getD builtinFile, .synthetic,
    SemanticError.missingMainClass.message⟩

theorem missingMain_interface : missingMain program.interface = missingMain program := by
  rw [missingMain, Program.interface, List.head?_map, Option.map_map]
  rfl

theorem mainDiagnostics_eq : hierarchy.mainDiagnostics program =
    (((hierarchy.find? mainClass).bind (·.origin.decl? program)).map startDiagnostics).getD
      [missingMain program] := by
  rw [mainDiagnostics]
  cases (hierarchy.find? mainClass).bind (·.origin.decl? program) <;> rfl

theorem mainDiagnostics_interface :
    hierarchy.mainDiagnostics program.interface = hierarchy.mainDiagnostics program := by
  rw [mainDiagnostics_eq, mainDiagnostics_eq, missingMain_interface, Option.map_bind,
    Option.map_bind]
  congr 2
  funext node
  exact Origin.map_decl?_interface startDiagnostics_interface

def withTables (node : ClassNode) (tables : MemberTables) : ClassNode :=
  { node with
    fields := tables.fields.setParent node.parent
    methods := tables.methods.setParent node.parent }

theorem bindMembers_eq : hierarchy.bindMembers program = hierarchy.mapNodes fun _ node =>
    ((node.origin.decl? program).map MemberTables.ofClass).elim node (withTables node) := by
  rw [bindMembers]
  congr 1
  funext id node
  cases node.origin.decl? program <;> rfl

theorem bindMembers_interface :
    hierarchy.bindMembers program.interface = hierarchy.bindMembers program := by
  rw [bindMembers_eq, bindMembers_eq]
  congr 1
  funext id node
  rw [Origin.map_decl?_interface MemberTables.ofClass_interface]

def memberIssues (decl : ClassDecl) : List Diagnostic :=
  (MemberTables.ofClass decl).issues.map (Issue.toDiagnostic decl.file)

theorem memberIssues_interface (decl : ClassDecl) :
    memberIssues decl.interface = memberIssues decl := by
  rw [memberIssues, MemberTables.ofClass_interface]
  rfl

theorem memberDiagnostics_eq : hierarchy.memberDiagnostics program =
    (hierarchy.nodes.filterMap fun node =>
      (node.origin.decl? program).map memberIssues).flatten := by
  rw [memberDiagnostics, List.flatMap_def, List.map_filterMap]
  rfl

theorem memberDiagnostics_interface :
    hierarchy.memberDiagnostics program.interface = hierarchy.memberDiagnostics program := by
  rw [memberDiagnostics_eq, memberDiagnostics_eq]
  congr 2
  funext node
  exact Origin.map_decl?_interface memberIssues_interface

/-- The hierarchy of a program, and what is wrong with its classes as such, depend on the interface
of the program alone. -/
theorem ofProgram_interface (program : Program) :
    ofProgram program.interface = ofProgram program := by
  have registered : builtins.register 0 program.interface.classes =
      builtins.register 0 program.classes := register_interface builtins 0 program.classes
  simp only [ofProgram, registered, link_interface, parentDiagnostics_interface,
    cycleDiagnostics_interface, mainDiagnostics_interface]

end Hierarchy

/-- What is wrong with the classes of a program and their members, before any types. -/
def Program.declarationDiagnostics (program : Program) : List Diagnostic :=
  (Hierarchy.ofProgram program).2 ++ (Hierarchy.ofProgram program).1.memberDiagnostics program

theorem Program.declarationDiagnostics_interface (program : Program) :
    program.interface.declarationDiagnostics = program.declarationDiagnostics := by
  rw [declarationDiagnostics, Hierarchy.ofProgram_interface,
    Hierarchy.memberDiagnostics_interface, declarationDiagnostics]

end Bantam
