import Bantam.Analysis
import Bantam.Proofs.Typing.Rules

/-! Valid programs. Names are distinct and not reserved, no class inherits from itself, the program
can be started, and every member of every class has a derivation. -/
namespace Bantam
open Relation Typing

structure ProperNames (names : List String) : Prop where
  distinct : names.Nodup
  unreserved : ∀ name ∈ names, isReserved name = false

/-- The names that the members of a class declare are proper, those of fields, of methods and of the
formals of each method on their own. -/
structure ClassDecl.ProperMembers (decl : ClassDecl) : Prop where
  fields : ProperNames (decl.fields.map Field.name)
  methods : ProperNames (decl.methods.map Method.name)
  formals : ∀ method ∈ decl.methods, ProperNames (method.formals.map Formal.name)

def builtinNames : List String := [rootClass, "String", "TextIO", "Sys"]

namespace Program

def Inherits (program : Program) (lower upper : String) : Prop :=
  ∃ decl ∈ program.classes, decl.name = lower ∧ decl.parent = some upper

structure ProperClasses (program : Program) : Prop where
  distinct : (program.classes.map ClassDecl.name).Nodup
  unbuilt : ∀ decl ∈ program.classes, decl.name ∉ builtinNames
  parents : ∀ lower upper, program.Inherits lower upper →
    upper = rootClass ∨ ∃ decl ∈ program.classes, decl.name = upper
  acyclic : ∀ name, ¬ TransGen program.Inherits name name
  startable : ∃ decl ∈ program.classes, decl.name = mainClass ∧
    ∃ method ∈ decl.methods, method.name = mainMethod ∧ method.formals = []

def hierarchy (program : Program) : Hierarchy :=
  (Hierarchy.ofProgram program).1.bindMembers program

/-- The program is valid, and is the second one with the types of its expressions. -/
structure Valid (program typed : Program) : Prop where
  classes : program.ProperClasses
  members : ∀ decl ∈ program.classes, decl.ProperMembers
  typed : List.Forall₂ (ClassTyped program.hierarchy) program.classes typed.classes

end Program

end Bantam
