import Bantam.Proofs.Typing.Pieces

/-! Reserved names. Fields, methods, formals and variables never have one: each of the tables that
bind them turns it away. The classes of a program are entered in its hierarchy without that test, so
they can be called by any of the reserved names. -/
namespace Bantam
open Typing

inductive DeclarationSort where
  | classDecl
  | field
  | method
  | formal
  | localVar

inductive Program.Declares (program : Program) : DeclarationSort → String → Prop
  | classDecl {decl : ClassDecl} (declared : decl ∈ program.classes) :
      Declares program .classDecl decl.name
  | field {decl : ClassDecl} {field : Field} (declared : decl ∈ program.classes)
      (member : field ∈ decl.fields) : Declares program .field field.name
  | method {decl : ClassDecl} {method : Method} (declared : decl ∈ program.classes)
      (member : method ∈ decl.methods) : Declares program .method method.name
  | formal {decl : ClassDecl} {method : Method} {formal : Formal}
      (declared : decl ∈ program.classes) (member : method ∈ decl.methods)
      (inFormals : formal ∈ method.formals) : Declares program .formal formal.name
  | localVar {span : Span} {type : Ty} {name : String} {init : Expr}
      (contained : program.Contains (.stmt (.decl span type name init))) :
      Declares program .localVar name

theorem isReserved_iff {name : String} : isReserved name ↔ name ∈ reservedNames :=
  List.contains_iff_mem

theorem ProperNames.notMem_reserved {α : Type} {items : List α} {nameOf : α → String}
    (proper : ProperNames (items.map nameOf)) {item : α} (member : item ∈ items) :
    nameOf item ∉ reservedNames := by
  rw [← isReserved_iff, proper.unreserved _ (List.mem_map_of_mem member)]
  exact Bool.false_ne_true

namespace Program.Valid
variable {program typed : Program} (valid : program.Valid typed)
include valid

/-- The rules take a variable only by a name that is not reserved, wherever the declaration stands.
-/
theorem notMem_reserved_of_decl {span : Span} {type : Ty} {name : String} {init : Expr}
    (contained : program.Contains (.stmt (.decl span type name init))) : name ∉ reservedNames := by
  obtain ⟨_, -, derived⟩ := valid.derived_of_contains contained
  cases derived with
  | stmt _ checked =>
    cases checked with
    | decl _ _ _ unreserved =>
      rw [← isReserved_iff, unreserved]
      exact Bool.false_ne_true

end Program.Valid

/-- Where an analysis succeeds, only classes are declared by reserved names. -/
theorem reserved_names_classes {earlier : List Diagnostic} {program : Program}
    {hierarchy : Hierarchy} (accepted : (analyzeAfter earlier program).outcome = .ok hierarchy)
    {sort : DeclarationSort} {name : String} (declares : program.Declares sort name)
    (reserved : name ∈ reservedNames) : sort = .classDecl := by
  obtain ⟨valid, -⟩ := valid_of_accepted accepted
  cases declares with
  | classDecl => rfl
  | field declared member =>
    exact absurd reserved ((valid.members _ declared).fields.notMem_reserved member)
  | method declared member =>
    exact absurd reserved ((valid.members _ declared).methods.notMem_reserved member)
  | formal declared member inFormals =>
    exact absurd reserved (((valid.members _ declared).formals _ member).notMem_reserved inFormals)
  | localVar contained => exact absurd reserved (valid.notMem_reserved_of_decl contained)

def reservedClasses : Program := ⟨
  ⟨"Main", none, [.method ⟨.void, "main", [], [], default⟩], "Main.btm", default⟩ ::
    reservedNames.map fun name => ⟨name, none, [], "Main.btm", default⟩⟩

theorem accepted_reservedClasses :
    (analyzeAfter [] reservedClasses).outcome = .ok reservedClasses.hierarchy := by rfl

theorem declares_reservedClasses {name : String} (reserved : name ∈ reservedNames) :
    reservedClasses.Declares .classDecl name :=
  .classDecl (List.mem_cons_of_mem _ (List.mem_map_of_mem reserved))

theorem reserved_names_classes_void :
    (analyzeAfter [] reservedClasses).outcome = .ok reservedClasses.hierarchy ∧
      "void" ∈ reservedNames ∧ DeclarationSort.classDecl = .classDecl :=
  have reserved : "void" ∈ reservedNames := by decide
  ⟨accepted_reservedClasses, reserved,
    reserved_names_classes accepted_reservedClasses (declares_reservedClasses reserved) reserved⟩

theorem reserved_names_declared :
    (analyzeAfter [] reservedClasses).outcome = .ok reservedClasses.hierarchy ∧
      ∀ name ∈ reservedNames, ∃ sort, reservedClasses.Declares sort name :=
  ⟨accepted_reservedClasses, fun _ reserved => ⟨.classDecl, declares_reservedClasses reserved⟩⟩

end Bantam
