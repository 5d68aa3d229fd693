import Bantam.Hierarchy.Members
import Bantam.Proofs.Hierarchy.Tree

/-! Inherited members. A name is looked up in the table of a class and then in those of the classes
above it, nearest first, so a class has what it binds itself or else what its parent has. -/
namespace Bantam.Hierarchy
open Relation

variable {α : Type} {hierarchy : Hierarchy} {tables : ClassNode → SymbolTable α} {name : String}
  {lower upper id : ClassId}

def own (hierarchy : Hierarchy) (tables : ClassNode → SymbolTable α) (name : String)
    (id : ClassId) : Option α :=
  (hierarchy.node? id).bind fun node => (tables node).lookupChain name

def Chained (hierarchy : Hierarchy) (tables : ClassNode → SymbolTable α) : Prop :=
  ∀ id node, hierarchy.node? id = some node → (tables node).parent = node.parent

theorem own_eq {node : ClassNode} (found : hierarchy.node? id = some node) :
    hierarchy.own tables name id = (tables node).lookupChain name := by
  rw [own, found]
  rfl

theorem lookup_eq_climb (closed : hierarchy.Closed) (chained : hierarchy.Chained tables)
    (steps : Nat) {node : ClassNode} (found : hierarchy.node? id = some node) :
    SymbolTable.lookup (fun id => (hierarchy.node? id).map tables) name steps (tables node) =
      (hierarchy.climb steps (some id)).findSome? (hierarchy.own tables name) := by
  induction steps generalizing id node with
  | zero => rfl
  | succ steps ih =>
    have isParent := parentOf?_eq found
    rw [SymbolTable.lookup, climb, List.findSome?_cons, own_eq found, chained id node found]
    cases (tables node).lookupChain name with
    | some value => rfl
    | none =>
      rw [isParent]
      cases above : node.parent with
      | none => cases steps <;> rfl
      | some parent =>
        obtain ⟨parentNode, foundParent⟩ := exists_node (closed id parent (isParent.trans above))
        rw [← ih foundParent]
        simp [foundParent]

theorem climb_of_length_le {steps : Nat} {start : Option ClassId}
    (short : (hierarchy.climb (steps + 1) start).length ≤ steps) :
    hierarchy.climb (steps + 1) start = hierarchy.climb steps start := by
  induction steps generalizing start with
  | zero =>
    cases start with
    | none => rfl
    | some id => simp [climb] at short
  | succ steps ih =>
    cases start with
    | none => rfl
    | some id =>
      rw [climb, List.length_cons] at short
      rw [climb, ih (by omega), climb]

section Tree
variable (closed : hierarchy.Closed) (acyclic : hierarchy.Acyclic)
include closed acyclic

theorem climb_size (inside : id < hierarchy.size) :
    hierarchy.climb hierarchy.size (some id) = id :: hierarchy.ancestors id := by
  obtain ⟨steps, size⟩ : ∃ steps, hierarchy.size = steps + 1 :=
    Nat.exists_eq_add_one.mpr (Nat.zero_lt_of_lt inside)
  have short := length_climb_lt closed acyclic (steps + 1) inside
  rw [size, Nat.lt_succ_iff] at short
  rw [ancestors, size, climb, climb_of_length_le short]

/-- A lookup in the table of a class finds what the nearest class on the way up from it binds. -/
theorem lookup_eq_findSome? (chained : hierarchy.Chained tables) (id : ClassId) :
    ((hierarchy.node? id).map tables).bind
        (SymbolTable.lookup (fun id => (hierarchy.node? id).map tables) name hierarchy.size) =
      (id :: hierarchy.ancestors id).findSome? (hierarchy.own tables name) := by
  cases found : hierarchy.node? id with
  | none =>
    have parentless : hierarchy.parentOf? id = none := by rw [parentOf?, found]; rfl
    rw [ancestors_of_parentless parentless]
    simp [own, found]
  | some node =>
    rw [Option.map_some, Option.bind_some, lookup_eq_climb closed chained _ found,
      climb_size closed acyclic (node?_lt found)]

theorem lookupField_eq (chained : hierarchy.Chained ClassNode.fields) (id : ClassId) :
    hierarchy.lookupField id name =
      (id :: hierarchy.ancestors id).findSome? (hierarchy.own ClassNode.fields name) :=
  lookup_eq_findSome? closed acyclic chained id

theorem lookupMethod_eq (chained : hierarchy.Chained ClassNode.methods) (id : ClassId) :
    hierarchy.lookupMethod id name =
      (id :: hierarchy.ancestors id).findSome? (hierarchy.own ClassNode.methods name) :=
  lookup_eq_findSome? closed acyclic chained id

/-- A class has the methods that it binds itself, and otherwise those of its parent. -/
theorem lookupMethod_of_extends (chained : hierarchy.Chained ClassNode.methods)
    (step : hierarchy.Extends lower upper) :
    hierarchy.lookupMethod lower name =
      (hierarchy.own ClassNode.methods name lower).or (hierarchy.lookupMethod upper name) := by
  rw [lookupMethod_eq closed acyclic chained, lookupMethod_eq closed acyclic chained,
    ancestors_of_extends closed acyclic step, List.findSome?_cons]
  cases hierarchy.own ClassNode.methods name lower <;> rfl

end Tree

end Bantam.Hierarchy
