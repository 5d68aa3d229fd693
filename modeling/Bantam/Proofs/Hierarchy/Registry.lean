import Bantam.Hierarchy.Build
import Bantam.Proofs.Hierarchy.Ancestry
import Mathlib.Data.List.Nodup

/-! Names and numbers. Classes are only ever added behind those that are there, under names that are
new, so a name stands for one number throughout the building of a hierarchy. Every later stage
changes classes one by one and keeps their names. -/
namespace Bantam

/-- The declaration of the program that an origin stands for, unless it is a built-in one. -/
def Origin.declared? (program : Program) (origin : Origin) : Option ClassDecl :=
  origin.index?.bind (program.classes[·]?)

namespace Hierarchy

def names (hierarchy : Hierarchy) : List String := hierarchy.nodes.map ClassNode.name

variable {hierarchy other : Hierarchy} {change : ClassId → ClassNode → ClassNode}

theorem getElem?_names (id : ClassId) :
    hierarchy.names[id]? = (hierarchy.node? id).map ClassNode.name := List.getElem?_map

theorem idOf?_eq_findIdx? (name : String) :
    hierarchy.idOf? name = hierarchy.names.findIdx? (· == name) := by
  rw [names, List.findIdx?_map]
  rfl

theorem idOf?_congr (same : hierarchy.names = other.names) (name : String) :
    hierarchy.idOf? name = other.idOf? name := by
  rw [idOf?_eq_findIdx?, idOf?_eq_findIdx?, same]

theorem isSome_idOf? (name : String) :
    (hierarchy.idOf? name).isSome = true ↔ name ∈ hierarchy.names := by
  rw [idOf?_eq_findIdx?, List.findIdx?_isSome, List.any_eq_true]
  simp

theorem idOf?_lt {name : String} {id : ClassId} (found : hierarchy.idOf? name = some id) :
    id < hierarchy.size := by
  obtain ⟨bound, -⟩ := List.findIdx?_eq_some_iff_getElem.mp found
  exact bound

/-- Where names are distinct, the number of a name is inverse to the name of a number. -/
theorem idOf?_eq_some_iff (distinct : hierarchy.names.Nodup) (name : String) (id : ClassId) :
    hierarchy.idOf? name = some id ↔ (hierarchy.node? id).map ClassNode.name = some name := by
  rw [idOf?_eq_findIdx?, List.findIdx?_eq_some_iff_getElem, ← getElem?_names,
    List.getElem?_eq_some_iff]
  constructor
  · rintro ⟨bound, here, -⟩
    exact ⟨bound, beq_iff_eq.mp here⟩
  · rintro ⟨bound, rfl⟩
    refine ⟨bound, beq_self_eq_true _, ?_⟩
    intro earlier before same
    have equal := distinct.getElem_inj_iff.mp (beq_iff_eq.mp same)
    omega

@[simp] theorem node?_mapNodes (id : ClassId) :
    (hierarchy.mapNodes change).node? id = (hierarchy.node? id).map (change id) :=
  List.getElem?_mapIdx

@[simp] theorem size_mapNodes : (hierarchy.mapNodes change).size = hierarchy.size :=
  List.length_mapIdx

theorem names_mapNodes (keeps : ∀ id node, (change id node).name = node.name) :
    (hierarchy.mapNodes change).names = hierarchy.names := by
  apply List.ext_getElem?
  intro id
  rw [getElem?_names, getElem?_names, node?_mapNodes, Option.map_map]
  congr 1
  funext node
  exact keeps id node

theorem parentOf?_mapNodes (keeps : ∀ id node, (change id node).parent = node.parent)
    (id : ClassId) : (hierarchy.mapNodes change).parentOf? id = hierarchy.parentOf? id := by
  rw [parentOf?, parentOf?, node?_mapNodes]
  cases hierarchy.node? id with
  | none => rfl
  | some node => exact keeps id node

theorem node?_lt {id : ClassId} {node : ClassNode} (found : hierarchy.node? id = some node) :
    id < hierarchy.size := (List.getElem?_eq_some_iff.mp found).1

theorem exists_node {id : ClassId} (inside : id < hierarchy.size) :
    ∃ node, hierarchy.node? id = some node := ⟨_, List.getElem?_eq_getElem inside⟩

theorem parentOf?_eq {id : ClassId} {node : ClassNode} (found : hierarchy.node? id = some node) :
    hierarchy.parentOf? id = node.parent := by
  rw [parentOf?, found]
  rfl

@[simp] theorem names_insert (node : ClassNode) :
    (hierarchy.insert node).names = hierarchy.names ++ [node.name] := by
  simp [names, insert]

def fresh (index : Nat) (decl : ClassDecl) : ClassNode :=
  { name := decl.name, origin := .declared index }

/-- Registration adds classes without parents behind those that are there, each for a declaration
at its place. -/
theorem register_nodes (hierarchy : Hierarchy) (index : Nat) (decls : List ClassDecl) :
    ∃ added, (hierarchy.register index decls).1.nodes = hierarchy.nodes ++ added ∧
      ∀ node ∈ added, ∃ place decl, decls[place]? = some decl ∧
        node = fresh (index + place) decl := by
  induction decls generalizing hierarchy index with
  | nil => exact ⟨[], by simp [register], by simp⟩
  | cons decl rest ih =>
    rw [register]
    split
    · obtain ⟨added, nodes, declared⟩ := ih hierarchy (index + 1)
      refine ⟨added, nodes, fun node member => ?_⟩
      obtain ⟨place, other, found, rfl⟩ := declared node member
      exact ⟨place + 1, other, found, by congr 1; omega⟩
    · obtain ⟨added, nodes, declared⟩ := ih (hierarchy.insert (fresh index decl)) (index + 1)
      refine ⟨fresh index decl :: added, ?_, fun node member => ?_⟩
      · exact nodes.trans (List.append_assoc ..)
      · rcases List.mem_cons.mp member with rfl | later
        · exact ⟨0, decl, rfl, rfl⟩
        · obtain ⟨place, other, found, rfl⟩ := declared node later
          exact ⟨place + 1, other, found, by congr 1; omega⟩

theorem names_register_nodup (distinct : hierarchy.names.Nodup) (index : Nat)
    (decls : List ClassDecl) : (hierarchy.register index decls).1.names.Nodup := by
  induction decls generalizing hierarchy index with
  | nil => exact distinct
  | cons decl rest ih =>
    rw [register]
    split
    · exact ih distinct (index + 1)
    · next free =>
      apply ih _ (index + 1)
      rw [isSome_idOf?] at free
      rw [names_insert, ← List.concat_eq_append]
      exact distinct.concat free

theorem declared_eq (program : Program) : hierarchy.declared program =
    hierarchy.nodes.zipIdx.filterMap fun entry =>
      (entry.1.origin.declared? program).map (entry.2, ·) := by
  rw [declared]
  congr 1
  funext ⟨node, id⟩
  rw [Origin.declared?]
  dsimp only
  cases node.origin.index? with
  | none => rfl
  | some index =>
    simp only [Option.bind_eq_bind, Option.bind_some]
    cases program.classes[index]? <;> rfl

theorem link_eq (program : Program) : hierarchy.link program = hierarchy.mapNodes fun _ node =>
    match node.origin.declared? program with
    | none => node
    | some decl =>
      match hierarchy.requestedParent decl with
      | .ok parent => { node with parent }
      | .error _ => { node with parent := hierarchy.root? } := rfl

end Hierarchy

end Bantam
