import Bantam.Proofs.Hierarchy.Inheritance
import Bantam.Proofs.Hierarchy.Interface
import Bantam.Proofs.Hierarchy.Namesakes

/-! Moved declarations. A class knows the place of its declaration, and no stage of building looks
at a place but to find the declaration there. So where declarations have moved, and the classes
follow them, every stage does the same as before. -/
namespace Bantam

def Origin.move (place : Nat → Nat) : Origin → Origin
  | builtin decl => builtin decl
  | declared index => declared (place index)

def ClassNode.move (place : Nat → Nat) (node : ClassNode) : ClassNode :=
  { node with origin := node.origin.move place }

namespace Hierarchy

/-- The same hierarchy, with the places of the declarations changed. -/
def move (place : Nat → Nat) (hierarchy : Hierarchy) : Hierarchy :=
  ⟨hierarchy.nodes.map (ClassNode.move place)⟩

/-- Every class finds its declaration in the other program where it is said to have moved. -/
def Follows (hierarchy : Hierarchy) (place : Nat → Nat) (program other : Program) : Prop :=
  ∀ node ∈ hierarchy.nodes, ∃ decl, node.origin.decl? program = some decl ∧
    (node.origin.move place).decl? other = some decl

variable {hierarchy : Hierarchy} {place : Nat → Nat} {program other : Program} {id : ClassId}
  {node : ClassNode}

@[simp] theorem size_move : (hierarchy.move place).size = hierarchy.size := List.length_map _

@[simp] theorem ids_move : (hierarchy.move place).ids = hierarchy.ids := by
  rw [ids, ids, size_move]

@[simp] theorem node?_move (id : ClassId) :
    (hierarchy.move place).node? id = (hierarchy.node? id).map (ClassNode.move place) :=
  List.getElem?_map

@[simp] theorem names_move : (hierarchy.move place).names = hierarchy.names := by
  rw [names, names, move, List.map_map]
  rfl

@[simp] theorem idOf?_move (name : String) :
    (hierarchy.move place).idOf? name = hierarchy.idOf? name := idOf?_congr names_move name

@[simp] theorem root?_move : (hierarchy.move place).root? = hierarchy.root? := idOf?_move rootClass

@[simp] theorem parentOf?_move (id : ClassId) :
    (hierarchy.move place).parentOf? id = hierarchy.parentOf? id := by
  rw [parentOf?, parentOf?, node?_move, Option.bind_map]
  rfl

@[simp] theorem ancestors_move (id : ClassId) :
    (hierarchy.move place).ancestors id = hierarchy.ancestors id :=
  ancestors_congr size_move parentOf?_move id

@[simp] theorem onCycle_move (id : ClassId) :
    (hierarchy.move place).onCycle id = hierarchy.onCycle id := by
  rw [onCycle, onCycle, ancestors_move]

@[simp] theorem requestedParent_move (decl : ClassDecl) :
    (hierarchy.move place).requestedParent decl = hierarchy.requestedParent decl := by
  have extendable (id : ClassId) : ((hierarchy.move place).node? id).any ClassNode.extendable =
      (hierarchy.node? id).any ClassNode.extendable := by
    rw [node?_move]
    cases hierarchy.node? id <;> rfl
  simp only [requestedParent, root?_move, idOf?_move, extendable]

/-- Changes that do not depend on where declarations stand can be made before or after the move. -/
theorem mapNodes_move {change change' : ClassId → ClassNode → ClassNode}
    (same : ∀ id, ∀ node ∈ hierarchy.nodes, change' id (node.move place) =
      (change id node).move place) :
    (hierarchy.move place).mapNodes change' = (hierarchy.mapNodes change).move place := by
  refine congrArg Hierarchy.mk (List.ext_getElem? fun id => ?_)
  rw [List.getElem?_mapIdx, List.getElem?_map, move, List.getElem?_map, mapNodes,
    List.getElem?_mapIdx, Option.map_map, Option.map_map]
  cases found : hierarchy.nodes[id]? with
  | none => rfl
  | some node => exact congrArg some (same id node (List.mem_of_getElem? found))

theorem cutCycles_move : (hierarchy.move place).cutCycles = hierarchy.cutCycles.move place := by
  refine mapNodes_move fun id node _ => ?_
  rw [onCycle_move, root?_move]
  split <;> rfl

theorem rebuild_move : (hierarchy.move place).rebuild = hierarchy.rebuild.move place := by
  refine mapNodes_move fun id node _ => ?_
  simp only [ids_move, parentOf?_move, funext ancestors_move]
  rfl

namespace Follows
variable (follows : hierarchy.Follows place program other)
include follows

theorem decl? (member : node ∈ hierarchy.nodes) :
    (node.origin.move place).decl? other = node.origin.decl? program := by
  obtain ⟨decl, here, there⟩ := follows node member
  exact there.trans here.symm

theorem declared? (member : node ∈ hierarchy.nodes) :
    (node.origin.move place).declared? other = node.origin.declared? program := by
  have found := follows.decl? member
  cases origin : node.origin with
  | builtin => rfl
  | declared index =>
    rw [origin] at found
    exact found

theorem link : (hierarchy.move place).link other = (hierarchy.link program).move place := by
  rw [link_eq, link_eq]
  refine mapNodes_move fun id node member => ?_
  have found : (node.move place).origin.declared? other = node.origin.declared? program :=
    follows.declared? member
  rw [found]
  split
  · rfl
  · next decl _ =>
    rw [requestedParent_move, root?_move]
    split <;> rfl

theorem bindMembers :
    (hierarchy.move place).bindMembers other = (hierarchy.bindMembers program).move place := by
  refine mapNodes_move fun id node member => ?_
  dsimp only
  have found : (node.move place).origin.decl? other = node.origin.decl? program :=
    follows.decl? member
  rw [found]
  split <;> rfl

theorem declared : (hierarchy.move place).declared other = hierarchy.declared program := by
  rw [declared_eq, declared_eq, move, List.zipIdx_map, List.filterMap_map]
  refine List.filterMap_congr fun ⟨node, id⟩ member => ?_
  exact congrArg (Option.map _) (follows.declared? (List.fst_mem_of_mem_zipIdx member))

theorem parentDiagnostics :
    (hierarchy.move place).parentDiagnostics other = hierarchy.parentDiagnostics program := by
  simp only [Hierarchy.parentDiagnostics, follows.declared, requestedParent_move]

theorem cycleDiagnostics :
    (hierarchy.move place).cycleDiagnostics other = hierarchy.cycleDiagnostics program := by
  simp only [Hierarchy.cycleDiagnostics, follows.declared, onCycle_move]

/-- The same is said about the class to start, unless there is none. -/
theorem mainDiagnostics :
    (hierarchy.move place).mainDiagnostics other = hierarchy.mainDiagnostics program ∨
      (hierarchy.move place).mainDiagnostics other = [missingMain other] ∧
        hierarchy.mainDiagnostics program = [missingMain program] := by
  have start : ((hierarchy.move place).find? mainClass).bind (·.origin.decl? other) =
      (hierarchy.find? mainClass).bind (·.origin.decl? program) := by
    rw [find?, find?, move, List.find?_map, Option.bind_map]
    have named : (fun node : ClassNode => node.name == mainClass) ∘ ClassNode.move place =
        fun node => node.name == mainClass := rfl
    rw [named]
    cases found : hierarchy.nodes.find? fun node => node.name == mainClass with
    | none => rfl
    | some node => exact follows.decl? (List.mem_of_find?_eq_some found)
  rw [mainDiagnostics_eq, mainDiagnostics_eq, start]
  cases (hierarchy.find? mainClass).bind (·.origin.decl? program) with
  | none => exact .inr ⟨rfl, rfl⟩
  | some decl => exact .inl rfl

theorem memberDiagnostics :
    (hierarchy.move place).memberDiagnostics other = hierarchy.memberDiagnostics program := by
  rw [Hierarchy.memberDiagnostics, Hierarchy.memberDiagnostics, move, List.filterMap_map]
  congr 1
  exact List.filterMap_congr fun node member => follows.decl? member

end Follows

/-- A class that has moved is its own namesake. -/
theorem twin_move (inside : id < hierarchy.size) : Twin hierarchy (hierarchy.move place) id id := by
  obtain ⟨node, found⟩ := exists_node inside
  have moved : (hierarchy.move place).node? id = some (node.move place) := by
    rw [node?_move, found]
    rfl
  exact twin_of_nodes found moved rfl

theorem Follows.alike (follows : hierarchy.Follows place program other)
    (distinct : hierarchy.names.Nodup) (closed : hierarchy.Closed)
    (fields : hierarchy.Chained ClassNode.fields) (methods : hierarchy.Chained ClassNode.methods) :
    Alike program other hierarchy (hierarchy.move place) where
  names := by rw [names_move]
  distinct := distinct
  node := by
    intro id id' node node' found found' same
    have here : hierarchy.idOf? node.name = some id := by
      rw [idOf?_eq_some_iff distinct, found]
      rfl
    have there : (hierarchy.move place).idOf? node.name = some id' := by
      rw [idOf?_eq_some_iff (by rwa [names_move]), found']
      exact congrArg some same.symm
    obtain rfl : id = id' := by
      rw [idOf?_move] at there
      exact Option.some.inj (here.symm.trans there)
    rw [node?_move, found] at found'
    obtain rfl := Option.some.inj found'
    have parents : Option.Rel (Twin hierarchy (hierarchy.move place)) node.parent node.parent := by
      cases isParent : node.parent with
      | none => exact .none
      | some parent =>
        exact .some (twin_move (closed id parent ((parentOf?_eq found).trans isParent)))
    refine ⟨?_, rfl, parents, ⟨rfl, ?_⟩, ⟨rfl, ?_⟩⟩
    · obtain ⟨decl, here, there⟩ := follows node (List.mem_of_getElem? found)
      cases origin : node.origin with
      | builtin decl =>
        rw [ClassNode.move, origin]
        exact .builtin decl
      | declared index =>
        rw [origin] at here there
        rw [ClassNode.move, origin]
        exact .declared here there
    · have linked : node.fields.parent = node.parent := fields id node found
      exact linked ▸ parents
    · have linked : node.methods.parent = node.parent := methods id node found
      exact linked ▸ parents

end Hierarchy

end Bantam
