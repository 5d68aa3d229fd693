import Bantam.Hierarchy.Members
import Bantam.Proofs.Hierarchy.Registry
import Mathlib.Data.List.Forall2

/-! Namesakes. Two hierarchies may number the same classes differently; their classes are then
matched by name. Where namesakes are alike in what is said of them, all that is asked of the two
hierarchies has one answer, and every stage of building keeps namesakes alike. -/
namespace Bantam

section Related
variable {α β γ : Type} {related : α → β → Prop} {first : Option α} {second : Option β}

theorem isSome_eq_of_rel (rel : Option.Rel related first second) :
    first.isSome = second.isSome := by
  cases rel <;> rfl

theorem bind_eq_of_rel (rel : Option.Rel related first second) {onFirst : α → Option γ}
    {onSecond : β → Option γ} (same : ∀ {item image}, related item image →
      onFirst item = onSecond image) : first.bind onFirst = second.bind onSecond := by
  cases rel with
  | none => rfl
  | some both => exact same both

theorem map_eq_of_rel (rel : Option.Rel related first second) {onFirst : α → γ} {onSecond : β → γ}
    (same : ∀ {item image}, related item image → onFirst item = onSecond image) :
    first.map onFirst = second.map onSecond := by
  cases rel with
  | none => rfl
  | some both => exact congrArg some (same both)

end Related

inductive Origin.Alike (program other : Program) : Origin → Origin → Prop
  | builtin (decl : ClassDecl) : Alike program other (.builtin decl) (.builtin decl)
  | declared {index place : Nat} {decl : ClassDecl} (here : program.classes[index]? = some decl)
      (there : other.classes[place]? = some decl) :
      Alike program other (.declared index) (.declared place)

namespace Origin.Alike
variable {program other : Program} {origin origin' : Origin}

theorem decl? (alike : Alike program other origin origin') :
    origin.decl? program = origin'.decl? other := by
  cases alike with
  | builtin => rfl
  | declared here there => exact here.trans there.symm

theorem declared? (alike : Alike program other origin origin') :
    origin.declared? program = origin'.declared? other := by
  cases alike with
  | builtin => rfl
  | declared here there => exact here.trans there.symm

end Origin.Alike

/-- The same scopes, and parents that are namesakes. -/
structure SymbolTable.Alike {α : Type} (twin : ClassId → ClassId → Prop)
    (table table' : SymbolTable α) : Prop where
  scopes : table.scopes = table'.scopes
  parent : Option.Rel twin table.parent table'.parent

/-- Tables that are alike, as are those that their parents lead to, bind a name alike. -/
theorem SymbolTable.Alike.lookup {α : Type} {twin : ClassId → ClassId → Prop}
    {resolve resolve' : ClassId → Option (SymbolTable α)}
    (resolves : ∀ {id id'}, twin id id' →
      Option.Rel (SymbolTable.Alike twin) (resolve id) (resolve' id'))
    (name : String) (tables : Nat) {table table' : SymbolTable α} (same : table.Alike twin table') :
    SymbolTable.lookup resolve name tables table =
      SymbolTable.lookup resolve' name tables table' := by
  induction tables generalizing table table' with
  | zero => rfl
  | succ tables ih =>
    have above := bind_eq_of_rel same.parent fun twin => bind_eq_of_rel (resolves twin) ih
    simp only [SymbolTable.lookup, SymbolTable.lookupChain, same.scopes, Option.bind_eq_bind,
      above]

/-- The same class under two numbers: where it is declared, its parent and its members. -/
structure ClassNode.Alike (program other : Program) (twin : ClassId → ClassId → Prop)
    (node node' : ClassNode) : Prop where
  origin : node.origin.Alike program other node'.origin
  extendable : node.extendable = node'.extendable
  parent : Option.Rel twin node.parent node'.parent
  fields : node.fields.Alike twin node'.fields
  methods : node.methods.Alike twin node'.methods

namespace Hierarchy

def Twin (left right : Hierarchy) (id id' : ClassId) : Prop :=
  ∃ name, left.names[id]? = some name ∧ right.names[id']? = some name

/-- The same classes in any order. -/
structure Alike (program other : Program) (left right : Hierarchy) : Prop where
  names : left.names.Perm right.names
  distinct : left.names.Nodup
  node : ∀ {id id' : ClassId} {node node' : ClassNode}, left.node? id = some node →
    right.node? id' = some node' → node.name = node'.name →
    node.Alike program other (Twin left right) node'

variable {program other : Program} {left right : Hierarchy}
  {id id' lower lower' upper upper' : ClassId}

theorem Twin.nameOf (twin : Twin left right id id') : left.nameOf id = right.nameOf id' := by
  obtain ⟨name, here, there⟩ := twin
  rw [getElem?_names] at here there
  rw [Hierarchy.nameOf, Hierarchy.nameOf, here, there]

theorem Twin.nodes (twin : Twin left right id id') : ∃ node node',
    left.node? id = some node ∧ right.node? id' = some node' ∧ node.name = node'.name := by
  obtain ⟨name, here, there⟩ := twin
  rw [getElem?_names] at here there
  obtain ⟨node, found, named⟩ := Option.map_eq_some_iff.mp here
  obtain ⟨node', found', named'⟩ := Option.map_eq_some_iff.mp there
  exact ⟨node, node', found, found', named.trans named'.symm⟩

theorem twin_of_nodes {node node' : ClassNode} (found : left.node? id = some node)
    (found' : right.node? id' = some node') (same : node.name = node'.name) :
    Twin left right id id' :=
  ⟨node.name, by rw [getElem?_names, found]; rfl, by rw [getElem?_names, found', same]; rfl⟩

theorem twin_congr {left' right' : Hierarchy} (sameLeft : left.names = left'.names)
    (sameRight : right.names = right'.names) : Twin left right = Twin left' right' := by
  funext id id'
  rw [Twin, Twin, sameLeft, sameRight]

namespace Alike
variable (alike : Alike program other left right)
include alike

theorem distinct_right : right.names.Nodup := alike.names.nodup_iff.mp alike.distinct

theorem biUnique : Relator.BiUnique (Twin left right) := by
  constructor
  · rintro id other' id' ⟨name, here, there⟩ ⟨name', here', there'⟩
    obtain rfl : name = name' := Option.some.inj (there.symm.trans there')
    have inside := (List.getElem?_eq_some_iff.mp here).1
    exact (List.getElem?_inj inside alike.distinct).mp (here.trans here'.symm)
  · rintro id first second ⟨name, here, there⟩ ⟨name', here', there'⟩
    obtain rfl : name = name' := Option.some.inj (here.symm.trans here')
    have inside := (List.getElem?_eq_some_iff.mp there).1
    exact (List.getElem?_inj inside alike.distinct_right).mp (there.trans there'.symm)

theorem size_eq : left.size = right.size := by
  have same := alike.names.length_eq
  rwa [Hierarchy.names, Hierarchy.names, List.length_map, List.length_map] at same

theorem idOf? (name : String) :
    Option.Rel (Twin left right) (left.idOf? name) (right.idOf? name) := by
  have known := alike.names.mem_iff (a := name)
  rw [← isSome_idOf?, ← isSome_idOf?] at known
  cases here : left.idOf? name with
  | none =>
    rw [here] at known
    cases there : right.idOf? name with
    | none => exact .none
    | some id' => simp [there] at known
  | some id =>
    rw [here] at known
    cases there : right.idOf? name with
    | none => simp [there] at known
    | some id' =>
      rw [idOf?_eq_some_iff alike.distinct, ← getElem?_names] at here
      rw [idOf?_eq_some_iff alike.distinct_right, ← getElem?_names] at there
      exact .some ⟨name, here, there⟩

theorem node?_alike (twin : Twin left right id id') : ∃ node node',
    left.node? id = some node ∧ right.node? id' = some node' ∧
      node.Alike program other (Twin left right) node' := by
  obtain ⟨node, node', found, found', same⟩ := twin.nodes
  exact ⟨node, node', found, found', alike.node found found' same⟩

theorem parentOf? (twin : Twin left right id id') :
    Option.Rel (Twin left right) (left.parentOf? id) (right.parentOf? id') := by
  obtain ⟨node, node', found, found', same⟩ := alike.node?_alike twin
  rw [parentOf?_eq found, parentOf?_eq found']
  exact same.parent

theorem climb (steps : Nat) {start start' : Option ClassId}
    (twins : Option.Rel (Twin left right) start start') :
    List.Forall₂ (Twin left right) (left.climb steps start) (right.climb steps start') := by
  induction steps generalizing start start' with
  | zero => cases twins <;> exact .nil
  | succ steps ih =>
    cases twins with
    | none => exact .nil
    | some twin => exact .cons twin (ih (alike.parentOf? twin))

theorem ancestors (twin : Twin left right id id') :
    List.Forall₂ (Twin left right) (left.ancestors id) (right.ancestors id') := by
  rw [Hierarchy.ancestors, Hierarchy.ancestors, alike.size_eq]
  exact alike.climb right.size (alike.parentOf? twin)

theorem contains_ancestors (low : Twin left right lower lower')
    (up : Twin left right upper upper') :
    (left.ancestors lower).contains upper = (right.ancestors lower').contains upper' := by
  rw [Bool.eq_iff_iff, List.contains_iff_mem, List.contains_iff_mem]
  exact List.rel_mem alike.biUnique up (alike.ancestors low)

theorem onCycle (twin : Twin left right id id') : left.onCycle id = right.onCycle id' :=
  alike.contains_ancestors twin twin

theorem isSubclass (low : Twin left right lower lower') (up : Twin left right upper upper') :
    left.isSubclass lower upper = right.isSubclass lower' upper' := by
  have same : (lower == upper) = (lower' == upper') := by
    rw [Bool.eq_iff_iff, beq_iff_eq, beq_iff_eq]
    exact Relator.rel_eq alike.biUnique low up
  rw [Hierarchy.isSubclass, Hierarchy.isSubclass, same, alike.contains_ancestors low up]

theorem classOf? (type : Ty) :
    Option.Rel (Twin left right) (left.classOf? type) (right.classOf? type) := by
  cases type with
  | named name => exact alike.idOf? name
  | array => exact .none

theorem isElement (type : Ty) : left.isElement type = right.isElement type := by
  cases type with
  | named name => rw [Hierarchy.isElement, Hierarchy.isElement, isSome_eq_of_rel (alike.idOf? name)]
  | array => rfl

theorem hasType (type : Ty) : left.hasType type = right.hasType type := by
  cases type with
  | named name => exact alike.isElement (.named name)
  | array element => exact alike.isElement element

theorem conforms (actual expected : Ty) :
    left.conforms actual expected = right.conforms actual expected := by
  cases actual with
  | array => rfl
  | named name =>
    have known := isSome_eq_of_rel (alike.classOf? expected)
    have low := alike.idOf? name
    have up := alike.classOf? expected
    unfold Hierarchy.conforms
    dsimp only
    rw [known]
    generalize left.idOf? name = lower, right.idOf? name = lower' at low
    generalize left.classOf? expected = upper, right.classOf? expected = upper' at up
    cases low with
    | none => rfl
    | some low =>
      cases up with
      | none => rfl
      | some up =>
        dsimp only
        rw [alike.isSubclass low up]

theorem lookup_tables {α : Type} {tables : ClassNode → SymbolTable α}
    (sameTables : ∀ {node node' : ClassNode}, node.Alike program other (Twin left right) node' →
      (tables node).Alike (Twin left right) (tables node'))
    (twin : Twin left right id id') (name : String) :
    ((left.node? id).map tables).bind
        (SymbolTable.lookup (fun id => (left.node? id).map tables) name left.size) =
      ((right.node? id').map tables).bind
        (SymbolTable.lookup (fun id => (right.node? id).map tables) name right.size) := by
  have resolves {id id' : ClassId} (twin : Twin left right id id') :
      Option.Rel (SymbolTable.Alike (Twin left right)) ((left.node? id).map tables)
        ((right.node? id').map tables) := by
    obtain ⟨node, node', found, found', same⟩ := alike.node?_alike twin
    rw [found, found']
    exact .some (sameTables same)
  rw [alike.size_eq]
  exact bind_eq_of_rel (resolves twin) (SymbolTable.Alike.lookup resolves name right.size)

theorem lookupField (twin : Twin left right id id') (name : String) :
    left.lookupField id name = right.lookupField id' name :=
  alike.lookup_tables ClassNode.Alike.fields twin name

theorem lookupMethod (twin : Twin left right id id') (name : String) :
    left.lookupMethod id name = right.lookupMethod id' name :=
  alike.lookup_tables ClassNode.Alike.methods twin name

/-- Changes that keep names, and keep namesakes alike, keep the classes the same. -/
theorem mapNodes {change change' : ClassId → ClassNode → ClassNode}
    (keeps : ∀ id node, (change id node).name = node.name)
    (keeps' : ∀ id node, (change' id node).name = node.name)
    (same : ∀ {id id' node node'}, Twin left right id id' →
      node.Alike program other (Twin left right) node' →
      (change id node).Alike program other (Twin left right) (change' id' node')) :
    Alike program other (left.mapNodes change) (right.mapNodes change') where
  names := by
    rw [names_mapNodes keeps, names_mapNodes keeps']
    exact alike.names
  distinct := by
    rw [names_mapNodes keeps]
    exact alike.distinct
  node := by
    intro id id' node node' found found' named
    rw [node?_mapNodes] at found found'
    obtain ⟨old, isOld, rfl⟩ := Option.map_eq_some_iff.mp found
    obtain ⟨old', isOld', rfl⟩ := Option.map_eq_some_iff.mp found'
    rw [keeps, keeps'] at named
    -- Names stay as they are, so the namesakes are those of before.
    rw [twin_congr (names_mapNodes keeps) (names_mapNodes keeps')]
    exact same (twin_of_nodes isOld isOld' named) (alike.node isOld isOld' named)

theorem extendable (twin : Twin left right id id') :
    (left.node? id).any ClassNode.extendable = (right.node? id').any ClassNode.extendable := by
  obtain ⟨node, node', found, found', same⟩ := alike.node?_alike twin
  rw [found, found']
  exact same.extendable

/-- A declaration is given the same parent, or refused it for the same reason. -/
theorem requestedParent (decl : ClassDecl) :
    (∃ parent parent', left.requestedParent decl = .ok parent ∧
      right.requestedParent decl = .ok parent' ∧ Option.Rel (Twin left right) parent parent') ∨
    ∃ error, left.requestedParent decl = .error error ∧
      right.requestedParent decl = .error error := by
  unfold Hierarchy.requestedParent
  cases decl.parent with
  | none => exact .inl ⟨_, _, rfl, rfl, alike.idOf? rootClass⟩
  | some parent =>
    have twins := alike.idOf? parent
    dsimp only
    generalize left.idOf? parent = id, right.idOf? parent = id' at twins
    cases twins with
    | none => exact .inr ⟨_, rfl, rfl⟩
    | some twin =>
      dsimp only
      rw [alike.extendable twin]
      split
      · exact .inl ⟨_, _, rfl, rfl, .some twin⟩
      · exact .inr ⟨_, rfl, rfl⟩

theorem link : Alike program other (left.link program) (right.link other) := by
  rw [link_eq, link_eq]
  refine alike.mapNodes (fun _ _ => ?_) (fun _ _ => ?_) ?_
  · split
    · rfl
    · split <;> rfl
  · split
    · rfl
    · split <;> rfl
  · intro id id' node node' _ same
    rw [← same.origin.declared?]
    split
    · exact same
    · next decl _ =>
      rcases alike.requestedParent decl with
        ⟨parent, parent', granted, granted', twins⟩ | ⟨error, refused, refused'⟩
      · rw [granted, granted']
        exact { same with parent := twins }
      · rw [refused, refused']
        exact { same with parent := alike.idOf? rootClass }

theorem cutCycles : Alike program other left.cutCycles right.cutCycles := by
  refine alike.mapNodes (fun _ _ => by split <;> rfl) (fun _ _ => by split <;> rfl) ?_
  intro id id' node node' twin same
  rw [alike.onCycle twin]
  split
  · exact { same with parent := alike.idOf? rootClass }
  · exact same

theorem rebuild : Alike program other left.rebuild right.rebuild :=
  alike.mapNodes (fun _ _ => rfl) (fun _ _ => rfl) fun _ same => { same with }

theorem bindMembers :
    Alike program other (left.bindMembers program) (right.bindMembers other) := by
  refine alike.mapNodes (fun _ _ => by dsimp only; split <;> rfl)
    (fun _ _ => by dsimp only; split <;> rfl) ?_
  intro id id' node node' _ same
  dsimp only
  rw [← same.origin.decl?]
  split
  · exact same
  · exact { same with fields := ⟨rfl, same.parent⟩, methods := ⟨rfl, same.parent⟩ }

end Alike

end Hierarchy

end Bantam
