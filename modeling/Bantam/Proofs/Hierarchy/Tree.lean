import Bantam.Proofs.Hierarchy.Registry

/-! The hierarchy of every program is a tree below the root class, whatever parents its classes ask
for. Linking leaves each class but the root with one parent, cutting cycles leaves no class below
itself, and children and counts are those of the parent links that result. -/
namespace Bantam.Hierarchy
open Relation

/-- The classes form a tree below the root class, and all that is kept beside the parent links
agrees with them. -/
structure IsTree (hierarchy : Hierarchy) : Prop where
  names_nodup : hierarchy.names.Nodup
  idOf?_iff : ∀ name id,
    hierarchy.idOf? name = some id ↔ (hierarchy.node? id).map ClassNode.name = some name
  parentless_iff : ∀ id node, hierarchy.node? id = some node →
    (node.parent = none ↔ node.name = rootClass)
  has_root : ∃ root, hierarchy.root? = some root
  closed : hierarchy.Closed
  isChain : ∀ id, List.IsChain hierarchy.Extends (id :: hierarchy.ancestors id)
  nodup : ∀ id, (id :: hierarchy.ancestors id).Nodup
  ends_at_root : ∀ id < hierarchy.size,
    hierarchy.root? = some ((id :: hierarchy.ancestors id).getLast (List.cons_ne_nil _ _))
  refl : ∀ id, hierarchy.isSubclass id id = true
  trans : ∀ lower middle upper, hierarchy.isSubclass lower middle = true →
    hierarchy.isSubclass middle upper = true → hierarchy.isSubclass lower upper = true
  antisymm : ∀ lower upper, hierarchy.isSubclass lower upper = true →
    hierarchy.isSubclass upper lower = true → lower = upper
  total : ∀ lower first second, hierarchy.isSubclass lower first = true →
    hierarchy.isSubclass lower second = true →
    hierarchy.isSubclass first second = true ∨ hierarchy.isSubclass second first = true
  children_sorted : ∀ id node, hierarchy.node? id = some node → node.children.Pairwise (· < ·)
  mem_children_iff : ∀ id node, hierarchy.node? id = some node → ∀ child,
    child ∈ node.children ↔ hierarchy.parentOf? child = some id
  descendants_eq : ∀ id node, hierarchy.node? id = some node → node.descendants =
    (hierarchy.ids.filter fun lower => lower != id && hierarchy.isSubclass lower id).length

variable {hierarchy : Hierarchy}

theorem names_builtins : builtins.names = [rootClass, "String", "TextIO", "Sys"] := rfl

def registered (program : Program) : Hierarchy := (builtins.register 0 program.classes).1

/-- The classes of a program with the parents that they ask for. -/
def linked (program : Program) : Hierarchy := (registered program).link program

theorem ofProgram_eq (program : Program) :
    (ofProgram program).1 = (linked program).cutCycles.rebuild := rfl

theorem names_link (program : Program) : (hierarchy.link program).names = hierarchy.names := by
  apply names_mapNodes
  intro id node
  split
  · rfl
  · split <;> rfl

theorem names_cutCycles : hierarchy.cutCycles.names = hierarchy.names := by
  apply names_mapNodes
  intro id node
  split <;> rfl

theorem names_rebuild : hierarchy.rebuild.names = hierarchy.names :=
  names_mapNodes fun _ _ => rfl

theorem names_registered (program : Program) :
    ∃ rest, (registered program).names = builtins.names ++ rest := by
  obtain ⟨added, nodes, -⟩ := register_nodes builtins 0 program.classes
  exact ⟨added.map ClassNode.name, by rw [names, registered, nodes, List.map_append]; rfl⟩

theorem root?_eq_zero {rest : List String} (names : hierarchy.names = builtins.names ++ rest) :
    hierarchy.root? = some 0 := by
  rw [root?, idOf?_eq_findIdx?, names, List.findIdx?_append, names_builtins]
  rfl

theorem root?_registered (program : Program) : (registered program).root? = some 0 := by
  obtain ⟨rest, names⟩ := names_registered program
  exact root?_eq_zero names

theorem parent_builtin {id : ClassId} {node : ClassNode} (found : builtins.node? id = some node) :
    node.origin.index? = none ∧ node.parent = if id = 0 then none else some 0 := by
  match id, found with
  | 0, found => cases found; exact ⟨rfl, rfl⟩
  | 1, found => cases found; exact ⟨rfl, rfl⟩
  | 2, found => cases found; exact ⟨rfl, rfl⟩
  | 3, found => cases found; exact ⟨rfl, rfl⟩
  | _ + 4, found => cases found

theorem node?_registered {program : Program} {id : ClassId} {node : ClassNode}
    (found : (registered program).node? id = some node) :
    builtins.node? id = some node ∨
      0 < id ∧ ∃ index decl, program.classes[index]? = some decl ∧ node = fresh index decl := by
  obtain ⟨added, nodes, declared⟩ := register_nodes builtins 0 program.classes
  rw [node?, registered, nodes] at found
  by_cases old : id < builtins.nodes.length
  · rw [List.getElem?_append_left old] at found
    exact .inl found
  · rw [List.getElem?_append_right (Nat.not_lt.mp old)] at found
    obtain ⟨index, decl, here, rfl⟩ := declared node (List.mem_of_getElem? found)
    have positive : 0 < builtins.nodes.length := by decide
    exact .inr ⟨positive.trans_le (Nat.not_lt.mp old), index, decl, here, by rw [Nat.zero_add]⟩

theorem requestedParent_lt {decl : ClassDecl} {parent : Option ClassId}
    (root : hierarchy.root?.isSome = true) (granted : hierarchy.requestedParent decl = .ok parent) :
    ∃ id < hierarchy.size, parent = some id := by
  rw [requestedParent] at granted
  split at granted
  · obtain ⟨id, found⟩ := Option.isSome_iff_exists.mp root
    cases granted
    exact ⟨id, idOf?_lt found, found⟩
  · split at granted
    · contradiction
    · next id found =>
      split at granted
      · cases granted
        exact ⟨id, idOf?_lt found, rfl⟩
      · contradiction

/-- The root class comes first, and it alone has no parent. -/
structure Rooted (hierarchy : Hierarchy) : Prop where
  root : hierarchy.root? = some 0
  parentless : hierarchy.parentOf? 0 = none
  parent_lt : ∀ id, 0 < id → id < hierarchy.size →
    ∃ parent < hierarchy.size, hierarchy.parentOf? id = some parent

theorem Rooted.closed (rooted : hierarchy.Rooted) : hierarchy.Closed := by
  intro lower upper step
  rcases Nat.eq_zero_or_pos lower with rfl | positive
  · rw [Extends, rooted.parentless] at step
    contradiction
  · obtain ⟨parent, bound, isParent⟩ := rooted.parent_lt lower positive (lt_of_extends step)
    obtain rfl : parent = upper := extends_unique isParent step
    exact bound

theorem rooted_linked (program : Program) : (linked program).Rooted where
  root := by
    obtain ⟨rest, names⟩ := names_registered program
    exact root?_eq_zero ((names_link program).trans names)
  parentless := by
    obtain ⟨added, nodes, -⟩ := register_nodes builtins 0 program.classes
    rw [linked, link, parentOf?, node?_mapNodes, node?, registered, nodes]
    rfl
  parent_lt id positive inside := by
    have root := root?_registered program
    rw [linked, link, size_mapNodes] at inside ⊢
    obtain ⟨node, found⟩ := exists_node inside
    rw [parentOf?, node?_mapNodes, found, Option.map_some, Option.bind_some]
    rcases node?_registered found with builtin | ⟨-, index, decl, here, rfl⟩
    · obtain ⟨notDeclared, parent⟩ := parent_builtin builtin
      rw [notDeclared, Option.bind_none]
      exact ⟨0, idOf?_lt root, by rw [parent, if_neg positive.ne']⟩
    · have declared : (fresh index decl).origin.index?.bind (program.classes[·]?) = some decl :=
        here
      rw [declared]
      dsimp only
      split
      · next granted => exact requestedParent_lt (by rw [root]; rfl) granted
      · exact ⟨0, idOf?_lt root, root⟩

-- A relation between names may follow the parent links, save those to the root class; then so do
-- its chains.
section Chains
variable {named : Hierarchy} {leads : String → String → Prop}

theorem below_of_chain
    (follows : ∀ {lower upper}, leads lower upper → ∃ low high, named.idOf? lower = some low ∧
      named.idOf? upper = some high ∧ hierarchy.Extends low high)
    {lower upper : String} (chain : TransGen leads lower upper) :
    ∃ low high, named.idOf? lower = some low ∧ named.idOf? upper = some high ∧
      hierarchy.Below low high := by
  induction chain with
  | single step =>
    obtain ⟨low, high, isLow, isHigh, step⟩ := follows step
    exact ⟨low, high, isLow, isHigh, .single step⟩
  | tail _ step ih =>
    obtain ⟨low, middle, isLow, isMiddle, below⟩ := ih
    obtain ⟨other, high, isOther, isHigh, step⟩ := follows step
    cases isMiddle.symm.trans isOther
    exact ⟨low, high, isLow, isHigh, below.tail step⟩

theorem chain_of_below (distinct : named.names.Nodup) (parentless : hierarchy.parentOf? 0 = none)
    (follows : ∀ {low high}, hierarchy.Extends low high → high = 0 ∨ ∃ lower upper,
      named.idOf? lower = some low ∧ named.idOf? upper = some high ∧ leads lower upper)
    {low high : ClassId} (below : hierarchy.Below low high) :
    high = 0 ∨ ∃ lower upper, named.idOf? lower = some low ∧ named.idOf? upper = some high ∧
      TransGen leads lower upper := by
  induction below with
  | single step =>
    rcases follows step with root | ⟨lower, upper, isLow, isHigh, step⟩
    · exact .inl root
    · exact .inr ⟨lower, upper, isLow, isHigh, .single step⟩
  | tail _ step ih =>
    rcases follows step with root | ⟨middle, upper, isMiddle, isHigh, next⟩
    · exact .inl root
    · rcases ih with rfl | ⟨lower, other, isLow, isOther, chain⟩
      -- No way up goes on behind the root class.
      · rw [Extends, parentless] at step
        contradiction
      · rw [idOf?_eq_some_iff distinct] at isMiddle isOther
        cases isMiddle.symm.trans isOther
        exact .inr ⟨lower, upper, isLow, isHigh, chain.tail next⟩

/-- A class is below itself if and only if a chain leads from its name back to it. -/
theorem below_self_iff (distinct : named.names.Nodup) (parentless : hierarchy.parentOf? 0 = none)
    (down : ∀ {lower upper}, leads lower upper → ∃ low high, named.idOf? lower = some low ∧
      named.idOf? upper = some high ∧ hierarchy.Extends low high)
    (up : ∀ {low high}, hierarchy.Extends low high → high = 0 ∨ ∃ lower upper,
      named.idOf? lower = some low ∧ named.idOf? upper = some high ∧ leads lower upper)
    {name : String} {id : ClassId} (isId : named.idOf? name = some id) :
    hierarchy.Below id id ↔ TransGen leads name name := by
  constructor
  · intro circle
    rcases chain_of_below distinct parentless up circle with
      rfl | ⟨lower, upper, isLow, isHigh, chain⟩
    · obtain ⟨parent, step, -⟩ := TransGen.head'_iff.mp circle
      rw [Extends, parentless] at step
      contradiction
    · rw [idOf?_eq_some_iff distinct] at isId isLow isHigh
      cases isLow.symm.trans isId
      cases isHigh.symm.trans isId
      exact chain
  · intro chain
    obtain ⟨low, high, isLow, isHigh, circle⟩ := below_of_chain down chain
    cases isLow.symm.trans isId
    cases isHigh.symm.trans isId
    exact circle

end Chains

theorem parentOf?_cutCycles (id : ClassId) : hierarchy.cutCycles.parentOf? id =
    if hierarchy.onCycle id then (hierarchy.node? id).bind fun _ => hierarchy.root?
    else hierarchy.parentOf? id := by
  rw [parentOf?, parentOf?, cutCycles, node?_mapNodes]
  cases hierarchy.node? id with
  | none => simp
  | some node => split <;> simp [*]

theorem onCycle_of_parentless {id : ClassId} (parentless : hierarchy.parentOf? id = none) :
    hierarchy.onCycle id = false := by
  rw [onCycle, ancestors_of_parentless parentless]
  rfl

theorem Rooted.cutCycles (rooted : hierarchy.Rooted) : hierarchy.cutCycles.Rooted where
  root := (idOf?_congr names_cutCycles rootClass).trans rooted.root
  parentless := by
    rw [parentOf?_cutCycles, onCycle_of_parentless rooted.parentless]
    exact rooted.parentless
  parent_lt id positive inside := by
    have size : hierarchy.cutCycles.size = hierarchy.size := size_mapNodes
    rw [size] at inside ⊢
    rw [parentOf?_cutCycles]
    split
    · obtain ⟨node, found⟩ := exists_node inside
      rw [found, Option.bind_some, rooted.root]
      exact ⟨0, idOf?_lt rooted.root, rfl⟩
    · exact rooted.parent_lt id positive inside

/-- A step up after the cut goes to the root class, or is one of before. -/
theorem extends_cutCycles (rooted : hierarchy.Rooted) {lower upper : ClassId}
    (step : hierarchy.cutCycles.Extends lower upper) :
    upper = 0 ∨ hierarchy.Extends lower upper ∧ ¬ hierarchy.Below lower lower := by
  rw [Extends, parentOf?_cutCycles] at step
  split at step
  · obtain ⟨-, -, root⟩ := Option.bind_eq_some_iff.mp step
    exact .inl (Option.some.inj (root.symm.trans rooted.root))
  · next noCycle =>
    rw [onCycle, List.contains_iff_mem, mem_ancestors_iff rooted.closed] at noCycle
    exact .inr ⟨step, noCycle⟩

theorem below_cutCycles (rooted : hierarchy.Rooted) {lower upper : ClassId}
    (below : hierarchy.cutCycles.Below lower upper) :
    upper = 0 ∨ hierarchy.Below lower upper := by
  induction below with
  | single step =>
    rcases extends_cutCycles rooted step with root | ⟨before, -⟩
    · exact .inl root
    · exact .inr (.single before)
  | tail _ step ih =>
    rcases extends_cutCycles rooted step with root | ⟨before, -⟩
    · exact .inl root
    · rcases ih with rfl | above
      · rw [Extends, rooted.parentless] at before
        contradiction
      · exact .inr (above.tail before)

theorem acyclic_cutCycles (rooted : hierarchy.Rooted) : hierarchy.cutCycles.Acyclic := by
  have fromRoot {upper : ClassId} : ¬ hierarchy.cutCycles.Below 0 upper := by
    intro below
    obtain ⟨parent, step, -⟩ := TransGen.head'_iff.mp below
    rw [Extends, rooted.cutCycles.parentless] at step
    contradiction
  intro id circle
  rcases below_cutCycles rooted circle with rfl | before
  · exact fromRoot circle
  -- A cycle that is left avoids the root class, so it was one before, and those have been cut.
  · obtain ⟨parent, step, rest⟩ := TransGen.head'_iff.mp circle
    rcases extends_cutCycles rooted step with rfl | ⟨-, noCycle⟩
    · rcases reflTransGen_iff_eq_or_transGen.mp rest with rfl | below
      · exact fromRoot circle
      · exact fromRoot below
    · exact noCycle before

theorem parentOf?_rebuild (id : ClassId) :
    hierarchy.rebuild.parentOf? id = hierarchy.parentOf? id := by
  rw [rebuild, parentOf?_mapNodes]
  exact fun _ _ => rfl

@[simp] theorem size_rebuild : hierarchy.rebuild.size = hierarchy.size := size_mapNodes

theorem ancestors_rebuild (id : ClassId) :
    hierarchy.rebuild.ancestors id = hierarchy.ancestors id :=
  ancestors_congr size_rebuild parentOf?_rebuild id

theorem Rooted.rebuild (rooted : hierarchy.Rooted) : hierarchy.rebuild.Rooted where
  root := (idOf?_congr names_rebuild rootClass).trans rooted.root
  parentless := (parentOf?_rebuild 0).trans rooted.parentless
  parent_lt id positive inside := by
    rw [size_rebuild] at inside ⊢
    rw [parentOf?_rebuild]
    exact rooted.parent_lt id positive inside

theorem acyclic_rebuild (acyclic : hierarchy.Acyclic) : hierarchy.rebuild.Acyclic := by
  have same : hierarchy.rebuild.Extends = hierarchy.Extends := by
    funext lower upper
    rw [Extends, parentOf?_rebuild, Extends]
  intro id
  rw [Below, same]
  exact acyclic id

theorem rebuild_rebuild : hierarchy.rebuild.rebuild = hierarchy.rebuild := by
  have chains : hierarchy.rebuild.ancestors = hierarchy.ancestors := funext ancestors_rebuild
  have parents : hierarchy.rebuild.parentOf? = hierarchy.parentOf? := funext parentOf?_rebuild
  have ids : hierarchy.rebuild.ids = hierarchy.ids := by rw [ids, size_rebuild, ids]
  conv_lhs => rw [rebuild, chains, parents, ids]
  rw [rebuild, mapNodes, mapNodes, List.mapIdx_mapIdx]
  rfl

theorem node?_of_rebuilt (rebuilt : hierarchy.rebuild = hierarchy) {id : ClassId} {node : ClassNode}
    (found : hierarchy.node? id = some node) :
    node.children = hierarchy.ids.filter (fun child => hierarchy.parentOf? child == some id) ∧
      node.descendants =
        (hierarchy.ids.map hierarchy.ancestors).countP fun chain => chain.contains id := by
  rw [← rebuilt, rebuild, node?_mapNodes] at found
  obtain ⟨old, -, rfl⟩ := Option.map_eq_some_iff.mp found
  exact ⟨rfl, rfl⟩

theorem mem_ids {id : ClassId} : id ∈ hierarchy.ids ↔ id < hierarchy.size := List.mem_range

theorem countP_ancestors (acyclic : hierarchy.Acyclic) (closed : hierarchy.Closed) (id : ClassId) :
    (hierarchy.ids.map hierarchy.ancestors).countP (fun chain => chain.contains id) =
      (hierarchy.ids.filter fun lower => lower != id && hierarchy.isSubclass lower id).length := by
  rw [List.countP_map, ← List.countP_eq_length_filter]
  apply List.countP_congr
  intro lower _
  have notSelf : id ∉ hierarchy.ancestors id :=
    fun self => acyclic id ((mem_ancestors_iff closed).mp self)
  by_cases same : lower = id
  · subst same
    simp [notSelf]
  · simp [same, isSubclass]

theorem eq_zero_of_parentless (rooted : hierarchy.Rooted) {id : ClassId}
    (inside : id < hierarchy.size) (parentless : hierarchy.parentOf? id = none) : id = 0 := by
  by_contra notRoot
  obtain ⟨parent, -, isParent⟩ := rooted.parent_lt id (Nat.pos_of_ne_zero notRoot) inside
  rw [parentless] at isParent
  contradiction

theorem isTree_of_rebuilt (distinct : hierarchy.names.Nodup) (rooted : hierarchy.Rooted)
    (acyclic : hierarchy.Acyclic) (rebuilt : hierarchy.rebuild = hierarchy) :
    hierarchy.IsTree := by
  have closed := rooted.closed
  refine {
    names_nodup := distinct
    idOf?_iff := idOf?_eq_some_iff distinct
    has_root := ⟨0, rooted.root⟩
    closed
    isChain := isChain_ancestors closed acyclic
    nodup := nodup_ancestors acyclic
    refl := isSubclass_refl
    trans := fun _ _ _ => isSubclass_trans closed
    antisymm := fun _ _ => isSubclass_antisymm closed acyclic
    total := fun _ _ _ => isSubclass_total closed
    parentless_iff := ?parentless
    ends_at_root := ?ends
    children_sorted := ?sorted
    mem_children_iff := ?children
    descendants_eq := ?descendants }
  case parentless =>
    intro id node found
    have named : hierarchy.idOf? rootClass = some id ↔ node.name = rootClass := by
      rw [idOf?_eq_some_iff distinct, found, Option.map_some, Option.some.injEq]
    rw [← named, ← parentOf?_eq found]
    constructor
    · intro parentless
      rw [eq_zero_of_parentless rooted (node?_lt found) parentless]
      exact rooted.root
    · intro isRoot
      obtain rfl : id = 0 := Option.some.inj (isRoot.symm.trans rooted.root)
      exact rooted.parentless
  case ends =>
    intro id inside
    have last := parentOf?_last closed acyclic id
    generalize atEnd : (id :: hierarchy.ancestors id).getLast (List.cons_ne_nil _ _) = top at last
    have member : top ∈ id :: hierarchy.ancestors id := atEnd ▸ List.getLast_mem _
    have bound : top < hierarchy.size := by
      rcases List.mem_cons.mp member with rfl | above
      · exact inside
      · exact lt_of_mem_ancestors closed above
    rw [eq_zero_of_parentless rooted bound last]
    exact rooted.root
  case sorted =>
    intro id node found
    rw [(node?_of_rebuilt rebuilt found).1]
    exact List.pairwise_lt_range.filter _
  case children =>
    intro id node found child
    rw [(node?_of_rebuilt rebuilt found).1, List.mem_filter, beq_iff_eq, mem_ids]
    exact ⟨fun member => member.2, fun isParent => ⟨lt_of_extends isParent, isParent⟩⟩
  case descendants =>
    intro id node found
    rw [(node?_of_rebuilt rebuilt found).2, countP_ancestors acyclic closed]

theorem rooted_ofProgram (program : Program) : (ofProgram program).1.Rooted :=
  (rooted_linked program).cutCycles.rebuild

theorem acyclic_ofProgram (program : Program) : (ofProgram program).1.Acyclic :=
  acyclic_rebuild (acyclic_cutCycles (rooted_linked program))

theorem names_ofProgram (program : Program) :
    (ofProgram program).1.names = (registered program).names := by
  rw [ofProgram_eq, names_rebuild, names_cutCycles, linked, names_link]

theorem names_ofProgram_nodup (program : Program) : (ofProgram program).1.names.Nodup := by
  rw [names_ofProgram]
  exact names_register_nodup (by decide) 0 program.classes

theorem isTree_ofProgram (program : Program) : (ofProgram program).1.IsTree :=
  isTree_of_rebuilt (names_ofProgram_nodup program) (rooted_ofProgram program)
    (acyclic_ofProgram program) rebuild_rebuild

theorem installBuiltin_of_mem {decl : ClassDecl} (taken : decl.name ∈ hierarchy.names)
    (extendable : Bool) : hierarchy.installBuiltin decl extendable = hierarchy :=
  if_pos ((isSome_idOf? _).mpr taken)

theorem installBuiltins_of_names {rest : List String}
    (names : hierarchy.names = builtins.names ++ rest) :
    hierarchy.installBuiltins = hierarchy.rebuild := by
  have taken {decl : ClassDecl} (builtin : decl.name ∈ builtins.names) (extendable : Bool) :
      hierarchy.installBuiltin decl extendable = hierarchy :=
    installBuiltin_of_mem (by rw [names]; exact List.mem_append_left _ builtin) extendable
  rw [installBuiltins, taken (by decide)]
  simp only [List.foldl_cons, List.foldl_nil]
  rw [taken (by decide), taken (by decide), taken (by decide)]

/-- The hierarchy of every program is a tree, and neither rebuilding it nor installing the built-in
classes once more changes it. -/
theorem ofProgram_tree_stable (program : Program) :
    (ofProgram program).1.IsTree ∧
      (ofProgram program).1.rebuild = (ofProgram program).1 ∧
      (ofProgram program).1.installBuiltins = (ofProgram program).1 := by
  obtain ⟨rest, names⟩ := names_registered program
  refine ⟨isTree_ofProgram program, rebuild_rebuild, ?_⟩
  rw [installBuiltins_of_names ((names_ofProgram program).trans names)]
  exact rebuild_rebuild

end Bantam.Hierarchy
