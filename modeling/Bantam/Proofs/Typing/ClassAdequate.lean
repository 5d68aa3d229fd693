import Bantam.Proofs.Hierarchy.Tree
import Bantam.Proofs.Typing.Validity

/-! Class declarations. The building of a hierarchy reports nothing if and only if the classes of
the program are proper; then every class is registered, behind the built-in ones and at its place,
and has the parent that it asks for. -/
namespace Bantam
open Relation

/-- What a class is called, and where it is declared. -/
def ClassNode.label (node : ClassNode) : String × Origin := (node.name, node.origin)

namespace Hierarchy

variable {hierarchy : Hierarchy} {program : Program} {id index : Nat} {node : ClassNode}
  {decl : ClassDecl}

theorem find?_eq_some_iff (distinct : hierarchy.names.Nodup) {name : String} :
    hierarchy.find? name = some node ↔ ∃ id, hierarchy.node? id = some node ∧ node.name = name := by
  have isFirst {node : ClassNode} (found : hierarchy.find? name = some node) :
      ∃ id, hierarchy.node? id = some node ∧ node.name = name := by
    obtain ⟨id, isNode⟩ := List.mem_iff_getElem?.mp (List.mem_of_find?_eq_some found)
    have named := List.find?_some found
    exact ⟨id, isNode, beq_iff_eq.mp named⟩
  constructor
  · exact isFirst
  · rintro ⟨id, isNode, named⟩
    have present : (hierarchy.find? name).isSome := by
      rw [find?, List.find?_isSome]
      exact ⟨node, List.mem_of_getElem? isNode, beq_iff_eq.mpr named⟩
    obtain ⟨other, found⟩ := Option.isSome_iff_exists.mp present
    obtain ⟨place, isOther, named'⟩ := isFirst found
    have here := (idOf?_eq_some_iff distinct name id).mpr (by rw [isNode, ← named]; rfl)
    have there := (idOf?_eq_some_iff distinct name place).mpr (by rw [isOther, ← named']; rfl)
    obtain rfl : id = place := Option.some.inj (here.symm.trans there)
    rw [found]
    exact isOther.symm.trans isNode

theorem register_clean (hierarchy : Hierarchy) (index : Nat) (decls : List ClassDecl) :
    (hierarchy.register index decls).2 = [] ↔
      (decls.map ClassDecl.name).Nodup ∧ ∀ decl ∈ decls, decl.name ∉ hierarchy.names := by
  induction decls generalizing hierarchy index with
  | nil => simp [register]
  | cons decl rest ih =>
    rw [register]
    split
    · next taken =>
      have taken := (isSome_idOf? _).mp taken
      simp [taken]
    · next free =>
      have new : decl.name ∉ hierarchy.names := fun taken => free ((isSome_idOf? _).mpr taken)
      rw [ih, names_insert, List.map_cons, List.nodup_cons, List.forall_mem_cons]
      constructor
      · rintro ⟨distinct, unregistered⟩
        refine ⟨⟨fun again => ?_, distinct⟩, new, fun other member taken => ?_⟩
        · obtain ⟨other, member, same⟩ := List.mem_map.mp again
          exact unregistered other member (List.mem_append_right _ (List.mem_singleton.mpr same))
        · exact unregistered other member (List.mem_append_left _ taken)
      · rintro ⟨⟨once, distinct⟩, -, unregistered⟩
        refine ⟨distinct, fun other member taken => ?_⟩
        rcases List.mem_append.mp taken with taken | same
        · exact unregistered other member taken
        · exact once (List.mem_map.mpr ⟨other, member, List.mem_singleton.mp same⟩)

theorem register_nodes_of_clean (hierarchy : Hierarchy) (index : Nat) (decls : List ClassDecl)
    (clean : (hierarchy.register index decls).2 = []) :
    (hierarchy.register index decls).1.nodes =
      hierarchy.nodes ++ decls.mapIdx fun place decl => fresh (index + place) decl := by
  induction decls generalizing hierarchy index with
  | nil => simp [register]
  | cons decl rest ih =>
    rw [register] at clean ⊢
    split at clean
    · contradiction
    · next free =>
      have shift (place : Nat) : index + 1 + place = index + (place + 1) := by omega
      rw [if_neg free, ih _ _ clean, insert, List.mapIdx_cons, List.append_assoc]
      simp only [shift]
      rfl

/-- The classes are the built-in ones and behind them those of the program, with distinct names. -/
structure Enrolls (hierarchy : Hierarchy) (program : Program) : Prop where
  label_eq : ∀ id, (hierarchy.node? id).map ClassNode.label =
    if id < builtins.size then (builtins.node? id).map ClassNode.label
    else program.classes[id - builtins.size]?.map fun decl =>
      (decl.name, .declared (id - builtins.size))
  distinct : hierarchy.names.Nodup

theorem enrolls_registered (clean : (builtins.register 0 program.classes).2 = []) :
    (registered program).Enrolls program where
  label_eq id := by
    rw [node?, registered, register_nodes_of_clean _ _ _ clean, List.getElem?_append]
    split
    · next builtin => exact (if_pos builtin).symm
    · next declared =>
      refine Eq.trans ?_ (if_neg declared).symm
      rw [List.getElem?_mapIdx, Option.map_map, Nat.zero_add]
      rfl
  distinct := names_register_nodup (by decide) 0 program.classes

namespace Enrolls
variable (enrolls : hierarchy.Enrolls program)
include enrolls

theorem mapNodes {change : ClassId → ClassNode → ClassNode}
    (keeps : ∀ id node, (change id node).label = node.label) :
    (hierarchy.mapNodes change).Enrolls program where
  label_eq id := by
    have same : ClassNode.label ∘ change id = ClassNode.label := funext (keeps id)
    rw [node?_mapNodes, Option.map_map, same]
    exact enrolls.label_eq id
  distinct := by
    rw [names_mapNodes fun id node => congrArg Prod.fst (keeps id node)]
    exact enrolls.distinct

theorem node?_declared (here : program.classes[index]? = some decl) :
    ∃ node, hierarchy.node? (builtins.size + index) = some node ∧
      node.label = (decl.name, .declared index) := by
  have found := enrolls.label_eq (builtins.size + index)
  rw [if_neg (Nat.not_lt.mpr (Nat.le_add_right ..)), Nat.add_sub_cancel_left, here] at found
  exact Option.map_eq_some_iff.mp found

theorem node?_cases (found : hierarchy.node? id = some node) :
    (∃ builtin, builtins.node? id = some builtin ∧ builtin.label = node.label) ∨
      ∃ index decl, id = builtins.size + index ∧ program.classes[index]? = some decl ∧
        node.label = (decl.name, .declared index) := by
  have labelled := enrolls.label_eq id
  rw [found, Option.map_some] at labelled
  split at labelled
  · exact .inl (Option.map_eq_some_iff.mp labelled.symm)
  · next declared =>
    obtain ⟨decl, here, same⟩ := Option.map_eq_some_iff.mp labelled.symm
    exact .inr ⟨id - builtins.size, decl, (Nat.add_sub_cancel' (Nat.not_lt.mp declared)).symm, here,
      same.symm⟩

theorem idOf?_declared (here : program.classes[index]? = some decl) :
    hierarchy.idOf? decl.name = some (builtins.size + index) := by
  obtain ⟨node, found, labelled⟩ := enrolls.node?_declared here
  rw [idOf?_eq_some_iff enrolls.distinct, found]
  exact congrArg some (congrArg Prod.fst labelled)

theorem index?_eq (found : hierarchy.node? id = some node) :
    node.origin.index? = some index ↔ id = builtins.size + index := by
  rcases enrolls.node?_cases found with ⟨builtin, isBuiltin, same⟩ | ⟨place, decl, rfl, here, same⟩
  · have origin : node.origin = builtin.origin := (congrArg Prod.snd same).symm
    have bound := node?_lt isBuiltin
    rw [origin, (parent_builtin isBuiltin).1]
    constructor
    · intro impossible
      contradiction
    · rintro rfl
      exact absurd bound (Nat.not_lt.mpr (Nat.le_add_right ..))
  · have origin : node.origin = .declared place := congrArg Prod.snd same
    rw [origin, Nat.add_left_cancel_iff]
    exact Option.some_inj

theorem idOfDecl?_eq (here : program.classes[index]? = some decl) :
    hierarchy.idOfDecl? index = some (builtins.size + index) := by
  obtain ⟨node, found, -⟩ := enrolls.node?_declared here
  rw [idOfDecl?, List.findIdx?_eq_some_iff_getElem]
  obtain ⟨bound, isNode⟩ := List.getElem?_eq_some_iff.mp found
  refine ⟨bound, ?_, fun earlier before same => ?_⟩
  · rw [isNode, beq_iff_eq]
    exact (enrolls.index?_eq found).mpr rfl
  · have isEarlier : hierarchy.node? earlier = some _ :=
      List.getElem?_eq_getElem (before.trans bound)
    have equal := (enrolls.index?_eq isEarlier).mp (beq_iff_eq.mp same)
    exact absurd equal before.ne

theorem mem_declared : (id, decl) ∈ hierarchy.declared program ↔
    ∃ index, id = builtins.size + index ∧ program.classes[index]? = some decl := by
  simp only [declared, List.mem_filterMap, Prod.exists, List.mem_zipIdx_iff_getElem?]
  constructor
  · rintro ⟨node, place, found, kept⟩
    obtain ⟨index, isIndex, kept⟩ := Option.bind_eq_some_iff.mp kept
    obtain ⟨other, here, kept⟩ := Option.bind_eq_some_iff.mp kept
    cases kept
    exact ⟨index, (enrolls.index?_eq found).mp isIndex, here⟩
  · rintro ⟨index, rfl, here⟩
    obtain ⟨node, found, -⟩ := enrolls.node?_declared here
    refine ⟨node, builtins.size + index, found, ?_⟩
    rw [(enrolls.index?_eq found).mpr rfl]
    simp [here]

theorem node?_of_name (member : decl ∈ program.classes) :
    ∃ id node, hierarchy.node? id = some node ∧ node.name = decl.name ∧
      node.origin.decl? program = some decl := by
  obtain ⟨index, here⟩ := List.mem_iff_getElem?.mp member
  obtain ⟨node, found, labelled⟩ := enrolls.node?_declared here
  refine ⟨_, node, found, congrArg Prod.fst labelled, ?_⟩
  rw [show node.origin = .declared index from congrArg Prod.snd labelled]
  exact here

end Enrolls

theorem builtin_extendable {id : ClassId} (found : builtins.node? id = some node) :
    node.name ∈ builtinNames ∧ (node.extendable ↔ node.name = rootClass) := by
  match id, found with
  | 0, found => cases found; decide
  | 1, found => cases found; decide
  | 2, found => cases found; decide
  | 3, found => cases found; decide
  | _ + 4, found => cases found

namespace Enrolls
variable (enrolls : hierarchy.Enrolls program)
include enrolls

theorem findDecl_eq_some_iff {name : String} (unbuilt : name ∉ builtinNames) :
    (hierarchy.find? name).bind (·.origin.decl? program) = some decl ↔
      decl ∈ program.classes ∧ decl.name = name := by
  simp only [Option.bind_eq_some_iff, find?_eq_some_iff enrolls.distinct]
  constructor
  · rintro ⟨node, ⟨id, found, rfl⟩, isDecl⟩
    rcases enrolls.node?_cases found with ⟨builtin, isBuiltin, same⟩ | ⟨index, other, rfl, here, same⟩
    · have taken := (builtin_extendable isBuiltin).1
      rw [show builtin.name = node.name from congrArg Prod.fst same] at taken
      contradiction
    · rw [show node.origin = .declared index from congrArg Prod.snd same] at isDecl
      cases here.symm.trans isDecl
      exact ⟨List.mem_of_getElem? here, (congrArg Prod.fst same).symm⟩
  · rintro ⟨member, rfl⟩
    obtain ⟨id, node, found, same, isDecl⟩ := enrolls.node?_of_name member
    exact ⟨node, ⟨id, found, same⟩, isDecl⟩

theorem mainDiagnostics_eq_nil : hierarchy.mainDiagnostics program = [] ↔
    ∃ decl ∈ program.classes, decl.name = mainClass ∧
      ∃ method ∈ decl.methods, method.name = mainMethod ∧ method.formals = [] := by
  have unbuilt : mainClass ∉ builtinNames := by decide
  have found (decl : ClassDecl) :
      (hierarchy.find? mainClass).bind (·.origin.decl? program) = some decl ↔
        decl ∈ program.classes ∧ decl.name = mainClass := enrolls.findDecl_eq_some_iff unbuilt
  unfold mainDiagnostics
  split
  · next missing =>
    simp only [reduceCtorEq, false_iff]
    rintro ⟨decl, member, isMain, -⟩
    rw [(found decl).mpr ⟨member, isMain⟩] at missing
    contradiction
  · next decl isDecl =>
    obtain ⟨member, isMain⟩ := (found decl).mp isDecl
    have answer : decl.methods.any
          (fun method => method.name == mainMethod && method.formals.isEmpty) = true ↔
        ∃ method ∈ decl.methods, method.name = mainMethod ∧ method.formals = [] := by
      simp
    split
    · next startable => exact ⟨fun _ => ⟨decl, member, isMain, answer.mp startable⟩, fun _ => rfl⟩
    · next unstartable =>
      simp only [reduceCtorEq, false_iff]
      rintro ⟨other, memberOther, isOther, startable⟩
      cases isDecl.symm.trans ((found other).mpr ⟨memberOther, isOther⟩)
      exact unstartable (answer.mpr startable)

end Enrolls

theorem granted_iff : (∃ parent, hierarchy.requestedParent decl = .ok parent) ↔
    ∀ name, decl.parent = some name →
      ∃ id node, hierarchy.idOf? name = some id ∧ hierarchy.node? id = some node ∧
        node.extendable := by
  unfold requestedParent
  cases decl.parent with
  | none => simp
  | some name =>
    simp only [Option.some.injEq, forall_eq']
    cases found : hierarchy.idOf? name with
    | none => simp
    | some id =>
      obtain ⟨node, isNode⟩ := exists_node (idOf?_lt found)
      cases extendable : node.extendable <;> simp [isNode, extendable]

theorem requestedParent_cases {id : ClassId}
    (granted : hierarchy.requestedParent decl = .ok (some id)) :
    hierarchy.root? = some id ∨
      ∃ name, decl.parent = some name ∧ hierarchy.idOf? name = some id := by
  unfold requestedParent at granted
  split at granted
  · exact .inl (Except.ok.inj granted)
  · next name isParent =>
    split at granted
    · contradiction
    · next found =>
      split at granted
      · cases granted
        exact .inr ⟨name, isParent, found⟩
      · contradiction

theorem requestedParent_of_name {name : String} {id : ClassId} (isParent : decl.parent = some name)
    (found : hierarchy.idOf? name = some id) {parent : Option ClassId}
    (granted : hierarchy.requestedParent decl = .ok parent) : parent = some id := by
  rw [requestedParent, isParent] at granted
  simp only [found] at granted
  split at granted
  · exact (Except.ok.inj granted).symm
  · contradiction

theorem Enrolls.link (enrolls : hierarchy.Enrolls program) :
    (hierarchy.link program).Enrolls program := by
  apply enrolls.mapNodes
  intro id node
  split
  · rfl
  · split <;> rfl

section Registered
variable (enrolls : (registered program).Enrolls program)
include enrolls

/-- The root class and the classes of the program can be extended, and no others. -/
theorem extendable_iff {name : String} :
    (∃ id node, (registered program).idOf? name = some id ∧
      (registered program).node? id = some node ∧ node.extendable) ↔
      name = rootClass ∨ ∃ decl ∈ program.classes, decl.name = name := by
  constructor
  · rintro ⟨id, node, isId, found, extendable⟩
    have named := (idOf?_eq_some_iff enrolls.distinct name id).mp isId
    rw [found, Option.map_some, Option.some_inj] at named
    subst named
    rcases node?_registered found with builtin | ⟨-, index, decl, here, rfl⟩
    · exact .inl ((builtin_extendable builtin).2.mp extendable)
    · exact .inr ⟨decl, List.mem_of_getElem? here, rfl⟩
  · rintro (rfl | ⟨decl, member, rfl⟩)
    · have root := root?_registered program
      obtain ⟨node, found⟩ := exists_node (idOf?_lt root)
      have named := (idOf?_eq_some_iff enrolls.distinct rootClass 0).mp root
      rw [found, Option.map_some, Option.some_inj] at named
      rcases node?_registered found with builtin | ⟨impossible, -⟩
      · exact ⟨0, node, root, found, (builtin_extendable builtin).2.mpr named⟩
      · contradiction
    · obtain ⟨index, here⟩ := List.mem_iff_getElem?.mp member
      obtain ⟨node, found, -⟩ := enrolls.node?_declared here
      refine ⟨_, node, enrolls.idOf?_declared here, found, ?_⟩
      rcases node?_registered found with builtin | ⟨-, index, decl, -, rfl⟩
      · exact absurd (node?_lt builtin) (Nat.not_lt.mpr (Nat.le_add_right ..))
      · rfl

theorem granted_iff_known : (∃ parent, (registered program).requestedParent decl = .ok parent) ↔
    ∀ name, decl.parent = some name →
      name = rootClass ∨ ∃ decl ∈ program.classes, decl.name = name := by
  rw [granted_iff]
  simp only [extendable_iff enrolls]

theorem parentDiagnostics_eq_nil : (registered program).parentDiagnostics program = [] ↔
    ∀ lower upper, program.Inherits lower upper →
      upper = rootClass ∨ ∃ decl ∈ program.classes, decl.name = upper := by
  rw [parentDiagnostics, List.filterMap_eq_nil_iff]
  constructor
  · rintro clean lower upper ⟨decl, member, rfl, isParent⟩
    obtain ⟨index, here⟩ := List.mem_iff_getElem?.mp member
    have noError := clean _ (enrolls.mem_declared.mpr ⟨index, rfl, here⟩)
    dsimp only at noError
    split at noError
    · next granted => exact (granted_iff_known enrolls).mp ⟨_, granted⟩ upper isParent
    · contradiction
  · rintro known ⟨id, decl⟩ declared
    obtain ⟨index, -, here⟩ := enrolls.mem_declared.mp declared
    have member := List.mem_of_getElem? here
    obtain ⟨parent, granted⟩ := (granted_iff_known enrolls).mpr fun name isParent =>
      known decl.name name ⟨decl, member, rfl, isParent⟩
    dsimp only
    rw [granted]

theorem parentOf?_linked (here : program.classes[index]? = some decl) {parent : Option ClassId}
    (granted : (registered program).requestedParent decl = .ok parent) :
    (linked program).parentOf? (builtins.size + index) = parent := by
  obtain ⟨node, found, -⟩ := enrolls.node?_declared here
  have isIndex := (enrolls.index?_eq found).mpr rfl
  rw [linked, Hierarchy.link, parentOf?, node?_mapNodes, found, Option.map_some, Option.bind_some,
    isIndex, Option.bind_some, here]
  simp only [granted]

end Registered

section Linked
variable (enrolls : (registered program).Enrolls program)
  (known : ∀ lower upper, program.Inherits lower upper →
    upper = rootClass ∨ ∃ decl ∈ program.classes, decl.name = upper)
include enrolls known

theorem extends_of_inherits {lower upper : String} (step : program.Inherits lower upper) :
    ∃ low high, (registered program).idOf? lower = some low ∧
      (registered program).idOf? upper = some high ∧ (linked program).Extends low high := by
  obtain ⟨decl, member, rfl, isParent⟩ := step
  obtain ⟨index, here⟩ := List.mem_iff_getElem?.mp member
  obtain ⟨parent, granted⟩ := (granted_iff_known enrolls).mpr fun name isParent =>
    known decl.name name ⟨decl, member, rfl, isParent⟩
  obtain ⟨high, -, found, -, -⟩ := granted_iff.mp ⟨parent, granted⟩ upper isParent
  obtain rfl := requestedParent_of_name isParent found granted
  exact ⟨_, high, enrolls.idOf?_declared here, found, parentOf?_linked enrolls here granted⟩

theorem inherits_of_extends {low high : ClassId} (step : (linked program).Extends low high) :
    high = 0 ∨ ∃ lower upper, (registered program).idOf? lower = some low ∧
      (registered program).idOf? upper = some high ∧ program.Inherits lower upper := by
  have inside := lt_of_extends step
  rw [linked, Hierarchy.link, size_mapNodes] at inside
  obtain ⟨node, found⟩ := exists_node inside
  rcases node?_registered found with builtin | ⟨-, index, decl, here, rfl⟩
  · obtain ⟨notDeclared, parent⟩ := parent_builtin builtin
    rw [Extends, linked, Hierarchy.link, parentOf?, node?_mapNodes, found, Option.map_some,
      Option.bind_some, notDeclared, Option.bind_none] at step
    rw [show node.parent = some high from step] at parent
    split at parent
    · contradiction
    · exact .inl (Option.some.inj parent)
  · obtain rfl := (enrolls.index?_eq found).mp rfl
    have member := List.mem_of_getElem? here
    obtain ⟨parent, granted⟩ := (granted_iff_known enrolls).mpr fun name isParent =>
      known decl.name name ⟨decl, member, rfl, isParent⟩
    rw [Extends, parentOf?_linked enrolls here granted] at step
    subst step
    rcases requestedParent_cases granted with root | ⟨upper, isParent, isHigh⟩
    · exact .inl (Option.some.inj (root.symm.trans (root?_registered program)))
    · have isLow := enrolls.idOf?_declared here
      exact .inr ⟨decl.name, upper, isLow, isHigh, decl, member, rfl, isParent⟩

theorem cycleDiagnostics_eq_nil : (linked program).cycleDiagnostics program = [] ↔
    ∀ name, ¬ TransGen program.Inherits name name := by
  have rooted := rooted_linked program
  have circle_iff {name : String} {id : ClassId}
      (isId : (registered program).idOf? name = some id) :
      (linked program).onCycle id = true ↔ TransGen program.Inherits name name := by
    rw [onCycle, List.contains_iff_mem, mem_ancestors_iff rooted.closed]
    exact below_self_iff enrolls.distinct rooted.parentless (extends_of_inherits enrolls known)
      (inherits_of_extends enrolls known) isId
  rw [cycleDiagnostics, List.filterMap_eq_nil_iff]
  constructor
  · intro clean name circle
    obtain ⟨-, ⟨decl, member, rfl, -⟩, -⟩ := TransGen.head'_iff.mp circle
    obtain ⟨index, here⟩ := List.mem_iff_getElem?.mp member
    have noCycle := clean _ (enrolls.link.mem_declared.mpr ⟨index, rfl, here⟩)
    dsimp only at noCycle
    rw [if_pos ((circle_iff (enrolls.idOf?_declared here)).mpr circle)] at noCycle
    contradiction
  · rintro acyclic ⟨id, decl⟩ declared
    obtain ⟨index, rfl, here⟩ := enrolls.link.mem_declared.mp declared
    exact if_neg fun onCycle => acyclic decl.name
      ((circle_iff (enrolls.idOf?_declared here)).mp onCycle)

end Linked

theorem Enrolls.ofProgram (enrolls : (registered program).Enrolls program) :
    (ofProgram program).1.Enrolls program := by
  have cut : (linked program).cutCycles.Enrolls program := by
    apply enrolls.link.mapNodes
    intro id node
    split <;> rfl
  exact cut.mapNodes fun _ _ => rfl

/-- Nothing is wrong with the classes of a program as such if and only if they are proper. -/
theorem ofProgram_clean : (ofProgram program).2 = [] ↔ program.ProperClasses := by
  have stages : (ofProgram program).2 = (builtins.register 0 program.classes).2 ++
      (registered program).parentDiagnostics program ++ (linked program).cycleDiagnostics program ++
      (ofProgram program).1.mainDiagnostics program := rfl
  rw [stages, List.append_eq_nil_iff, List.append_eq_nil_iff, List.append_eq_nil_iff]
  constructor
  · rintro ⟨⟨⟨noDuplicates, parents⟩, cycles⟩, main⟩
    have enrolls := enrolls_registered noDuplicates
    obtain ⟨distinct, unbuilt⟩ := (register_clean _ _ _).mp noDuplicates
    have known := (parentDiagnostics_eq_nil enrolls).mp parents
    exact ⟨distinct, unbuilt, known, (cycleDiagnostics_eq_nil enrolls known).mp cycles,
      enrolls.ofProgram.mainDiagnostics_eq_nil.mp main⟩
  · rintro ⟨distinct, unbuilt, known, acyclic, startable⟩
    have noDuplicates := (register_clean builtins 0 program.classes).mpr ⟨distinct, unbuilt⟩
    have enrolls := enrolls_registered noDuplicates
    exact ⟨⟨⟨noDuplicates, (parentDiagnostics_eq_nil enrolls).mpr known⟩,
      (cycleDiagnostics_eq_nil enrolls known).mpr acyclic⟩,
      enrolls.ofProgram.mainDiagnostics_eq_nil.mpr startable⟩

end Hierarchy

end Bantam
