import Bantam.Proofs.Hierarchy.DistinctClasses
import Bantam.Proofs.Hierarchy.Interface
import Bantam.Proofs.Typing.ClassAdequate

/-! Declared parents. Of each name the first declaration is registered. A class whose parent is
unknown or must not be extended, and one that its declared parents lead back to, is reported once
and comes to stand below the root class; every other one keeps the parent that it declares. -/
namespace Bantam
open Relation

namespace Program

/-- The first declaration of each name that is not taken. -/
def firsts (taken : List String) : List ClassDecl → List ClassDecl
  | [] => []
  | decl :: rest =>
    if decl.name ∈ taken then firsts taken rest
    else decl :: firsts (taken ++ [decl.name]) rest

def kept (program : Program) : List ClassDecl := firsts builtinNames program.classes

def parentFault? (program : Program) (decl : ClassDecl) : Option SemanticError :=
  decl.parent.bind fun parent =>
    if parent ∈ rootClass :: program.kept.map ClassDecl.name then none
    else if parent ∈ builtinNames then some (.builtinParent decl.name parent)
    else some (.undefinedParent decl.name parent)

/-- The declared parent, or the root class where there is none or something is wrong with it. -/
def declaredParent (program : Program) (decl : ClassDecl) : String :=
  if (program.parentFault? decl).isSome then rootClass else decl.parent.getD rootClass

def LeadsTo (program : Program) (lower upper : String) : Prop :=
  ∃ decl ∈ program.kept, decl.name = lower ∧ program.declaredParent decl = upper

/-- Declared parents lead from the class back to itself. -/
def Circular (program : Program) (decl : ClassDecl) : Prop :=
  TransGen program.LeadsTo decl.name decl.name

open Classical in
/-- The parent that a class ends with. -/
noncomputable def settledParent (program : Program) (decl : ClassDecl) : String :=
  if program.Circular decl then rootClass else program.declaredParent decl

end Program

namespace Hierarchy
variable {hierarchy : Hierarchy} {program : Program} {decl : ClassDecl} {id : ClassId}
  {node : ClassNode} {name : String}

theorem register_firsts (hierarchy : Hierarchy) (index : Nat) (decls : List ClassDecl) :
    ∃ added, (hierarchy.register index decls).1.nodes = hierarchy.nodes ++ added ∧
      List.Forall₂ (fun node decl => ∃ place, decls[place]? = some decl ∧
        node = fresh (index + place) decl) added (Program.firsts hierarchy.names decls) := by
  induction decls generalizing hierarchy index with
  | nil => exact ⟨[], (List.append_nil _).symm, .nil⟩
  | cons decl rest ih =>
    have later {node : ClassNode} {other : ClassDecl}
        (placed : ∃ place, rest[place]? = some other ∧ node = fresh (index + 1 + place) other) :
        ∃ place, (decl :: rest)[place]? = some other ∧ node = fresh (index + place) other := by
      obtain ⟨place, found, rfl⟩ := placed
      exact ⟨place + 1, found, by rw [Nat.add_assoc, Nat.add_comm 1]⟩
    rw [register, Program.firsts]
    split
    · next taken =>
      rw [if_pos ((isSome_idOf? _).mp taken)]
      obtain ⟨added, nodes, declared⟩ := ih hierarchy (index + 1)
      exact ⟨added, nodes, declared.imp fun _ _ => later⟩
    · next free =>
      rw [if_neg fun taken => free ((isSome_idOf? _).mpr taken)]
      obtain ⟨added, nodes, declared⟩ := ih (hierarchy.insert (fresh index decl)) (index + 1)
      rw [names_insert] at declared
      exact ⟨fresh index decl :: added, nodes.trans (List.append_assoc ..),
        .cons ⟨0, rfl, rfl⟩ (declared.imp fun _ _ => later)⟩

theorem register_ignores (hierarchy : Hierarchy) (index : Nat) (decls : List ClassDecl) :
    ∀ diagnostic ∈ (hierarchy.register index decls).2,
      ∃ decl ∈ decls, diagnostic = decl.diagnostic (.duplicateClass decl.name) := by
  induction decls generalizing hierarchy index with
  | nil => exact List.forall_mem_nil _
  | cons decl rest ih =>
    have later {diagnostic : Diagnostic}
        (reported : ∃ decl ∈ rest, diagnostic = decl.diagnostic (.duplicateClass decl.name)) :
        ∃ other ∈ decl :: rest, diagnostic = other.diagnostic (.duplicateClass other.name) := by
      obtain ⟨other, member, same⟩ := reported
      exact ⟨other, List.mem_cons_of_mem _ member, same⟩
    rw [register]
    split
    · exact List.forall_mem_cons.mpr ⟨⟨decl, List.mem_cons_self, rfl⟩,
        fun diagnostic member => later (ih _ _ diagnostic member)⟩
    · exact fun diagnostic member => later (ih _ _ diagnostic member)

/-- Registration adds one class behind the built-in ones for each registered declaration, in the
order of the program. -/
theorem nodes_registered_firsts (program : Program) :
    ∃ added, (registered program).nodes = builtins.nodes ++ added ∧
      List.Forall₂ (fun node decl => node.name = decl.name ∧
        node.origin.declared? program = some decl) added program.kept := by
  obtain ⟨added, nodes, declared⟩ := register_firsts builtins 0 program.classes
  refine ⟨added, nodes, declared.imp ?_⟩
  rintro node decl ⟨place, found, rfl⟩
  exact ⟨rfl, (congrArg (program.classes[·]?) (Nat.zero_add place)).trans found⟩

theorem names_registered_eq_firsts (program : Program) : (registered program).names =
    builtinNames ++ program.kept.map ClassDecl.name := by
  obtain ⟨added, nodes, declared⟩ := nodes_registered_firsts program
  have names : added.map ClassNode.name = program.kept.map ClassDecl.name :=
    List.forall₂_eq_eq_eq ▸ List.forall₂_map_left_iff.mpr
      (List.forall₂_map_right_iff.mpr (declared.imp fun _ _ => And.left))
  rw [Hierarchy.names, nodes, List.map_append, names]
  rfl

theorem decls_registered (program : Program) :
    (registered program).nodes.filterMap (·.origin.declared? program) = program.kept := by
  obtain ⟨added, nodes, declared⟩ := nodes_registered_firsts program
  have decls : (added.map (·.origin.declared? program)) = program.kept.map some :=
    List.forall₂_eq_eq_eq ▸ List.forall₂_map_left_iff.mpr
      (List.forall₂_map_right_iff.mpr (declared.imp fun _ _ => And.right))
  have found : added.filterMap (·.origin.declared? program) = program.kept := by
    conv_lhs => rw [← Function.id_comp fun node : ClassNode => node.origin.declared? program]
    rw [← List.filterMap_map, decls, List.filterMap_map, Function.id_comp, List.filterMap_some]
  rw [nodes, List.filterMap_append, found]
  rfl

theorem Enlists.map_snd_declared_eq (enlists : hierarchy.Enlists program) :
    (hierarchy.declared program).map Prod.snd = program.kept := by
  have decls : (hierarchy.declared program).map Prod.snd =
      hierarchy.nodes.filterMap (·.origin.declared? program) := by
    conv_rhs => rw [← List.zipIdx_map_fst 0 hierarchy.nodes, List.filterMap_map]
    rw [declared_eq, List.map_filterMap]
    congr 1
    funext entry
    rw [Option.map_map]
    exact congrFun Option.map_id _
  have origins (nodes : List ClassNode) : nodes.filterMap (·.origin.declared? program) =
      (nodes.map ClassNode.origin).filterMap (·.declared? program) := by
    rw [List.filterMap_map]
    rfl
  rw [decls, origins, enlists.origins, ← origins, decls_registered]

theorem mem_declared_iff : (id, decl) ∈ hierarchy.declared program ↔
    ∃ node, hierarchy.node? id = some node ∧ node.origin.declared? program = some decl := by
  rw [declared_eq, List.mem_filterMap]
  constructor
  · rintro ⟨⟨node, place⟩, isEntry, isDecl⟩
    obtain ⟨other, isDecl, same⟩ := Option.map_eq_some_iff.mp isDecl
    cases same
    exact ⟨node, List.mem_zipIdx_iff_getElem?.mp isEntry, isDecl⟩
  · rintro ⟨node, found, isDecl⟩
    exact ⟨(node, id), List.mem_zipIdx_iff_getElem?.mpr found, by rw [isDecl]; rfl⟩

theorem Enlists.mem_declared_iff_idOf? (enlists : hierarchy.Enlists program) :
    (id, decl) ∈ hierarchy.declared program ↔
      decl ∈ program.kept ∧ (registered program).idOf? decl.name = some id := by
  have numbers := idOf?_congr enlists.names decl.name
  constructor
  · intro declared
    rw [← enlists.map_snd_declared_eq, ← numbers]
    exact ⟨List.mem_map_of_mem declared, enlists.idOf?_of_declared declared⟩
  · rintro ⟨member, isId⟩
    rw [← enlists.map_snd_declared_eq] at member
    obtain ⟨⟨other, decl⟩, declared, rfl⟩ := List.mem_map.mp member
    rw [← numbers, enlists.idOf?_of_declared declared] at isId
    cases isId
    exact declared

theorem registered_distinct (program : Program) :
    (builtinNames ++ program.kept.map ClassDecl.name).Nodup := by
  rw [← names_registered_eq_firsts]
  exact enlists_registered.names_nodup

theorem unbuilt_of_registered (member : decl ∈ program.kept) : decl.name ∉ builtinNames :=
  fun builtin => (List.nodup_append.mp (registered_distinct program)).2.2 _ builtin _
    (List.mem_map_of_mem member) rfl

theorem isSome_idOf?_registered (name : String) : ((registered program).idOf? name).isSome = true ↔
    name ∈ builtinNames ∨ name ∈ program.kept.map ClassDecl.name := by
  rw [isSome_idOf?, names_registered_eq_firsts, List.mem_append]

theorem extendable_registered (isId : (registered program).idOf? name = some id)
    (found : (registered program).node? id = some node) :
    node.extendable = true ↔ name ∈ rootClass :: program.kept.map ClassDecl.name := by
  have named := (idOf?_eq_some_iff enlists_registered.names_nodup name id).mp isId
  rw [found, Option.map_some, Option.some_inj] at named
  subst named
  rw [List.mem_cons]
  rcases node?_registered found with builtin | ⟨-, index, decl, here, rfl⟩
  · obtain ⟨taken, extendable⟩ := builtin_extendable builtin
    rw [extendable, or_iff_left]
    intro again
    obtain ⟨decl, member, same⟩ := List.mem_map.mp again
    exact unbuilt_of_registered member (same ▸ taken)
  · have member : decl ∈ program.kept := by
      rw [← decls_registered, List.mem_filterMap]
      exact ⟨_, List.mem_of_getElem? found, here⟩
    exact iff_of_true rfl (.inr (List.mem_map_of_mem member))

theorem requestedParent_registered (program : Program) (decl : ClassDecl) :
    (registered program).requestedParent decl =
      match program.parentFault? decl with
      | none => .ok ((registered program).idOf? (program.declaredParent decl))
      | some error => .error error := by
  rw [requestedParent, Program.declaredParent, Program.parentFault?]
  cases decl.parent with
  | none => rfl
  | some parent =>
    rw [Option.bind_some, Option.getD_some]
    have known := @isSome_idOf?_registered program parent
    dsimp only
    split
    · next unknown =>
      rw [unknown] at known
      obtain ⟨unbuilt, undeclared⟩ := not_or.mp (mt known.mpr Bool.false_ne_true)
      have notRoot : parent ∉ rootClass :: program.kept.map ClassDecl.name := by
        rw [List.mem_cons, not_or]
        exact ⟨fun same => unbuilt (same ▸ List.mem_cons_self), undeclared⟩
      rw [if_neg notRoot, if_neg unbuilt]
    · next id found =>
      obtain ⟨node, isNode⟩ := exists_node (idOf?_lt found)
      have extendable := extendable_registered found isNode
      rw [isNode, Option.any_some]
      split
      · next allowed =>
        rw [if_pos (extendable.mp allowed)]
        exact congrArg Except.ok found.symm
      · next forbidden =>
        have notRoot := mt extendable.mpr forbidden
        have builtin : parent ∈ builtinNames := by
          rw [found] at known
          exact (known.mp rfl).resolve_right fun declared =>
            notRoot (List.mem_cons_of_mem _ declared)
        rw [if_neg notRoot, if_pos builtin]

theorem parentDiagnostics_registered (program : Program) :
    (registered program).parentDiagnostics program =
      program.kept.filterMap fun decl => (program.parentFault? decl).map decl.diagnostic := by
  rw [parentDiagnostics, ← enlists_registered.map_snd_declared_eq, List.filterMap_map]
  congr 1
  funext entry
  obtain ⟨_, decl⟩ := entry
  dsimp only [Function.comp_apply]
  rw [requestedParent_registered]
  cases program.parentFault? decl <;> rfl

theorem exists_declaredParent (program : Program) (decl : ClassDecl) :
    ∃ id, (registered program).idOf? (program.declaredParent decl) = some id := by
  have root := root?_registered program
  have requested := requestedParent_registered program decl
  cases fault : program.parentFault? decl with
  | none =>
    rw [fault] at requested
    obtain ⟨id, -, found⟩ := requestedParent_lt (by rw [root]; rfl) requested
    exact ⟨id, found⟩
  | some error =>
    rw [Program.declaredParent, fault]
    exact ⟨0, root⟩

theorem exists_registered_id (member : decl ∈ program.kept) :
    ∃ id, (registered program).idOf? decl.name = some id := by
  rw [← Option.isSome_iff_exists, isSome_idOf?_registered]
  exact .inr (List.mem_map_of_mem member)

theorem parentOf?_linked_eq (member : decl ∈ program.kept)
    (isId : (registered program).idOf? decl.name = some id) :
    (linked program).parentOf? id = (registered program).idOf? (program.declaredParent decl) := by
  obtain ⟨node, found, isDecl⟩ :=
    mem_declared_iff.mp (enlists_registered.mem_declared_iff_idOf?.mpr ⟨member, isId⟩)
  rw [linked, link_eq, parentOf?, node?_mapNodes, found, Option.map_some, Option.bind_some, isDecl]
  dsimp only
  rw [requestedParent_registered]
  cases fault : program.parentFault? decl with
  | none => rfl
  | some error =>
    rw [Program.declaredParent, fault]
    rfl

theorem extends_of_leadsTo {lower upper : String} (step : program.LeadsTo lower upper) :
    ∃ low high, (registered program).idOf? lower = some low ∧
      (registered program).idOf? upper = some high ∧ (linked program).Extends low high := by
  obtain ⟨decl, member, rfl, rfl⟩ := step
  obtain ⟨low, isLow⟩ := exists_registered_id member
  obtain ⟨high, isHigh⟩ := exists_declaredParent program decl
  exact ⟨low, high, isLow, isHigh, (parentOf?_linked_eq member isLow).trans isHigh⟩

theorem leadsTo_of_extends {low high : ClassId} (step : (linked program).Extends low high) :
    high = 0 ∨ ∃ lower upper, (registered program).idOf? lower = some low ∧
      (registered program).idOf? upper = some high ∧ program.LeadsTo lower upper := by
  have inside := lt_of_extends step
  rw [linked, link_eq, size_mapNodes] at inside
  obtain ⟨node, found⟩ := exists_node inside
  rcases node?_registered found with builtin | ⟨-, index, decl, here, rfl⟩
  · obtain ⟨notDeclared, parent⟩ := parent_builtin builtin
    rw [Extends, linked, link_eq, parentOf?, node?_mapNodes, found, Option.map_some,
      Option.bind_some, Origin.declared?, notDeclared, Option.bind_none, parent] at step
    split at step
    · contradiction
    · exact .inl (Option.some.inj step).symm
  · obtain ⟨member, isLow⟩ := enlists_registered.mem_declared_iff_idOf?.mp
      (mem_declared_iff.mpr ⟨_, found, here⟩)
    rw [Extends, parentOf?_linked_eq member isLow] at step
    exact .inr ⟨decl.name, _, isLow, step, decl, member, rfl, rfl⟩

theorem onCycle_iff_circular (isId : (registered program).idOf? decl.name = some id) :
    (linked program).onCycle id = true ↔ program.Circular decl := by
  have rooted := rooted_linked program
  rw [onCycle, List.contains_iff_mem, mem_ancestors_iff rooted.closed]
  exact below_self_iff enlists_registered.names_nodup rooted.parentless extends_of_leadsTo
    leadsTo_of_extends isId

open Classical in
theorem cycleDiagnostics_linked (program : Program) :
    (linked program).cycleDiagnostics program =
      (program.kept.filter fun decl => program.Circular decl).map fun decl =>
        decl.diagnostic (.cyclicClass decl.name) := by
  rw [cycleDiagnostics, ← enlists_linked.map_snd_declared_eq, List.filter_map, List.map_map,
    ← List.filterMap_eq_map, List.filterMap_filter]
  apply List.filterMap_congr
  rintro ⟨id, decl⟩ declared
  obtain ⟨-, isId⟩ := enlists_linked.mem_declared_iff_idOf?.mp declared
  exact if_congr ((onCycle_iff_circular isId).trans decide_eq_true_iff.symm) rfl rfl

theorem not_leadsTo_root {upper : String} : ¬ program.LeadsTo rootClass upper := by
  rintro ⟨decl, member, isRoot, -⟩
  exact unbuilt_of_registered member (isRoot ▸ List.mem_cons_self)

theorem not_circular_of_fault (member : decl ∈ program.kept)
    (fault : (program.parentFault? decl).isSome = true) : ¬ program.Circular decl := by
  intro circle
  obtain ⟨upper, ⟨other, memberOther, sameName, rfl⟩, rest⟩ := TransGen.head'_iff.mp circle
  obtain rfl := List.inj_on_of_nodup_map (List.nodup_append.mp (registered_distinct program)).2.1
    memberOther member sameName
  rw [Program.declaredParent, if_pos fault] at rest
  rcases ReflTransGen.cases_head rest with isRoot | ⟨upper, step, -⟩
  · exact unbuilt_of_registered member (isRoot ▸ List.mem_cons_self)
  · exact not_leadsTo_root step

theorem parentOf?_ofProgram (member : decl ∈ program.kept)
    (isId : (registered program).idOf? decl.name = some id) :
    (ofProgram program).1.parentOf? id =
      (registered program).idOf? (program.settledParent decl) := by
  obtain ⟨node, found, -⟩ :=
    mem_declared_iff.mp (enlists_linked.mem_declared_iff_idOf?.mpr ⟨member, isId⟩)
  rw [ofProgram_eq, parentOf?_rebuild, parentOf?_cutCycles, found, Program.settledParent]
  by_cases circle : program.Circular decl
  · rw [if_pos ((onCycle_iff_circular isId).mpr circle), if_pos circle]
    exact idOf?_congr (names_link program) rootClass
  · rw [if_neg (mt (onCycle_iff_circular isId).mp circle), if_neg circle]
    exact parentOf?_linked_eq member isId

theorem exists_settledParent (program : Program) (decl : ClassDecl) :
    ∃ id, (registered program).idOf? (program.settledParent decl) = some id := by
  rw [Program.settledParent]
  split
  · exact ⟨0, root?_registered program⟩
  · exact exists_declaredParent program decl

theorem mainDiagnostics_cases {diagnostic : Diagnostic}
    (reported : diagnostic ∈ hierarchy.mainDiagnostics program) :
    diagnostic = missingMain program ∨
      ∃ decl, (hierarchy.find? mainClass).bind (·.origin.decl? program) = some decl ∧
        diagnostic = decl.diagnostic .missingMainMethod := by
  rw [mainDiagnostics_eq] at reported
  cases found : (hierarchy.find? mainClass).bind (·.origin.decl? program) with
  | none =>
    rw [found] at reported
    exact .inl (List.mem_singleton.mp reported)
  | some decl =>
    rw [found, Option.map_some, Option.getD_some, startDiagnostics] at reported
    split at reported
    · contradiction
    · exact .inr ⟨decl, rfl, List.mem_singleton.mp reported⟩

open Classical in
/-- A registered class with an unknown or a built-in parent is reported as such, and then every
class that declared parents lead back to, in the order of the program; no class is reported twice.
The classes that are reported stand below the root class in the end, and each of the others below
the parent that it declares, or the root class if it declares none. -/
theorem declared_parents_classified (program : Program) :
    (ofProgram program).1.names = builtinNames ++ program.kept.map ClassDecl.name ∧
    (ofProgram program).1.names.Nodup ∧
    (∃ duplicates start, (ofProgram program).2 = duplicates ++
          program.kept.filterMap
            (fun decl => (program.parentFault? decl).map decl.diagnostic) ++
          (program.kept.filter fun decl => program.Circular decl).map
            (fun decl => decl.diagnostic (.cyclicClass decl.name)) ++ start ∧
        (∀ diagnostic ∈ duplicates, ∃ decl ∈ program.classes,
          diagnostic = decl.diagnostic (.duplicateClass decl.name)) ∧
        ∀ diagnostic ∈ start, diagnostic = missingMain program ∨
          ∃ decl : ClassDecl, diagnostic = decl.diagnostic .missingMainMethod) ∧
    ∀ decl ∈ program.kept,
      ((program.parentFault? decl).isSome = true → ¬ program.Circular decl) ∧
      ∃ id parent, (ofProgram program).1.idOf? decl.name = some id ∧
        (ofProgram program).1.idOf? (program.settledParent decl) = some parent ∧
        (ofProgram program).1.Extends id parent := by
  refine ⟨(names_ofProgram program).trans (names_registered_eq_firsts program),
    names_ofProgram_nodup program,
    ⟨(builtins.register 0 program.classes).2, (ofProgram program).1.mainDiagnostics program, ?_,
      register_ignores builtins 0 program.classes, fun diagnostic reported => ?_⟩, ?_⟩
  · rw [← parentDiagnostics_registered, ← cycleDiagnostics_linked]
    rfl
  · rcases mainDiagnostics_cases reported with isMain | ⟨decl, -, same⟩
    · exact .inl isMain
    · exact .inr ⟨decl, same⟩
  · intro decl member
    obtain ⟨id, isId⟩ := exists_registered_id member
    obtain ⟨parent, isParent⟩ := exists_settledParent program decl
    refine ⟨not_circular_of_fault member, id, parent, ?_, ?_,
      (parentOf?_ofProgram member isId).trans isParent⟩
    · exact (idOf?_congr (names_ofProgram program) _).trans isId
    · exact (idOf?_congr (names_ofProgram program) _).trans isParent

end Hierarchy

end Bantam
