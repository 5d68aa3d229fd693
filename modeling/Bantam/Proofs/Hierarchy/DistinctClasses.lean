import Bantam.Analysis
import Bantam.Proofs.Hierarchy.Tree
import Mathlib.Data.List.Basic

/-! Classes with distinct names. Where no two declarations of a program share a name, each of them
is registered unless a built-in class has its name, and a declaration, its place and its name stand
for the same class at every stage of building. -/
namespace Bantam

namespace Hierarchy

variable {hierarchy : Hierarchy} {program : Program} {id index : Nat} {node : ClassNode}
  {decl : ClassDecl} {decls : List ClassDecl} {taken : List String}

theorem findIdx?_congr {α : Type} {items : List α} {first second : α → Bool}
    (same : ∀ item ∈ items, first item = second item) :
    items.findIdx? first = items.findIdx? second := by
  induction items with
  | nil => rfl
  | cons item rest ih =>
    rw [List.findIdx?_cons, List.findIdx?_cons, same item List.mem_cons_self,
      ih fun other later => same other (List.mem_cons_of_mem _ later)]

/-- The declarations whose names are not taken, with their places from an index on. -/
def enlisted (taken : List String) (index : Nat) (decls : List ClassDecl) :
    List (ClassDecl × Nat) :=
  (decls.zipIdx index).filter fun entry => entry.1.name ∉ taken

theorem mem_append_iff_of_once {other : ClassDecl} (once : decl.name ∉ decls.map ClassDecl.name)
    (member : other ∈ decls) : other.name ∈ taken ++ [decl.name] ↔ other.name ∈ taken := by
  have different : other.name ≠ decl.name := fun same => once (same ▸ List.mem_map_of_mem member)
  simp [different]

theorem enlisted_append (once : decl.name ∉ decls.map ClassDecl.name) :
    enlisted (taken ++ [decl.name]) index decls = enlisted taken index decls := by
  apply List.filter_congr
  rintro ⟨other, place⟩ member
  simp only [mem_append_iff_of_once once (List.fst_mem_of_mem_zipIdx member)]

theorem enlisted_cons : enlisted taken index (decl :: decls) =
    if decl.name ∈ taken then enlisted taken (index + 1) decls
    else (decl, index) :: enlisted taken (index + 1) decls := by
  rw [enlisted, List.zipIdx_cons, List.filter_cons]
  by_cases known : decl.name ∈ taken <;> simp [known, enlisted]

theorem map_fst_enlisted :
    (enlisted taken index decls).map Prod.fst = decls.filter fun decl => decl.name ∉ taken := by
  conv_rhs => rw [← List.zipIdx_map_fst index decls, List.filter_map]
  rfl

theorem register_enlists (hierarchy : Hierarchy) (index : Nat)
    (distinct : (decls.map ClassDecl.name).Nodup) :
    (hierarchy.register index decls).1.nodes = hierarchy.nodes ++
      (enlisted hierarchy.names index decls).map fun entry => fresh entry.2 entry.1 := by
  induction decls generalizing hierarchy index with
  | nil => simp [register, enlisted]
  | cons decl rest ih =>
    obtain ⟨once, distinct⟩ := List.nodup_cons.mp distinct
    rw [register, enlisted_cons]
    split
    · next taken => rw [if_pos ((isSome_idOf? _).mp taken), ih _ _ distinct]
    · next free =>
      rw [if_neg fun taken => free ((isSome_idOf? _).mpr taken), ih _ _ distinct, names_insert,
        enlisted_append once, List.map_cons]
      exact List.append_assoc ..

theorem register_duplicates (hierarchy : Hierarchy) (index : Nat)
    (distinct : (decls.map ClassDecl.name).Nodup) :
    (hierarchy.register index decls).2 = (decls.filter fun decl => decl.name ∈ hierarchy.names).map
      fun decl => decl.diagnostic (.duplicateClass decl.name) := by
  induction decls generalizing hierarchy index with
  | nil => rfl
  | cons decl rest ih =>
    obtain ⟨once, distinct⟩ := List.nodup_cons.mp distinct
    rw [register]
    split
    · next taken => simp [ih _ _ distinct, (isSome_idOf? _).mp taken]
    · next free =>
      have same : rest.filter (fun other => other.name ∈ hierarchy.names ++ [decl.name]) =
          rest.filter fun other => other.name ∈ hierarchy.names :=
        List.filter_congr fun other member => by simp only [mem_append_iff_of_once once member]
      rw [ih _ _ distinct, names_insert, same, List.filter_cons_of_neg]
      simpa [isSome_idOf?] using free

section Registered
variable (distinct : (program.classes.map ClassDecl.name).Nodup)
include distinct

theorem nodes_registered : (registered program).nodes = builtins.nodes ++
    (enlisted builtins.names 0 program.classes).map fun entry => fresh entry.2 entry.1 :=
  register_enlists builtins 0 distinct

theorem names_registered_eq : (registered program).names = builtins.names ++
    (program.classes.filter fun decl => decl.name ∉ builtins.names).map ClassDecl.name := by
  rw [names, nodes_registered distinct, List.map_append, List.map_map]
  congr 1
  rw [← map_fst_enlisted, List.map_map]
  rfl

theorem mem_registered (member : node ∈ (registered program).nodes) : node ∈ builtins.nodes ∨
    ∃ index decl, program.classes[index]? = some decl ∧ decl.name ∉ builtins.names ∧
      node = fresh index decl := by
  rw [nodes_registered distinct, List.mem_append, List.mem_map] at member
  rcases member with builtin | ⟨⟨decl, index⟩, isEntry, rfl⟩
  · exact .inl builtin
  · obtain ⟨here, free⟩ := List.mem_filter.mp isEntry
    exact .inr ⟨index, decl, List.mem_zipIdx_iff_getElem?.mp here, by simpa using free, rfl⟩

/-- What is said of the declarations that are registered, in the order in which they stand in the
program, behind what is said of the built-in ones. -/
theorem origins_registered {decl? : Origin → Option ClassDecl}
    (finds : ∀ index, decl? (.declared index) = program.classes[index]?) :
    (registered program).nodes.filterMap (decl? ·.origin) =
      builtins.nodes.filterMap (decl? ·.origin) ++
        program.classes.filter fun decl => decl.name ∉ builtins.names := by
  have found : ∀ entry ∈ enlisted builtins.names 0 program.classes,
      decl? (fresh entry.2 entry.1).origin = some entry.1 := fun entry isEntry =>
    (finds entry.2).trans (List.mem_zipIdx_iff_getElem?.mp (List.mem_of_mem_filter isEntry))
  rw [nodes_registered distinct, List.filterMap_append, List.filterMap_map]
  congr 1
  refine (List.filterMap_congr found).trans ?_
  rw [List.filterMap_eq_map', map_fst_enlisted]

end Registered

/-- The classes are those that are registered for the program, with their names and declarations. No
later stage of building changes these. -/
structure Enlists (hierarchy : Hierarchy) (program : Program) : Prop where
  names : hierarchy.names = (registered program).names
  origins : hierarchy.nodes.map ClassNode.origin = (registered program).nodes.map ClassNode.origin

theorem enlists_registered : (registered program).Enlists program := ⟨rfl, rfl⟩

theorem Enlists.mapNodes (enlists : hierarchy.Enlists program)
    {change : ClassId → ClassNode → ClassNode}
    (names : ∀ id node, (change id node).name = node.name)
    (origins : ∀ id node, (change id node).origin = node.origin) :
    (hierarchy.mapNodes change).Enlists program where
  names := (names_mapNodes names).trans enlists.names
  origins := by
    refine Eq.trans ?_ enlists.origins
    apply List.ext_getElem?
    intro id
    rw [List.getElem?_map, List.getElem?_map, Hierarchy.mapNodes, List.getElem?_mapIdx,
      Option.map_map]
    congr 1
    funext node
    exact origins id node

theorem enlists_linked : (linked program).Enlists program := by
  refine enlists_registered.mapNodes (fun _ _ => ?_) fun _ _ => ?_ <;>
  · split
    · rfl
    · split <;> rfl

theorem Enlists.cutCycles (enlists : hierarchy.Enlists program) :
    hierarchy.cutCycles.Enlists program := by
  refine enlists.mapNodes (fun _ _ => ?_) fun _ _ => ?_ <;> split <;> rfl

theorem Enlists.rebuild (enlists : hierarchy.Enlists program) : hierarchy.rebuild.Enlists program :=
  enlists.mapNodes (fun _ _ => rfl) fun _ _ => rfl

theorem Enlists.bindMembers (enlists : hierarchy.Enlists program) :
    (hierarchy.bindMembers program).Enlists program := by
  refine enlists.mapNodes (fun _ _ => ?_) fun _ _ => ?_ <;>
  · dsimp only
    split <;> rfl

/-- The class of a declaration by its name, unless it is that of a built-in class. -/
def idOfClass? (hierarchy : Hierarchy) (decl : ClassDecl) : Option ClassId :=
  if decl.name ∈ builtins.names then none else hierarchy.idOf? decl.name

namespace Enlists
variable (enlists : hierarchy.Enlists program)
  (distinct : (program.classes.map ClassDecl.name).Nodup)
include enlists

theorem names_nodup : hierarchy.names.Nodup := by
  rw [enlists.names]
  exact names_register_nodup (by decide) 0 program.classes

theorem exists_registered (member : node ∈ hierarchy.nodes) :
    ∃ old ∈ (registered program).nodes, old.name = node.name ∧ old.origin = node.origin := by
  obtain ⟨id, found⟩ := List.mem_iff_getElem?.mp member
  have named := congrArg (·[id]?) enlists.names
  have placed := congrArg (·[id]?) enlists.origins
  simp only [Hierarchy.names, List.getElem?_map, found, Option.map_some] at named placed
  obtain ⟨old, isOld, sameName⟩ := Option.map_eq_some_iff.mp named.symm
  rw [isOld, Option.map_some, Option.some.injEq] at placed
  exact ⟨old, List.mem_of_getElem? isOld, sameName, placed.symm⟩

include distinct

/-- A class stands at the place of a declaration if it has its name, and no built-in class has. -/
theorem index?_eq (here : program.classes[index]? = some decl) (member : node ∈ hierarchy.nodes) :
    node.origin.index? = some index ↔ decl.name ∉ builtins.names ∧ node.name = decl.name := by
  obtain ⟨old, isOld, named, origin⟩ := enlists.exists_registered member
  rw [← named, ← origin]
  rcases mem_registered distinct isOld with builtin | ⟨place, other, there, free, rfl⟩
  · have named : old.name ∈ builtins.names := List.mem_map_of_mem builtin
    obtain ⟨id, found⟩ := List.mem_iff_getElem?.mp builtin
    rw [(parent_builtin found).1]
    constructor
    · intro impossible
      contradiction
    · rintro ⟨free, same⟩
      exact absurd (same ▸ named) free
  -- One place has one declaration, and as names are distinct, one name stands at one place.
  · have places : place = index ↔ other.name = decl.name := by
      constructor
      · rintro rfl
        exact congrArg ClassDecl.name (Option.some.inj (there.symm.trans here))
      · intro same
        have inside := (List.getElem?_eq_some_iff.mp (show
          (program.classes.map ClassDecl.name)[place]? = some other.name by
            rw [List.getElem?_map, there]; rfl)).1
        apply (List.getElem?_inj inside distinct).mp
        rw [List.getElem?_map, List.getElem?_map, here, there]
        exact congrArg some same
    show some place = some index ↔ _ ∧ other.name = decl.name
    rw [Option.some_inj, places]
    exact ⟨fun same => ⟨same ▸ free, same⟩, And.right⟩

/-- The place of a declaration and its name stand for the same class. -/
theorem idOfDecl?_eq (here : program.classes[index]? = some decl) :
    hierarchy.idOfDecl? index = hierarchy.idOfClass? decl := by
  have places (node : ClassNode) (member : node ∈ hierarchy.nodes) :
      (node.origin.index? == some index) =
        (decide (decl.name ∉ builtins.names) && node.name == decl.name) := by
    rw [Bool.eq_iff_iff, beq_iff_eq, enlists.index?_eq distinct here member, Bool.and_eq_true,
      decide_eq_true_iff, beq_iff_eq]
  rw [idOfDecl?, findIdx?_congr places, idOfClass?]
  split
  · next taken => simp [taken]
  · next free =>
    simp only [free, not_false_eq_true, decide_true, Bool.true_and]
    rfl

omit distinct in
theorem name_eq (member : node ∈ hierarchy.nodes)
    (isDecl : node.origin.declared? program = some decl) : node.name = decl.name := by
  obtain ⟨old, isOld, named, origin⟩ := enlists.exists_registered member
  obtain ⟨id, found⟩ := List.mem_iff_getElem?.mp isOld
  rw [← origin] at isDecl
  rw [← named]
  rcases node?_registered found with builtin | ⟨-, place, other, there, rfl⟩
  · rw [Origin.declared?, (parent_builtin builtin).1] at isDecl
    contradiction
  · exact congrArg ClassDecl.name (Option.some.inj (there.symm.trans isDecl))

omit distinct in
theorem idOf?_of_declared (member : (id, decl) ∈ hierarchy.declared program) :
    hierarchy.idOf? decl.name = some id := by
  rw [declared_eq, List.mem_filterMap] at member
  obtain ⟨⟨node, place⟩, isEntry, isDecl⟩ := member
  obtain ⟨other, isDecl, same⟩ := Option.map_eq_some_iff.mp isDecl
  cases same
  have found : hierarchy.node? place = some node := List.mem_zipIdx_iff_getElem?.mp isEntry
  rw [idOf?_eq_some_iff enlists.names_nodup, found, Option.map_some,
    enlists.name_eq (List.mem_of_getElem? found) isDecl]

theorem origins_eq {decl? : Origin → Option ClassDecl}
    (finds : ∀ index, decl? (.declared index) = program.classes[index]?) :
    hierarchy.nodes.filterMap (decl? ·.origin) = builtins.nodes.filterMap (decl? ·.origin) ++
      program.classes.filter fun decl => decl.name ∉ builtins.names := by
  have origins (nodes : List ClassNode) : nodes.filterMap (decl? ·.origin) =
      (nodes.map ClassNode.origin).filterMap decl? := by
    rw [List.filterMap_map]
    rfl
  rw [origins, enlists.origins, ← origins, origins_registered distinct finds]

theorem map_snd_declared : (hierarchy.declared program).map Prod.snd =
    program.classes.filter fun decl => decl.name ∉ builtins.names := by
  have decls : (hierarchy.declared program).map Prod.snd =
      hierarchy.nodes.filterMap (·.origin.declared? program) := by
    conv_rhs => rw [← List.zipIdx_map_fst 0 hierarchy.nodes, List.filterMap_map]
    rw [declared_eq, List.map_filterMap]
    congr 1
    funext entry
    rw [Option.map_map]
    exact congrFun Option.map_id _
  rw [decls, enlists.origins_eq distinct fun _ => rfl]
  rfl

/-- The declared classes, in the order of the program. -/
theorem declared_eq_filterMap : hierarchy.declared program =
    program.classes.filterMap fun decl => (hierarchy.idOfClass? decl).map (·, decl) := by
  have numbers : ∀ entry ∈ hierarchy.declared program,
      (hierarchy.idOf? entry.2.name).map (·, entry.2) = some entry := by
    rintro ⟨id, decl⟩ member
    rw [enlists.idOf?_of_declared member]
    rfl
  calc hierarchy.declared program
      = (hierarchy.declared program).filterMap
          fun entry => (hierarchy.idOf? entry.2.name).map (·, entry.2) := by
        rw [List.filterMap_congr numbers, List.filterMap_some]
    _ = (program.classes.filter fun decl => decl.name ∉ builtins.names).filterMap
          fun decl => (hierarchy.idOf? decl.name).map (·, decl) := by
        rw [← enlists.map_snd_declared distinct, List.filterMap_map]
        rfl
    _ = _ := by
        rw [List.filterMap_filter]
        congr 1
        funext decl
        by_cases taken : decl.name ∈ builtins.names <;> simp [idOfClass?, taken]

theorem exists_decl {name : String} (free : name ∉ builtins.names)
    (found : hierarchy.find? name = some node) :
    ∃ decl ∈ program.classes, decl.name = name ∧ node.origin.decl? program = some decl := by
  have isNamed := List.find?_some found
  have named : node.name = name := beq_iff_eq.mp isNamed
  obtain ⟨old, isOld, same, origin⟩ := enlists.exists_registered (List.mem_of_find?_eq_some found)
  rw [← origin]
  rcases mem_registered distinct isOld with builtin | ⟨index, decl, here, -, rfl⟩
  · have taken : old.name ∈ builtins.names := List.mem_map_of_mem builtin
    exact absurd (named ▸ same ▸ taken) free
  · exact ⟨decl, List.mem_of_getElem? here, same.trans named, here⟩

/-- A name that no built-in class has stands for the declaration of that name. -/
theorem findDecl_eq_some_iff {name : String} (free : name ∉ builtins.names) :
    (hierarchy.find? name).bind (·.origin.decl? program) = some decl ↔
      decl ∈ program.classes ∧ decl.name = name := by
  constructor
  · intro isDecl
    obtain ⟨node, found, isDecl⟩ := Option.bind_eq_some_iff.mp isDecl
    obtain ⟨other, member, named, isOther⟩ := enlists.exists_decl distinct free found
    obtain rfl : other = decl := Option.some.inj (isOther.symm.trans isDecl)
    exact ⟨member, named⟩
  · rintro ⟨member, rfl⟩
    have known : decl.name ∈ hierarchy.names := by
      rw [enlists.names, names_registered_eq distinct, List.mem_append, List.mem_map]
      exact .inr ⟨decl, List.mem_filter.mpr ⟨member, by simpa using free⟩, rfl⟩
    obtain ⟨node, isNode, same⟩ := List.mem_map.mp known
    have present : (hierarchy.find? decl.name).isSome :=
      List.find?_isSome.mpr ⟨node, isNode, beq_iff_eq.mpr same⟩
    obtain ⟨first, found⟩ := Option.isSome_iff_exists.mp present
    obtain ⟨other, memberOther, named, isOther⟩ := enlists.exists_decl distinct free found
    obtain rfl := List.inj_on_of_nodup_map distinct memberOther member named
    rw [found]
    exact isOther

end Enlists

end Hierarchy

theorem Program.findClass?_eq_some_iff {program : Program} {name : String} {decl : ClassDecl}
    (distinct : (program.classes.map ClassDecl.name).Nodup) :
    program.findClass? name = some decl ↔ decl ∈ program.classes ∧ decl.name = name := by
  have sound {decl : ClassDecl} (found : program.findClass? name = some decl) :
      decl ∈ program.classes ∧ decl.name = name := by
    have named := List.find?_some found
    exact ⟨List.mem_of_find?_eq_some found, beq_iff_eq.mp named⟩
  constructor
  · exact sound
  · rintro ⟨member, named⟩
    have present : (program.findClass? name).isSome :=
      List.find?_isSome.mpr ⟨decl, member, beq_iff_eq.mpr named⟩
    obtain ⟨first, found⟩ := Option.isSome_iff_exists.mp present
    obtain ⟨memberFirst, sameName⟩ := sound found
    obtain rfl := List.inj_on_of_nodup_map distinct memberFirst member (sameName.trans named.symm)
    exact found

theorem Hierarchy.Enlists.findDecl_eq {program : Program} {hierarchy : Hierarchy}
    (enlists : hierarchy.Enlists program) (distinct : (program.classes.map ClassDecl.name).Nodup)
    {name : String} (free : name ∉ builtins.names) :
    (hierarchy.find? name).bind (·.origin.decl? program) = program.findClass? name := by
  apply Option.ext
  intro decl
  rw [enlists.findDecl_eq_some_iff distinct free, Program.findClass?_eq_some_iff distinct]

end Bantam
