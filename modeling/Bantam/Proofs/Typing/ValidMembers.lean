import Bantam.Proofs.Hierarchy.MemberTables
import Bantam.Proofs.Typing.ProgramAdequate

/-! Members of valid programs. Whatever a lookup finds in a valid program is declared, by a built-in
class or by one of the program, and so it has been checked: fields and formals have types that
values can have, and methods have the types of those that they override. -/
namespace Bantam
open Relation Typing

section Related
variable {α β : Type} {related : α → β → Prop} {items : List α} {images : List β}

theorem exists_of_mem_left (all : List.Forall₂ related items images) {item : α}
    (member : item ∈ items) : ∃ image ∈ images, related item image := by
  induction all with
  | nil => contradiction
  | cons first _ ih =>
    rcases List.mem_cons.mp member with rfl | later
    · exact ⟨_, List.mem_cons_self, first⟩
    · obtain ⟨image, inside, here⟩ := ih later
      exact ⟨image, List.mem_cons_of_mem _ inside, here⟩

theorem exists_of_mem_right (all : List.Forall₂ related items images) {image : β}
    (member : image ∈ images) : ∃ item ∈ items, related item image :=
  exists_of_mem_left (List.Forall₂.flip all) member

end Related

theorem ClassDecl.mem_fields {decl : ClassDecl} {field : Field} :
    field ∈ decl.fields ↔ .field field ∈ decl.members := by
  rw [fields, List.mem_filterMap]
  constructor
  · rintro ⟨member, declared, same⟩
    cases member with
    | field => cases same; exact declared
    | method => contradiction
  · exact fun declared => ⟨_, declared, rfl⟩

theorem ClassDecl.mem_methods {decl : ClassDecl} {method : Method} :
    method ∈ decl.methods ↔ .method method ∈ decl.members := by
  rw [methods, List.mem_filterMap]
  constructor
  · rintro ⟨member, declared, same⟩
    cases member with
    | field => contradiction
    | method => cases same; exact declared
  · exact fun declared => ⟨_, declared, rfl⟩

/-- An analysis succeeds with the hierarchy of a valid program, and only if nothing was wrong
before. -/
theorem valid_of_accepted {earlier : List Diagnostic} {program : Program} {hierarchy : Hierarchy}
    (accepted : (analyzeAfter earlier program).outcome = .ok hierarchy) :
    program.Valid (analyzeAfter earlier program).program ∧ hierarchy = program.hierarchy := by
  obtain ⟨clean, same⟩ := outcome_eq_ok_iff.mp accepted
  obtain ⟨-, clean⟩ := List.append_eq_nil_iff.mp clean
  exact ⟨Program.valid_iff.mpr ⟨clean, rfl⟩, same.symm⟩

namespace Hierarchy
variable {program : Program}

theorem extends_hierarchy : program.hierarchy.Extends = (ofProgram program).1.Extends := by
  funext lower upper
  rw [Extends, Program.hierarchy, parentOf?_bindMembers, Extends]

theorem closed_hierarchy (program : Program) : program.hierarchy.Closed := by
  have size : program.hierarchy.size = (ofProgram program).1.size := size_mapNodes
  rw [Closed, extends_hierarchy, size]
  exact (rooted_ofProgram program).closed

theorem acyclic_hierarchy (program : Program) : program.hierarchy.Acyclic := by
  rw [Acyclic, Below, extends_hierarchy]
  exact acyclic_ofProgram program

theorem chained_hierarchy (program : Program) : program.hierarchy.Chained ClassNode.fields ∧
    program.hierarchy.Chained ClassNode.methods :=
  chained_bindMembers (sourced_ofProgram program)

theorem mem_names_hierarchy {name : String} (builtin : name ∈ builtinNames) :
    name ∈ program.hierarchy.names := by
  have names : program.hierarchy.names = (ofProgram program).1.names :=
    names_mapNodes fun _ _ => by dsimp only; split <;> rfl
  obtain ⟨rest, registered⟩ := names_registered program
  rw [names, names_ofProgram, registered]
  exact List.mem_append_left rest builtin

theorem isSome_idOf?_of_nameOf {hierarchy : Hierarchy} {id : ClassId} {name : String}
    (named : hierarchy.nameOf id = name) (known : name ≠ "") : (hierarchy.idOf? name).isSome := by
  unfold nameOf at named
  cases found : hierarchy.node? id with
  | none => simp [found, known.symm] at named
  | some node =>
    have named : node.name = name := by simpa [found] using named
    rw [isSome_idOf?, ← named]
    exact List.mem_map_of_mem (List.mem_of_getElem? found)

end Hierarchy

namespace Program
open Hierarchy
variable {program typed : Program} {decl : ClassDecl} {id lower upper : ClassId} {name : String}

inductive HasClass (program : Program) : ClassId → ClassDecl → Prop
  | builtin {id : ClassId} {node : ClassNode} {decl : ClassDecl}
      (found : builtins.node? id = some node) (origin : node.origin = .builtin decl) :
      HasClass program id decl
  | declared {id : ClassId} {decl : ClassDecl} (member : decl ∈ program.classes)
      (registered : program.hierarchy.idOf? decl.name = some id) : HasClass program id decl

theorem builtin_decl {node : ClassNode} (found : builtins.node? id = some node)
    (origin : node.origin = .builtin decl) : decl.fields = [] ∧
      ∀ method ∈ decl.methods, ∀ formal ∈ method.formals,
        formal.type ∈ [Ty.object, Ty.int, Ty.string] := by
  match id, found with
  | 0, found => cases found; cases origin; decide
  | 1, found => cases found; cases origin; decide
  | 2, found => cases found; cases origin; decide
  | 3, found => cases found; cases origin; decide
  | _ + 4, found => cases found

theorem builtin_overrides {node root : ClassNode} {inherited : ClassDecl}
    (found : builtins.node? id = some node) (origin : node.origin = .builtin decl)
    (foundRoot : builtins.node? 0 = some root) (originRoot : root.origin = .builtin inherited) :
    ∀ method ∈ decl.methods, ∀ other ∈ inherited.methods, method.name = other.name →
      (Signature.ofMethod method).sameTypes (.ofMethod other) := by
  cases foundRoot
  cases originRoot
  match id, found with
  | 0, found => cases found; cases origin; decide
  | 1, found => cases found; cases origin; decide
  | 2, found => cases found; cases origin; decide
  | 3, found => cases found; cases origin; decide
  | _ + 4, found => cases found

theorem isValueType_of_builtin {type : Ty} (builtin : type ∈ [Ty.object, Ty.int, Ty.string]) :
    type ≠ .void ∧ program.hierarchy.hasType type := by
  have known (name : String) (builtin : name ∈ builtinNames) :
      (program.hierarchy.idOf? name).isSome := (isSome_idOf? name).mpr (mem_names_hierarchy builtin)
  simp only [List.mem_cons, List.not_mem_nil, or_false] at builtin
  rcases builtin with rfl | rfl | rfl
  · exact ⟨by decide, by simp [hasType, isElement, known "Object" (by decide)]⟩
  · exact ⟨by decide, rfl⟩
  · exact ⟨by decide, by simp [hasType, isElement, known "String" (by decide)]⟩

theorem builtin_extends {node : ClassNode} (found : builtins.node? id = some node)
    (step : program.hierarchy.Extends id upper) : upper = 0 := by
  rw [extends_hierarchy, Extends, ofProgram_eq, parentOf?_rebuild] at step
  rcases extends_cutCycles (rooted_linked program) step with root | ⟨before, -⟩
  · exact root
  · have isNode : (registered program).node? id = some node := by
      obtain ⟨added, nodes, -⟩ := register_nodes builtins 0 program.classes
      rw [node?, registered, nodes]
      exact (List.getElem?_append_left (node?_lt found)).trans found
    obtain ⟨notDeclared, parent⟩ := parent_builtin found
    rw [Extends, linked, Hierarchy.link, parentOf?, node?_mapNodes, isNode, Option.map_some,
      Option.bind_some, notDeclared, Option.bind_none] at before
    rw [show node.parent = some upper from before] at parent
    split at parent
    · contradiction
    · exact Option.some.inj parent

namespace Valid
variable (valid : program.Valid typed)
include valid

theorem exists_class {node : ClassNode} (found : (ofProgram program).1.node? id = some node) :
    ∃ decl, node.origin.decl? program = some decl ∧ program.HasClass id decl := by
  have enrolls := valid.classes.enrolls
  rcases enrolls.node?_cases found with ⟨builtin, isBuiltin, same⟩ | ⟨index, decl, rfl, here, same⟩
  · obtain ⟨decl, origin, -⟩ := sourced_builtin isBuiltin
    have sameOrigin : builtin.origin = node.origin := congrArg Prod.snd same
    exact ⟨decl, by rw [← sameOrigin, origin]; rfl, .builtin isBuiltin origin⟩
  · have origin : node.origin = .declared index := congrArg Prod.snd same
    refine ⟨decl, by rw [origin]; exact here, ?_⟩
    exact .declared (List.mem_of_getElem? here) (enrolls.bindMembers.idOf?_declared here)

theorem declared_of_idOf? (known : (program.hierarchy.idOf? name).isSome) :
    name ∈ builtinNames ∨ ∃ decl ∈ program.classes, decl.name = name := by
  obtain ⟨node, member, rfl⟩ := List.mem_map.mp ((isSome_idOf? name).mp known)
  obtain ⟨id, found⟩ := List.mem_iff_getElem?.mp member
  rcases valid.classes.enrolls.bindMembers.node?_cases found with
    ⟨builtin, isBuiltin, same⟩ | ⟨index, decl, -, here, same⟩
  · have named : builtin.name = node.name := congrArg Prod.fst same
    exact .inl (named ▸ (builtin_extendable isBuiltin).1)
  · have named : node.name = decl.name := congrArg Prod.fst same
    exact .inr ⟨decl, List.mem_of_getElem? here, named.symm⟩

theorem exists_class_of_own {α : Type} {tables : ClassNode → SymbolTable α} {value : α}
    (found : program.hierarchy.own tables name id = some value) :
    ∃ node decl, (ofProgram program).1.node? id = some node ∧
      node.origin.decl? program = some decl ∧ program.HasClass id decl := by
  obtain ⟨bound, isBound, -⟩ := Option.bind_eq_some_iff.mp found
  have inside : id < (ofProgram program).1.size := by
    simpa [Program.hierarchy, Hierarchy.bindMembers] using node?_lt isBound
  obtain ⟨node, isNode⟩ := exists_node inside
  obtain ⟨decl, isDecl, isClass⟩ := valid.exists_class isNode
  exact ⟨node, decl, isNode, isDecl, isClass⟩

theorem own_field {type : Ty} (found : program.hierarchy.own ClassNode.fields name id = some type) :
    ∃ decl, program.HasClass id decl ∧
      ∃ field ∈ decl.fields, field.name = name ∧ field.type = type := by
  obtain ⟨node, decl, isNode, isDecl, isClass⟩ := valid.exists_class_of_own found
  rw [Program.hierarchy, own_fields_bindMembers isNode isDecl] at found
  split at found
  · contradiction
  · obtain ⟨field, isField, rfl⟩ := Option.map_eq_some_iff.mp found
    have named := List.find?_some isField
    exact ⟨decl, isClass, field, List.mem_of_find?_eq_some isField, beq_iff_eq.mp named, rfl⟩

theorem own_method {signature : Signature}
    (found : program.hierarchy.own ClassNode.methods name id = some signature) :
    ∃ decl, program.HasClass id decl ∧
      ∃ method ∈ decl.methods, method.name = name ∧ Signature.ofMethod method = signature := by
  obtain ⟨node, decl, isNode, isDecl, isClass⟩ := valid.exists_class_of_own found
  rw [Program.hierarchy, own_methods_bindMembers isNode isDecl] at found
  split at found
  · contradiction
  · obtain ⟨method, isMethod, rfl⟩ := Option.map_eq_some_iff.mp found
    have named := List.find?_some isMethod
    exact ⟨decl, isClass, method, List.mem_of_find?_eq_some isMethod, beq_iff_eq.mp named, rfl⟩

/-- The members of a class of the program have derivations. -/
theorem memberTyped {member : Member} (declared : decl ∈ program.classes)
    (registered : program.hierarchy.idOf? decl.name = some id) (isMember : member ∈ decl.members) :
    ∃ member', MemberTyped program.hierarchy id member member' := by
  obtain ⟨decl', -, derived⟩ := exists_of_mem_left valid.typed declared
  cases derived with
  | mk isClass members =>
    cases registered.symm.trans isClass
    obtain ⟨member', -, typed⟩ := exists_of_mem_left members isMember
    exact ⟨member', typed⟩

/-- Fields have types that values can have. -/
theorem isValueType_of_lookupField {type : Ty}
    (found : program.hierarchy.lookupField id name = some type) :
    type ≠ .void ∧ program.hierarchy.hasType type := by
  rw [lookupField_eq (closed_hierarchy program) (acyclic_hierarchy program)
    (chained_hierarchy program).1] at found
  obtain ⟨owner, -, found⟩ := List.exists_of_findSome?_eq_some found
  obtain ⟨decl, isClass, field, isField, -, rfl⟩ := valid.own_field found
  cases isClass with
  | builtin isBuiltin origin =>
    rw [(builtin_decl isBuiltin origin).1] at isField
    contradiction
  | declared member registered =>
    obtain ⟨member', typed⟩ := valid.memberTyped member registered (ClassDecl.mem_fields.mp isField)
    cases typed with
    | field isType => exact isType
    | initialized isType => exact isType

/-- The formals of methods have types that values can have. -/
theorem isValueType_of_lookupMethod {signature : Signature}
    (found : program.hierarchy.lookupMethod id name = some signature) :
    ∀ type ∈ signature.types, type ≠ .void ∧ program.hierarchy.hasType type := by
  rw [lookupMethod_eq (closed_hierarchy program) (acyclic_hierarchy program)
    (chained_hierarchy program).2] at found
  obtain ⟨owner, -, found⟩ := List.exists_of_findSome?_eq_some found
  obtain ⟨decl, isClass, method, isMethod, -, rfl⟩ := valid.own_method found
  have types : (Signature.ofMethod method).types = method.formals.map Formal.type := by
    simp [Signature.types, Signature.ofMethod]
  rw [types]
  intro type isType
  obtain ⟨formal, isFormal, rfl⟩ := List.mem_map.mp isType
  cases isClass with
  | builtin isBuiltin origin =>
    exact isValueType_of_builtin ((builtin_decl isBuiltin origin).2 method isMethod formal isFormal)
  | declared member registered =>
    obtain ⟨member', typed⟩ := valid.memberTyped member registered (ClassDecl.mem_methods.mp isMethod)
    cases typed with
    | method returns overrides formals checked => exact formals formal isFormal

end Valid

end Program

end Bantam
