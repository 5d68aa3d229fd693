import Bantam.Proofs.Hierarchy.MovedDeclarations
import Bantam.Proofs.Typing.Annotation

/-! Ignored classes. Where no built-in class and no earlier declaration has the name of a
declaration, it is registered, and otherwise reported and ignored. Without the ignored ones the
others are registered as before, under the same numbers; only their places have moved. -/
namespace Bantam

namespace Program

instance (program : Program) (index : Nat) (decl : ClassDecl) :
    Decidable (program.Ignores index decl) :=
  inferInstanceAs (Decidable (_ ∨ ∃ earlier ∈ program.classes.take index, _))

/-- The declarations that are not ignored, with their places. -/
def counted (program : Program) : List (ClassDecl × Nat) :=
  program.classes.zipIdx.filter fun (decl, index) => ¬ program.Ignores index decl

def ignored (program : Program) : List ClassDecl :=
  (program.classes.zipIdx.filter fun (decl, index) => program.Ignores index decl).map Prod.fst

def trimmed (program : Program) : Program := ⟨program.counted.map Prod.fst⟩

/-- The place of a declaration once those that are ignored are gone. -/
def trimmedPlace (program : Program) (index : Nat) : Nat :=
  (program.counted.map Prod.snd).idxOf index

end Program

namespace Hierarchy

/-- Registration goes on behind some declarations whose names are those of the classes that are
there, apart from the built-in ones. -/
theorem register_eq (hierarchy : Hierarchy) (before decls : List ClassDecl)
    (known : ∀ name, name ∈ hierarchy.names ↔
      name ∈ builtinNames ∨ ∃ earlier ∈ before, earlier.name = name) :
    hierarchy.register before.length decls =
      (⟨hierarchy.nodes ++ ((decls.zipIdx before.length).filter fun (decl, index) =>
          ¬ Program.Ignores ⟨before ++ decls⟩ index decl).map fun (decl, index) =>
            fresh index decl⟩,
        ((decls.zipIdx before.length).filter fun (decl, index) =>
          Program.Ignores ⟨before ++ decls⟩ index decl).map fun (decl, _) =>
            decl.diagnostic (.duplicateClass decl.name)) := by
  induction decls generalizing hierarchy before with
  | nil => simp [register]
  | cons decl rest ih =>
    have split : before ++ decl :: rest = (before ++ [decl]) ++ rest := by simp
    have length : before.length + 1 = (before ++ [decl]).length := by simp
    have ignores : Program.Ignores ⟨before ++ decl :: rest⟩ before.length decl ↔
        decl.name ∈ hierarchy.names := by
      rw [known, Program.Ignores, List.take_left]
    rw [register, List.zipIdx_cons, List.filter_cons, List.filter_cons]
    simp only [ignores, isSome_idOf?]
    split
    · next taken =>
      have known : ∀ name, name ∈ hierarchy.names ↔
          name ∈ builtinNames ∨ ∃ earlier ∈ before ++ [decl], earlier.name = name := by
        intro name
        simp only [List.mem_append, List.mem_singleton, or_and_right, exists_or,
          exists_eq_left, ← or_assoc, ← known]
        exact ⟨.inl, fun either => either.elim id fun same => same ▸ taken⟩
      rw [length, ih hierarchy (before ++ [decl]) known, ← split]
      simp [taken]
    · next free =>
      have known : ∀ name, name ∈ (hierarchy.insert (fresh before.length decl)).names ↔
          name ∈ builtinNames ∨ ∃ earlier ∈ before ++ [decl], earlier.name = name := by
        intro name
        rw [names_insert]
        simp only [List.mem_append, List.mem_singleton, or_and_right, exists_or,
          exists_eq_left, ← or_assoc, ← known]
        exact or_congr_right eq_comm
      have step := ih (hierarchy.insert (fresh before.length decl)) (before ++ [decl]) known
      rw [← length, ← split] at step
      refine step.trans ?_
      simp [free, insert]

variable {program : Program} {hierarchy : Hierarchy} {decl : ClassDecl} {index id : Nat}

theorem register_classes (program : Program) : builtins.register 0 program.classes =
    (⟨builtins.nodes ++ program.counted.map fun (decl, index) => fresh index decl⟩,
      program.ignored.map fun decl => decl.diagnostic (.duplicateClass decl.name)) := by
  have known : ∀ name, name ∈ builtins.names ↔
      name ∈ builtinNames ∨ ∃ earlier ∈ ([] : List ClassDecl), earlier.name = name := by
    simp [names_builtins, builtinNames]
  refine (register_eq builtins [] program.classes known).trans ?_
  rw [Program.counted, Program.ignored, List.map_map]
  rfl

theorem nodes_registered_counted (program : Program) : (registered program).nodes =
    builtins.nodes ++ program.counted.map fun (decl, index) => fresh index decl := by
  rw [registered, register_classes]

theorem names_registered_trimmed (program : Program) : (registered program).names =
    builtinNames ++ program.trimmed.classes.map ClassDecl.name := by
  rw [names, nodes_registered_counted, List.map_append, List.map_map, Program.trimmed, List.map_map]
  rfl

end Hierarchy

namespace Program
open Hierarchy
variable {program : Program} {decl : ClassDecl} {index place : Nat}

theorem mem_counted : (decl, index) ∈ program.counted ↔
    program.classes[index]? = some decl ∧ ¬ program.Ignores index decl := by
  rw [counted, List.mem_filter, List.mem_zipIdx_iff_getElem?, decide_eq_true_eq]

theorem distinct_names (program : Program) :
    (builtinNames ++ program.trimmed.classes.map ClassDecl.name).Nodup := by
  rw [← names_registered_trimmed]
  exact names_register_nodup (by decide) 0 program.classes

theorem not_ignores_trimmed (here : program.trimmed.classes[index]? = some decl) :
    ¬ program.trimmed.Ignores index decl := by
  obtain ⟨-, distinct, apart⟩ := List.nodup_append.mp program.distinct_names
  rintro (builtin | ⟨earlier, before, same⟩)
  · exact apart _ builtin _ (List.mem_map_of_mem (List.mem_of_getElem? here)) rfl
  · obtain ⟨place, inside, isEarlier⟩ := List.mem_take_iff_getElem.mp before
    have first : (program.trimmed.classes.map ClassDecl.name)[place]? = some decl.name := by
      rw [List.getElem?_map, List.getElem?_eq_getElem (by omega), isEarlier]
      exact congrArg some same
    have second : (program.trimmed.classes.map ClassDecl.name)[index]? = some decl.name := by
      rw [List.getElem?_map, here]
      rfl
    have equal := (List.getElem?_inj (List.getElem?_eq_some_iff.mp first).1 distinct).mp
      (first.trans second.symm)
    omega

theorem counted_trimmed (program : Program) :
    program.trimmed.counted = program.trimmed.classes.zipIdx := by
  rw [counted, List.filter_eq_self]
  rintro ⟨decl, index⟩ member
  exact decide_eq_true (not_ignores_trimmed (List.mem_zipIdx_iff_getElem?.mp member))

theorem ignored_trimmed (program : Program) : program.trimmed.ignored = [] := by
  rw [ignored, List.map_eq_nil_iff, List.filter_eq_nil_iff]
  rintro ⟨decl, index⟩ member ignores
  exact not_ignores_trimmed (List.mem_zipIdx_iff_getElem?.mp member) (of_decide_eq_true ignores)

theorem places_nodup (program : Program) : (program.counted.map Prod.snd).Nodup := by
  refine (List.Sublist.map Prod.snd List.filter_sublist).nodup ?_
  rw [List.zipIdx_map_snd]
  exact List.nodup_range' ..

theorem trimmedPlace_eq (found : program.counted[place]? = some (decl, index)) :
    program.trimmedPlace index = place := by
  have inside : (program.counted.map Prod.snd)[place]? = some index := by
    rw [List.getElem?_map, found]
    rfl
  obtain ⟨bound, rfl⟩ := List.getElem?_eq_some_iff.mp inside
  exact program.places_nodup.idxOf_getElem place bound

theorem classes_trimmed (member : (decl, index) ∈ program.counted) :
    program.trimmed.classes[program.trimmedPlace index]? = some decl := by
  obtain ⟨place, found⟩ := List.mem_iff_getElem?.mp member
  rw [trimmedPlace_eq found, trimmed, List.getElem?_map, found]
  rfl

end Program

namespace Hierarchy
variable {program : Program} {hierarchy : Hierarchy}

theorem registered_trimmed (program : Program) :
    registered program.trimmed = (registered program).move program.trimmedPlace := by
  have declared : program.trimmed.classes.zipIdx.map (fun (decl, index) => fresh index decl) =
      (program.counted.map fun (decl, index) => fresh index decl).map
        (ClassNode.move program.trimmedPlace) := by
    apply List.ext_getElem?
    intro place
    rw [Program.trimmed, List.getElem?_map, List.getElem?_zipIdx, List.getElem?_map,
      List.getElem?_map, List.getElem?_map]
    cases found : program.counted[place]? with
    | none => rfl
    | some entry =>
      show some (fresh (0 + place) entry.1) = some (fresh (program.trimmedPlace entry.2) entry.1)
      rw [Program.trimmedPlace_eq found, Nat.zero_add]
  have nodes : (registered program.trimmed).nodes =
      (registered program).nodes.map (ClassNode.move program.trimmedPlace) := by
    rw [nodes_registered_counted, nodes_registered_counted, Program.counted_trimmed, declared,
      List.map_append]
    rfl
  exact congrArg Hierarchy.mk nodes

theorem follows_registered (program : Program) :
    (registered program).Follows program.trimmedPlace program program.trimmed := by
  intro node member
  rw [nodes_registered_counted, List.mem_append, List.mem_map] at member
  rcases member with builtin | ⟨⟨decl, index⟩, counted, rfl⟩
  · obtain ⟨id, found⟩ := List.mem_iff_getElem?.mp builtin
    obtain ⟨decl, origin, -⟩ := sourced_builtin found
    exact ⟨decl, by rw [origin]; rfl, by rw [origin]; rfl⟩
  · exact ⟨decl, (Program.mem_counted.mp counted).1, Program.classes_trimmed counted⟩

theorem Enlists.follows (enlists : hierarchy.Enlists program) :
    hierarchy.Follows program.trimmedPlace program program.trimmed := by
  intro node member
  obtain ⟨old, isOld, -, origin⟩ := enlists.exists_registered member
  rw [← origin]
  exact follows_registered program old isOld

theorem linked_trimmed (program : Program) :
    linked program.trimmed = (linked program).move program.trimmedPlace := by
  rw [linked, registered_trimmed, enlists_registered.follows.link, linked]

theorem ofProgram_trimmed (program : Program) :
    (ofProgram program.trimmed).1 = (ofProgram program).1.move program.trimmedPlace := by
  rw [ofProgram_eq, ofProgram_eq, linked_trimmed, cutCycles_move, rebuild_move]

theorem hierarchy_trimmed (program : Program) :
    program.trimmed.hierarchy = program.hierarchy.move program.trimmedPlace := by
  have enlists : (ofProgram program).1.Enlists program := enlists_linked.cutCycles.rebuild
  rw [Program.hierarchy, ofProgram_trimmed, enlists.follows.bindMembers, Program.hierarchy]

/-- What is said of the declarations, apart from their types, is said of those that are not ignored:
the same, unless there is no class to start. Each ignored one is reported before that. -/
theorem declarationDiagnostics_trimmed (program : Program) :
    ∃ before start start' after,
      program.declarationDiagnostics =
        (program.ignored.map fun decl => decl.diagnostic (.duplicateClass decl.name)) ++
          before ++ start ++ after ∧
      program.trimmed.declarationDiagnostics = before ++ start' ++ after ∧
      (start' = start ∨
        start' = [missingMain program.trimmed] ∧ start = [missingMain program]) := by
  have enlists : (ofProgram program).1.Enlists program := enlists_linked.cutCycles.rebuild
  have parts (program : Program) : program.declarationDiagnostics =
      (program.ignored.map fun decl => decl.diagnostic (.duplicateClass decl.name)) ++
        (registered program).parentDiagnostics program ++
        (linked program).cycleDiagnostics program ++
        (ofProgram program).1.mainDiagnostics program ++
        (ofProgram program).1.memberDiagnostics program := by
    have duplicates : (builtins.register 0 program.classes).2 = _ :=
      congrArg Prod.snd (register_classes program)
    dsimp only at duplicates
    rw [← duplicates]
    rfl
  refine ⟨(registered program).parentDiagnostics program ++
    (linked program).cycleDiagnostics program, (ofProgram program).1.mainDiagnostics program,
    (ofProgram program.trimmed).1.mainDiagnostics program.trimmed,
    (ofProgram program).1.memberDiagnostics program, ?_, ?_, ?_⟩
  · rw [parts, ← List.append_assoc]
  · rw [parts, Program.ignored_trimmed, registered_trimmed, linked_trimmed, ofProgram_trimmed,
      enlists_registered.follows.parentDiagnostics, enlists_linked.follows.cycleDiagnostics,
      enlists.follows.memberDiagnostics]
    rfl
  · rw [ofProgram_trimmed]
    exact enlists.follows.mainDiagnostics

end Hierarchy

end Bantam
