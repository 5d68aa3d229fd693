import Bantam.Proofs.Hierarchy.DeclaredParents
import Bantam.Proofs.Hierarchy.IgnoredClasses
import Bantam.Proofs.Typing.DeclarationOrder
import Bantam.Proofs.Typing.SeparateChecking

/-! Ignored declarations. The classes of a program are checked in the order in which they are
numbered, and what is ignored has no number. So an analysis comes to the same without the ignored
declarations, but for the reports that say that they are ignored. -/
namespace Bantam

theorem flatMap_filter {α β : Type} {items : List α} {keeps : α → Bool} {collect : α → List β}
    (nothing : ∀ item ∈ items, keeps item = false → collect item = []) :
    (items.filter keeps).flatMap collect = items.flatMap collect := by
  induction items with
  | nil => rfl
  | cons item rest ih =>
    obtain ⟨first, others⟩ := List.forall_mem_cons.mp nothing
    rw [List.filter_cons, List.flatMap_cons, ← ih others]
    cases kept : keeps item with
    | true => rfl
    | false => rw [first kept]; rfl

namespace Hierarchy
variable {program : Program} {hierarchy : Hierarchy} {decl : ClassDecl} {index id : Nat}

theorem Enlists.declared_eq_counted (enlists : hierarchy.Enlists program) :
    hierarchy.declared program =
      (program.counted.zipIdx builtins.size).map fun ((decl, _), id) => (id, decl) := by
  have places (nodes : List ClassNode) : (nodes.zipIdx.filterMap fun entry =>
      (entry.1.origin.declared? program).map (entry.2, ·)) =
        (nodes.map ClassNode.origin).zipIdx.filterMap fun entry =>
          (entry.1.declared? program).map (entry.2, ·) := by
    rw [List.zipIdx_map, List.filterMap_map]
    rfl
  have builtin : builtins.nodes.zipIdx.filterMap (fun entry =>
      (entry.1.origin.declared? program).map (entry.2, ·)) = [] := rfl
  rw [declared_eq, places, enlists.origins, ← places, nodes_registered_counted,
    List.zipIdx_append, List.filterMap_append, builtin, List.nil_append, List.zipIdx_map,
    List.filterMap_map, ← List.filterMap_eq_map, Nat.zero_add]
  refine List.filterMap_congr ?_
  rintro ⟨⟨decl, index⟩, id⟩ member
  have here := (Program.mem_counted.mp (List.fst_mem_of_mem_zipIdx member)).1
  exact congrArg (Option.map _) here

theorem Enlists.idOfDecl?_counted (enlists : hierarchy.Enlists program)
    (member : ((decl, index), id) ∈ program.counted.zipIdx builtins.size) :
    hierarchy.idOfDecl? index = some id := by
  have origins (nodes : List ClassNode) : (nodes.findIdx? fun node =>
      node.origin.index? == some index) =
        (nodes.map ClassNode.origin).findIdx? fun origin => origin.index? == some index := by
    rw [List.findIdx?_map]
    rfl
  have builtin : builtins.nodes.findIdx? (fun node => node.origin.index? == some index) = none := by
    rfl
  obtain ⟨place, rfl, found⟩ : ∃ place, id = builtins.size + place ∧
      program.counted[place]? = some (decl, index) := by
    obtain ⟨above, below, same⟩ := List.mem_zipIdx member
    refine ⟨id - builtins.size, by omega, ?_⟩
    rw [same]
    exact List.getElem?_eq_getElem _
  have first : program.counted.findIdx? (fun entry => entry.2 == index) = some place := by
    obtain ⟨inside, here⟩ := List.getElem?_eq_some_iff.mp found
    rw [List.findIdx?_eq_some_iff_getElem]
    refine ⟨inside, beq_iff_eq.mpr (congrArg Prod.snd here), fun earlier before same => ?_⟩
    have equal : (program.counted.map Prod.snd)[earlier]? =
        (program.counted.map Prod.snd)[place]? := by
      rw [List.getElem?_map, List.getElem?_map, found,
        List.getElem?_eq_getElem (before.trans inside)]
      exact congrArg some (beq_iff_eq.mp same)
    have inside : earlier < (program.counted.map Prod.snd).length := by
      rw [List.length_map]
      omega
    have equal := (List.getElem?_inj inside program.places_nodup).mp equal
    omega
  have declared : (fun node : ClassNode => node.origin.index? == some index) ∘
      (fun (entry : ClassDecl × Nat) => fresh entry.2 entry.1) = fun entry => entry.2 == index := by
    funext entry
    exact Option.some_beq_some
  rw [idOfDecl?, origins, enlists.origins, ← origins, nodes_registered_counted,
    List.findIdx?_append, builtin, List.findIdx?_map]
  show (program.counted.findIdx? ((fun node : ClassNode => node.origin.index? == some index) ∘
    fun (entry : ClassDecl × Nat) => fresh entry.2 entry.1)).map (· + builtins.size) = _
  rw [declared, first, Option.map_some, Nat.add_comm]

/-- The types of what is ignored are not checked. -/
theorem typeDiagnostics_eq_counted (program : Program) :
    program.hierarchy.typeDiagnostics program = program.counted.flatMap fun (decl, index) =>
      program.hierarchy.declDiagnostics decl index := by
  rw [Program.counted, flatMap_filter]
  · rfl
  · rintro ⟨decl, index⟩ member ignored
    have ignored : program.Ignores index decl := by simpa using ignored
    have here := List.mem_zipIdx_iff_getElem?.mp member
    dsimp only [declDiagnostics]
    rw [(Program.idOfDecl?_eq_none_iff here).mpr ignored]

theorem typeDiagnostics_eq_declared (program : Program) :
    program.hierarchy.typeDiagnostics program =
      (program.hierarchy.declared program).flatMap fun (id, decl) =>
        program.hierarchy.classDiagnostics id decl := by
  have enlists := program.enlists_hierarchy
  rw [typeDiagnostics_eq_counted, enlists.declared_eq_counted, List.flatMap_map]
  conv_lhs => rw [← List.zipIdx_map_fst builtins.size program.counted, List.flatMap_map]
  refine List.flatMap_congr ?_
  rintro ⟨⟨decl, index⟩, id⟩ member
  dsimp only [declDiagnostics]
  rw [enlists.idOfDecl?_counted member]

def annotateDecl (hierarchy : Hierarchy) (index : Nat) (decl : ClassDecl) : ClassDecl :=
  (hierarchy.idOfDecl? index).elim decl (hierarchy.annotateClass · decl)

theorem name_annotateDecl : (hierarchy.annotateDecl index decl).name = decl.name := by
  unfold annotateDecl
  cases hierarchy.idOfDecl? index <;> rfl

theorem zipIdx_annotateProgram : (hierarchy.annotateProgram program).classes.zipIdx =
    program.classes.zipIdx.map fun (decl, index) => (hierarchy.annotateDecl index decl, index) := by
  apply List.ext_getElem?
  intro index
  rw [annotateProgram, List.getElem?_zipIdx, List.getElem?_mapIdx, List.getElem?_map,
    List.getElem?_zipIdx, Nat.zero_add]
  simp only [Option.map_map]
  congr 1
  funext decl
  simp only [Function.comp_apply, annotateDecl]
  cases hierarchy.idOfDecl? index <;> rfl

theorem names_annotated : (hierarchy.annotateProgram program).classes.map ClassDecl.name =
    program.classes.map ClassDecl.name := by
  have same := congrArg (fun program : Program => program.classes.map ClassDecl.name)
    (hierarchy.untyped_annotateProgram program)
  simp only [Program.mark, List.map_map] at same
  exact same

theorem counted_annotateProgram : (hierarchy.annotateProgram program).counted =
    program.counted.map fun (decl, index) => (hierarchy.annotateDecl index decl, index) := by
  have ignores (index : Nat) (decl : ClassDecl) :
      (hierarchy.annotateProgram program).Ignores index (hierarchy.annotateDecl index decl) ↔
        program.Ignores index decl := by
    have earlier (decls : List ClassDecl) : (∃ earlier ∈ decls.take index,
        earlier.name = decl.name) ↔ decl.name ∈ (decls.map ClassDecl.name).take index := by
      rw [← List.map_take, List.mem_map]
    rw [Program.Ignores, Program.Ignores, name_annotateDecl, earlier, earlier, names_annotated]
  rw [Program.counted, zipIdx_annotateProgram, List.filter_map, Program.counted]
  congr 2
  funext entry
  simp only [Function.comp_apply, ignores]

/-- Of the declarations with types, those that are not ignored have them from their classes. -/
theorem trimmed_annotateProgram (program : Program) :
    (program.hierarchy.annotateProgram program).trimmed.classes =
      (program.hierarchy.declared program).map fun (id, decl) =>
        program.hierarchy.annotateClass id decl := by
  have enlists := program.enlists_hierarchy
  rw [Program.trimmed, counted_annotateProgram, List.map_map, enlists.declared_eq_counted,
    List.map_map]
  conv_lhs => rw [← List.zipIdx_map_fst builtins.size program.counted, List.map_map]
  refine List.map_congr_left ?_
  rintro ⟨⟨decl, index⟩, id⟩ member
  simp only [Function.comp_apply, annotateDecl, enlists.idOfDecl?_counted member, Option.elim_some]

section Trimmed
variable (program : Program)

theorem alike_trimmed :
    Alike program program.trimmed program.hierarchy program.trimmed.hierarchy := by
  have enlists := program.enlists_hierarchy
  rw [hierarchy_trimmed]
  exact enlists.follows.alike enlists.names_nodup (closed_hierarchy program)
    (chained_hierarchy program).1 (chained_hierarchy program).2

theorem twin_trimmed (member : (id, decl) ∈ program.hierarchy.declared program) :
    Twin program.hierarchy program.trimmed.hierarchy id id := by
  obtain ⟨node, found, -⟩ := mem_declared_iff.mp member
  rw [hierarchy_trimmed]
  exact twin_move (node?_lt found)

theorem declared_trimmed : program.trimmed.hierarchy.declared program.trimmed =
    program.hierarchy.declared program := by
  rw [hierarchy_trimmed]
  exact program.enlists_hierarchy.follows.declared

theorem typeDiagnostics_trimmed : program.trimmed.hierarchy.typeDiagnostics program.trimmed =
    program.hierarchy.typeDiagnostics program := by
  rw [typeDiagnostics_eq_declared, typeDiagnostics_eq_declared, declared_trimmed]
  refine List.flatMap_congr ?_
  rintro ⟨id, decl⟩ member
  exact ((alike_trimmed program).classDiagnostics (twin_trimmed program member) decl).symm

theorem annotateProgram_trimmed : program.trimmed.hierarchy.annotateProgram program.trimmed =
    (program.hierarchy.annotateProgram program).trimmed := by
  have whole : (program.trimmed.hierarchy.annotateProgram program.trimmed).trimmed =
      program.trimmed.hierarchy.annotateProgram program.trimmed := by
    rw [Program.trimmed, counted_annotateProgram, Program.counted_trimmed,
      ← zipIdx_annotateProgram, List.zipIdx_map_fst]
  have classes : (program.trimmed.hierarchy.annotateProgram program.trimmed).trimmed.classes =
      (program.hierarchy.annotateProgram program).trimmed.classes := by
    rw [trimmed_annotateProgram, trimmed_annotateProgram, declared_trimmed]
    refine List.map_congr_left ?_
    rintro ⟨id, decl⟩ member
    exact ((alike_trimmed program).annotateClass (twin_trimmed program member) decl).symm
  rw [← whole]
  exact congrArg Program.mk classes

end Trimmed

end Hierarchy

open Hierarchy

/-- Declarations that are ignored do nothing but be reported. Without them an analysis builds the
same hierarchy, class by class under the same numbers and with the same parents, children, counts
and members, in which nothing has changed but the places of declarations. It gives all other
declarations the same types, and reports the same, except that no ignored declaration is reported
any more and that, if there is no class to start, this may be said of another file. -/
theorem ignored_classes_inert (program : Program) (earlier : List Diagnostic) :
    let whole := analyzeAfter earlier program
    let trimmed := analyzeAfter earlier program.trimmed
    trimmed.hierarchy = whole.hierarchy.move program.trimmedPlace ∧
      trimmed.program = whole.program.trimmed ∧
      ∃ before start start' after,
        whole.diagnostics = earlier ++
          (program.ignored.map fun decl => decl.diagnostic (.duplicateClass decl.name)) ++
            before ++ start ++ after ∧
        trimmed.diagnostics = earlier ++ before ++ start' ++ after ∧
        (start' = start ∨
          start' = [missingMain program.trimmed] ∧ start = [missingMain program]) := by
  intro whole trimmed
  refine ⟨hierarchy_trimmed program, annotateProgram_trimmed program, ?_⟩
  have diagnostics (program : Program) : (analyzeAfter earlier program).diagnostics =
      earlier ++ (program.declarationDiagnostics ++
        program.hierarchy.typeDiagnostics program) := rfl
  obtain ⟨before, start, start', after, declarations, declarations', main⟩ :=
    declarationDiagnostics_trimmed program
  refine ⟨before, start, start', after ++ program.hierarchy.typeDiagnostics program, ?_, ?_, main⟩
  · rw [diagnostics, declarations]
    simp only [List.append_assoc]
  · rw [diagnostics, declarations', typeDiagnostics_trimmed]
    simp only [List.append_assoc]

end Bantam
