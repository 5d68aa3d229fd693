import Bantam.Proofs.Hierarchy.Reordering
import Bantam.Proofs.Typing.SamePlace
import Bantam.Proofs.Typing.Validity

/-! Declaration order. Classes may be used before they are declared: where class names are distinct,
an analysis finds the same for every order of the declarations. -/
namespace Bantam

namespace Hierarchy

def parentNameOf? (hierarchy : Hierarchy) (className : String) : Option String :=
  (hierarchy.idOf? className).bind fun id => (hierarchy.parentOf? id).map hierarchy.nameOf

def fieldOf? (hierarchy : Hierarchy) (className name : String) : Option Ty :=
  (hierarchy.idOf? className).bind (hierarchy.lookupField · name)

def methodOf? (hierarchy : Hierarchy) (className name : String) : Option Signature :=
  (hierarchy.idOf? className).bind (hierarchy.lookupMethod · name)

namespace Alike
variable {program other : Program} {left right : Hierarchy}
  (alike : Alike program other left right)
include alike

theorem parentNameOf? (className : String) :
    left.parentNameOf? className = right.parentNameOf? className :=
  bind_eq_of_rel (alike.idOf? className) fun twin =>
    map_eq_of_rel (alike.parentOf? twin) Twin.nameOf

theorem fieldOf? (className name : String) :
    left.fieldOf? className name = right.fieldOf? className name :=
  bind_eq_of_rel (alike.idOf? className) fun twin => alike.lookupField twin name

theorem methodOf? (className name : String) :
    left.methodOf? className name = right.methodOf? className name :=
  bind_eq_of_rel (alike.idOf? className) fun twin => alike.lookupMethod twin name

end Alike

namespace Enlists
variable {program : Program} {hierarchy : Hierarchy} (enlists : hierarchy.Enlists program)
  (distinct : (program.classes.map ClassDecl.name).Nodup)
include enlists distinct

/-- Each declaration is checked in the class of its name. -/
theorem typeDiagnostics_eq : hierarchy.typeDiagnostics program = program.classes.flatMap fun decl =>
    ((hierarchy.idOfClass? decl).map (hierarchy.classDiagnostics · decl)).getD [] := by
  conv_rhs => rw [← List.zipIdx_map_fst 0 program.classes, List.flatMap_map]
  refine List.flatMap_congr ?_
  rintro ⟨decl, index⟩ member
  dsimp only
  rw [enlists.idOfDecl?_eq distinct (List.mem_zipIdx_iff_getElem?.mp member)]
  cases hierarchy.idOfClass? decl <;> rfl

theorem annotateProgram_eq : (hierarchy.annotateProgram program).classes =
    program.classes.map fun decl =>
      ((hierarchy.idOfClass? decl).map (hierarchy.annotateClass · decl)).getD decl := by
  apply List.ext_getElem?
  intro index
  rw [annotateProgram, List.getElem?_mapIdx, List.getElem?_map]
  cases here : program.classes[index]? with
  | none => rfl
  | some decl =>
    rw [Option.map_some, Option.map_some, enlists.idOfDecl?_eq distinct here]
    cases hierarchy.idOfClass? decl <;> rfl

theorem names_annotateProgram : (hierarchy.annotateProgram program).classes.map ClassDecl.name =
    program.classes.map ClassDecl.name := by
  rw [enlists.annotateProgram_eq distinct, List.map_map]
  congr 1
  funext decl
  rw [Function.comp_apply]
  cases hierarchy.idOfClass? decl <;> rfl

end Enlists

section Reordered
variable {program permuted : Program} {left right : Hierarchy}
  (distinct : (program.classes.map ClassDecl.name).Nodup)
  (reordered : program.classes.Perm permuted.classes)
  (enlists : left.Enlists program) (enlists' : right.Enlists permuted)
  (alike : Alike program permuted left right)
include distinct reordered enlists enlists' alike

theorem perm_typeDiagnostics :
    (left.typeDiagnostics program).Perm (right.typeDiagnostics permuted) := by
  rw [enlists.typeDiagnostics_eq distinct,
    enlists'.typeDiagnostics_eq (distinct_permuted distinct reordered)]
  have each (decl : ClassDecl) : (left.idOfClass? decl).map (left.classDiagnostics · decl) =
      (right.idOfClass? decl).map (right.classDiagnostics · decl) :=
    map_eq_of_rel (alike.idOfClass? decl) fun twin => alike.classDiagnostics twin decl
  simp only [each]
  exact reordered.flatMap_right _

theorem perm_annotateProgram :
    (left.annotateProgram program).classes.Perm (right.annotateProgram permuted).classes := by
  rw [enlists.annotateProgram_eq distinct,
    enlists'.annotateProgram_eq (distinct_permuted distinct reordered)]
  have each (decl : ClassDecl) : (left.idOfClass? decl).map (left.annotateClass · decl) =
      (right.idOfClass? decl).map (right.annotateClass · decl) :=
    map_eq_of_rel (alike.idOfClass? decl) fun twin => alike.annotateClass twin decl
  simp only [each]
  exact reordered.map _

end Reordered

end Hierarchy

open Hierarchy

theorem Program.enlists_hierarchy (program : Program) : program.hierarchy.Enlists program :=
  enlists_linked.cutCycles.rebuild.bindMembers

theorem alike_hierarchy {program permuted : Program}
    (distinct : (program.classes.map ClassDecl.name).Nodup)
    (reordered : program.classes.Perm permuted.classes) :
    Alike program permuted program.hierarchy permuted.hierarchy :=
  (alike_ofProgram distinct reordered).bindMembers

/-- An analysis reports the same for both orders but for the class to start. -/
theorem perm_diagnostics {program permuted : Program}
    (distinct : (program.classes.map ClassDecl.name).Nodup)
    (reordered : program.classes.Perm permuted.classes) (earlier : List Diagnostic) :
    ∃ others, (analyzeAfter earlier program).diagnostics.Perm (starting program ++ others) ∧
      (analyzeAfter earlier permuted).diagnostics.Perm (starting permuted ++ others) := by
  obtain ⟨others, declarations, declarations'⟩ := perm_declarationDiagnostics distinct reordered
  have types := perm_typeDiagnostics distinct reordered program.enlists_hierarchy
    permuted.enlists_hierarchy (alike_hierarchy distinct reordered)
  have diagnostics (program : Program) : (analyzeAfter earlier program).diagnostics =
      earlier ++ (program.declarationDiagnostics ++
        program.hierarchy.typeDiagnostics program) := rfl
  refine ⟨earlier ++ (others ++ program.hierarchy.typeDiagnostics program), ?_, ?_⟩
  · rw [diagnostics, List.perm_iff_count]
    intro diagnostic
    have count := declarations.count_eq diagnostic
    simp only [List.count_append] at count ⊢
    omega
  · rw [diagnostics, List.perm_iff_count]
    intro diagnostic
    have count := declarations'.count_eq diagnostic
    have count' := types.count_eq diagnostic
    simp only [List.count_append] at count ⊢
    omega

/-- Where class names are distinct, every order of the declarations gives the same classes with the
same parents and members, the same types and, in some order, the same diagnostics. One of them may
have another file: that there is no class to start is reported in the file of the first one. -/
theorem declaration_order_irrelevant (program permuted : Program)
    (distinct : (program.classes.map ClassDecl.name).Nodup)
    (reordered : program.classes.Perm permuted.classes) (earlier : List Diagnostic) :
    let first := analyzeAfter earlier program
    let second := analyzeAfter earlier permuted
    first.hierarchy.names.Perm second.hierarchy.names ∧
      (∀ className, first.hierarchy.parentNameOf? className =
        second.hierarchy.parentNameOf? className) ∧
      (∀ className name, first.hierarchy.fieldOf? className name =
        second.hierarchy.fieldOf? className name) ∧
      (∀ className name, first.hierarchy.methodOf? className name =
        second.hierarchy.methodOf? className name) ∧
      (∀ className, first.program.findClass? className = second.program.findClass? className) ∧
      (first.diagnostics.Perm second.diagnostics ∨
        program.findClass? mainClass = none ∧
          ∃ others, first.diagnostics.Perm (missingMain program :: others) ∧
            second.diagnostics.Perm (missingMain permuted :: others)) := by
  intro first second
  have enlists := program.enlists_hierarchy
  have enlists' := permuted.enlists_hierarchy
  have alike := alike_hierarchy distinct reordered
  refine ⟨alike.names, alike.parentNameOf?, alike.fieldOf?, alike.methodOf?, fun className => ?_,
    ?_⟩
  · apply findClass?_permuted
    · show ((program.hierarchy.annotateProgram program).classes.map ClassDecl.name).Nodup
      rw [enlists.names_annotateProgram distinct]
      exact distinct
    · exact perm_annotateProgram distinct reordered enlists enlists' alike
  · obtain ⟨others, diagnostics, diagnostics'⟩ := perm_diagnostics distinct reordered earlier
    rcases starting_permuted distinct reordered with same | ⟨missing, alone, alone'⟩
    · rw [same] at diagnostics
      exact .inl (diagnostics.trans diagnostics'.symm)
    · rw [alone] at diagnostics
      rw [alone'] at diagnostics'
      exact .inr ⟨missing, others, diagnostics, diagnostics'⟩

/-- Two classes on a cycle, and a third one below them that is used before it is declared. None of
them starts the program. -/
def tangled : List ClassDecl := [
  ⟨"A", some "B", [.field ⟨.named "C", "own", some (.new ⟨default, none⟩ "C"), default⟩], "A.btm",
    default⟩,
  ⟨"B", some "A", [], "B.btm", default⟩,
  ⟨"C", some "B", [.method ⟨.int, "get", [],
    [.giveBack default (some (.bool ⟨default, none⟩ true))], default⟩], "C.btm", default⟩]

theorem declaration_order_irrelevant_reversed :
    (tangled.map ClassDecl.name).Nodup ∧ tangled.Perm tangled.reverse ∧
      missingMain ⟨tangled⟩ ≠ missingMain ⟨tangled.reverse⟩ ∧
      (analyzeAfter [] ⟨tangled⟩).diagnostics.length = 4 ∧
      (analyzeAfter [] ⟨tangled⟩).hierarchy.parentNameOf? "C" =
        (analyzeAfter [] ⟨tangled.reverse⟩).hierarchy.parentNameOf? "C" ∧
      (analyzeAfter [] ⟨tangled⟩).program.findClass? "C" =
        (analyzeAfter [] ⟨tangled.reverse⟩).program.findClass? "C" ∧
      ((analyzeAfter [] ⟨tangled⟩).diagnostics.Perm
          (analyzeAfter [] ⟨tangled.reverse⟩).diagnostics ∨
        Program.findClass? ⟨tangled⟩ mainClass = none ∧
          ∃ others,
            (analyzeAfter [] ⟨tangled⟩).diagnostics.Perm (missingMain ⟨tangled⟩ :: others) ∧
            (analyzeAfter [] ⟨tangled.reverse⟩).diagnostics.Perm
              (missingMain ⟨tangled.reverse⟩ :: others)) := by
  have distinct : (tangled.map ClassDecl.name).Nodup := by decide
  have reordered : tangled.Perm tangled.reverse := tangled.reverse_perm.symm
  obtain ⟨-, parents, -, -, classes, diagnostics⟩ := declaration_order_irrelevant
    ⟨tangled⟩ ⟨tangled.reverse⟩ distinct reordered []
  exact ⟨distinct, reordered, by decide, by decide +kernel, parents "C", classes "C", diagnostics⟩

end Bantam
