import Bantam.Proofs.Typing.KnownTypes

/-! Analysing a program again. Main statement: a second analysis finds what the first one found, and
writes what is written already. Diagnostics are only ever added to. -/
namespace Bantam

/-- Analyses a program a number of times. Each analysis is of the program that the one before left,
on top of the diagnostics that it left. -/
def reanalyze (earlier : List Diagnostic) (program : Program) : Nat → List Analysis
  | 0 => []
  | times + 1 =>
    let first := analyzeAfter earlier program
    first :: reanalyze first.diagnostics first.program times

def standing (earlier : List Diagnostic) (analyses : List Analysis) : List Diagnostic :=
  (analyses.getLast?.map Analysis.diagnostics).getD earlier

theorem standing_cons (earlier : List Diagnostic) (first : Analysis) (others : List Analysis) :
    standing earlier (first :: others) = standing first.diagnostics others := by
  cases others with
  | nil => rfl
  | cons second others =>
    rw [standing, List.getLast?_cons_cons]
    cases last : (second :: others).getLast? with
    | none => exact absurd (List.getLast?_eq_none_iff.1 last) (List.cons_ne_nil second others)
    | some analysis => rw [standing, last]; rfl

namespace Analysis

def found (analysis : Analysis) (times : Nat) : List Diagnostic :=
  (List.replicate times analysis.diagnostics).flatten

variable (analysis : Analysis)

theorem found_one : analysis.found 1 = analysis.diagnostics :=
  List.append_nil analysis.diagnostics

theorem found_succ (times : Nat) :
    analysis.found (times + 1) = analysis.diagnostics ++ analysis.found times := by
  rw [found, List.replicate_succ, List.flatten_cons, found]

theorem length_found (times : Nat) :
    (analysis.found times).length = times * analysis.diagnostics.length := by
  rw [found, List.length_flatten, List.map_replicate, List.sum_replicate_nat]

theorem outcome_eq :
    analysis.outcome =
      if analysis.diagnostics = [] then .ok analysis.hierarchy
      else .error ⟨analysis.diagnostics.length⟩ := by
  simp only [outcome, List.isEmpty_iff]

end Analysis

section
variable (program : Program)

/-- The types that an analysis writes stand in no way of the next one. -/
theorem analyze_analyze : analyze (analyze program).program = analyze program := by
  have same : (analyze program).program.mark .untyped = program.mark .untyped :=
    Hierarchy.untyped_annotateProgram program.hierarchy program
  obtain ⟨hierarchies, diagnostics⟩ := analyze_congr same
  have programs : (analyze (analyze program).program).program = (analyze program).program := by
    show (analyze (analyze program).program).hierarchy.annotateProgram (analyze program).program =
      (analyze program).program
    rw [hierarchies]
    exact Hierarchy.annotateProgram_annotateProgram program.hierarchy program
  cases again : analyze (analyze program).program
  simp only [again] at programs hierarchies diagnostics
  rw [programs, hierarchies, diagnostics]

theorem analyzeAfter_analyzeAfter (earlier before : List Diagnostic) :
    analyzeAfter before (analyzeAfter earlier program).program = analyzeAfter before program := by
  simp only [analyzeAfter, analyze_analyze]

theorem reanalyze_program (earlier before : List Diagnostic) (times : Nat) :
    reanalyze before (analyzeAfter earlier program).program times =
      reanalyze before program times := by
  cases times with
  | zero => rfl
  | succ times => simp only [reanalyze, analyzeAfter_analyzeAfter]

theorem reanalyze_eq (earlier : List Diagnostic) (times : Nat) :
    reanalyze earlier program times = (List.range times).map fun call =>
      { analyze program with diagnostics := earlier ++ (analyze program).found (call + 1) } := by
  induction times generalizing earlier with
  | zero => rfl
  | succ times ih =>
    rw [reanalyze, reanalyze_program, ih, List.range_succ_eq_map, List.map_cons, List.map_map]
    congr 1
    · rw [Nat.zero_add, Analysis.found_one, analyzeAfter]
    · congr 1
      funext call
      simp only [Function.comp_apply, analyzeAfter, Analysis.found_succ _ (call + 1),
        List.append_assoc]

theorem standing_reanalyze (earlier : List Diagnostic) (times : Nat) :
    standing earlier (reanalyze earlier program times) =
      earlier ++ (analyze program).found times := by
  induction times generalizing earlier with
  | zero => exact (List.append_nil earlier).symm
  | succ times ih =>
    rw [reanalyze, standing_cons, reanalyze_program, ih, analyzeAfter, Analysis.found_succ,
      List.append_assoc]

end

/-- Every analysis of a program adds what the first one found, whatever stood before; it succeeds
as long as there is nothing, and otherwise fails with the number of all that stands. The hierarchy
is always that of the first, and the program stays as the first one left it. -/
theorem reanalysis (earlier : List Diagnostic) (program : Program) (times : Nat) :
    let first := analyzeAfter [] program
    standing earlier (reanalyze earlier program times) = earlier ++ first.found times ∧
      reanalyze earlier program times = (List.range times).map (fun call =>
        ⟨first.program, first.hierarchy, earlier ++ first.found (call + 1)⟩) ∧
      (reanalyze earlier program times).map Analysis.outcome = (List.range times).map (fun call =>
        if earlier ++ first.found (call + 1) = [] then .ok first.hierarchy
        else .error ⟨earlier.length + (call + 1) * first.diagnostics.length⟩) ∧
      ∀ before, (analyzeAfter before first.program).program = first.program := by
  have calls := reanalyze_eq program earlier times
  refine ⟨standing_reanalyze program earlier times, calls, ?_, fun before => ?_⟩
  · rw [calls, List.map_map]
    congr 1
    funext call
    simp only [Function.comp_apply, Analysis.outcome_eq, List.length_append,
      Analysis.length_found]
    rfl
  · rw [analyzeAfter_analyzeAfter]
    rfl

end Bantam
