import Bantam.Proofs.Hierarchy.Interface
import Bantam.Proofs.Typing.Validity

/-! Separate checking. Other classes see no more of a class than its interface: with the bodies and
the initial values of one class exchanged for others, the hierarchy stays as it is, and so does all
that is found out about the other classes. -/
namespace Bantam

namespace Program

variable {program other : Program}

theorem hierarchy_interface : program.interface.hierarchy = program.hierarchy := by
  rw [hierarchy, Hierarchy.ofProgram_interface, Hierarchy.bindMembers_interface, hierarchy]

theorem hierarchy_congr (same : program.interface = other.interface) :
    program.hierarchy = other.hierarchy := by
  rw [← hierarchy_interface, same, hierarchy_interface]

theorem declarationDiagnostics_congr (same : program.interface = other.interface) :
    program.declarationDiagnostics = other.declarationDiagnostics := by
  rw [← declarationDiagnostics_interface, same, declarationDiagnostics_interface]

end Program

namespace Hierarchy

variable {hierarchy : Hierarchy} {before after : List ClassDecl} {decl changed : ClassDecl}

def declDiagnostics (hierarchy : Hierarchy) (decl : ClassDecl) (index : Nat) : List Diagnostic :=
  match hierarchy.idOfDecl? index with
  | none => []
  | some id => hierarchy.classDiagnostics id decl

/-- Declarations are checked one after the other, each on its own. -/
theorem typeDiagnostics_split : hierarchy.typeDiagnostics ⟨before ++ decl :: after⟩ =
    before.zipIdx.flatMap hierarchy.declDiagnostics.uncurry ++
      hierarchy.declDiagnostics decl before.length ++
      (after.zipIdx (before.length + 1)).flatMap hierarchy.declDiagnostics.uncurry := by
  rw [typeDiagnostics, List.zipIdx_append, List.zipIdx_cons, List.flatMap_append,
    List.flatMap_cons, Nat.zero_add, List.append_assoc]
  rfl

theorem annotateProgram_replace {place : Nat} (elsewhere : place ≠ before.length) :
    (hierarchy.annotateProgram ⟨before ++ decl :: after⟩).classes[place]? =
      (hierarchy.annotateProgram ⟨before ++ changed :: after⟩).classes[place]? := by
  have same : (before ++ decl :: after)[place]? = (before ++ changed :: after)[place]? := by
    rcases Nat.lt_or_gt_of_ne elsewhere with earlier | later
    · rw [List.getElem?_append_left earlier, List.getElem?_append_left earlier]
    · obtain ⟨distance, rfl⟩ := Nat.exists_eq_add_of_lt later
      rw [Nat.add_assoc, List.getElem?_append_right (Nat.le_add_right ..),
        List.getElem?_append_right (Nat.le_add_right ..), Nat.add_sub_cancel_left]
      rfl
  rw [annotateProgram, annotateProgram, List.getElem?_mapIdx, List.getElem?_mapIdx, same]

end Hierarchy

/-- Programs that differ in the bodies and the initial values of one class alone have the same
hierarchy, the same diagnostics but for those of the types of that class, and the same types in all
other classes. -/
theorem bodies_checked_separately (before after : List ClassDecl) {decl changed : ClassDecl}
    (same : decl.interface = changed.interface) (earlier : List Diagnostic) :
    let first := analyzeAfter earlier ⟨before ++ decl :: after⟩
    let second := analyzeAfter earlier ⟨before ++ changed :: after⟩
    first.hierarchy = second.hierarchy ∧
      (∃ front back,
        first.diagnostics =
          front ++ first.hierarchy.declDiagnostics decl before.length ++ back ∧
        second.diagnostics =
          front ++ second.hierarchy.declDiagnostics changed before.length ++ back) ∧
      ∀ place, place ≠ before.length →
        first.program.classes[place]? = second.program.classes[place]? := by
  intro first second
  have interfaces : Program.interface ⟨before ++ decl :: after⟩ =
      Program.interface ⟨before ++ changed :: after⟩ := by
    simp only [Program.interface, List.map_append, List.map_cons, same]
  have hierarchies : first.hierarchy = second.hierarchy := Program.hierarchy_congr interfaces
  refine ⟨hierarchies, ⟨earlier ++ Program.declarationDiagnostics ⟨before ++ decl :: after⟩ ++
      before.zipIdx.flatMap first.hierarchy.declDiagnostics.uncurry,
    (after.zipIdx (before.length + 1)).flatMap first.hierarchy.declDiagnostics.uncurry,
    ?_, ?_⟩, fun place elsewhere => ?_⟩
  · show earlier ++ (Program.declarationDiagnostics _ ++ first.hierarchy.typeDiagnostics _) = _
    rw [Hierarchy.typeDiagnostics_split]
    simp only [List.append_assoc]
  · show earlier ++ (Program.declarationDiagnostics _ ++ second.hierarchy.typeDiagnostics _) = _
    rw [Program.declarationDiagnostics_congr interfaces, ← hierarchies,
      Hierarchy.typeDiagnostics_split]
    simp only [List.append_assoc]
  · show (first.hierarchy.annotateProgram _).classes[place]? =
      (second.hierarchy.annotateProgram _).classes[place]?
    rw [hierarchies, Hierarchy.annotateProgram_replace elsewhere]

-- A class with a method that is called from another class.
def counter (init : Option Expr) (value : Expr) : ClassDecl :=
  ⟨"Counter", none, [.field ⟨.int, "count", init, default⟩,
    .method ⟨.int, "next", [], [.giveBack default (some value)], default⟩], "Counter.btm", default⟩

def counting (counter : ClassDecl) : Program :=
  ⟨[counter, ⟨"Main", some "Counter", [.method ⟨.void, "main", [],
    [.expr default (.call ⟨default, none⟩ none "next" [])], default⟩], "Main.btm", default⟩]⟩

def counterByOne : ClassDecl := counter (some (.int ⟨default, none⟩ 0)) (.int ⟨default, none⟩ 1)

def counterByTruth : ClassDecl := counter none (.bool ⟨default, none⟩ true)

theorem bodies_checked_separately_counter :
    counterByOne.interface = counterByTruth.interface ∧
      (analyzeAfter [] (counting counterByOne)).hierarchy =
        (analyzeAfter [] (counting counterByTruth)).hierarchy ∧
      (analyzeAfter [] (counting counterByOne)).program.classes[1]? =
        (analyzeAfter [] (counting counterByTruth)).program.classes[1]? ∧
      (analyzeAfter [] (counting counterByOne)).diagnostics = [] ∧
      (analyzeAfter [] (counting counterByTruth)).diagnostics =
        [⟨.semantic, "Counter.btm", default,
          "return type 'boolean' is not compatible with declared type 'int'"⟩] := by
  have same : counterByOne.interface = counterByTruth.interface := rfl
  obtain ⟨hierarchies, -, elsewhere⟩ :=
    bodies_checked_separately [] (counting counterByOne).classes.tail same []
  exact ⟨same, hierarchies, elsewhere 1 (by decide), by rfl, by decide +kernel⟩

end Bantam
