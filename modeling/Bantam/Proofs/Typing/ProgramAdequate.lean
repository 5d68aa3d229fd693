import Bantam.Proofs.Typing.ClassAdequate
import Bantam.Proofs.Typing.MemberAdequate

/-! Whole programs. An analysis reports nothing if and only if the program is valid, and then it has
found the types that the rules derive. -/
namespace Bantam
open Typing

namespace Hierarchy
variable {hierarchy : Hierarchy} {program : Program} {decl : ClassDecl}

theorem builtin_members {id : ClassId} {node : ClassNode} (found : builtins.node? id = some node)
    (isDecl : node.origin.decl? program = some decl) : (MemberTables.ofClass decl).issues = [] := by
  match id, found with
  | 0, found => cases found; cases isDecl; rfl
  | 1, found => cases found; cases isDecl; rfl
  | 2, found => cases found; cases isDecl; rfl
  | 3, found => cases found; cases isDecl; rfl
  | _ + 4, found => cases found

/-- The number of the class that a declaration stands for by its name. -/
def numberOf (hierarchy : Hierarchy) (decl : ClassDecl) : ClassId :=
  (hierarchy.idOf? decl.name).getD 0

namespace Enrolls
variable (enrolls : hierarchy.Enrolls program)
include enrolls

theorem memberDiagnostics_eq_nil : hierarchy.memberDiagnostics program = [] ↔
    ∀ decl ∈ program.classes, decl.ProperMembers := by
  simp only [memberDiagnostics, List.flatMap_eq_nil_iff, List.map_eq_nil_iff, List.mem_filterMap]
  constructor
  · intro clean decl member
    obtain ⟨id, node, found, -, isDecl⟩ := enrolls.node?_of_name member
    have issues := clean decl ⟨node, List.mem_of_getElem? found, isDecl⟩
    exact (MemberTables.ofClass_issues decl).mp issues
  · rintro proper decl ⟨node, member, isDecl⟩
    obtain ⟨id, found⟩ := List.mem_iff_getElem?.mp member
    rcases enrolls.node?_cases found with ⟨_, isBuiltin, same⟩ | ⟨index, other, rfl, here, same⟩
    · have origin := congrArg Prod.snd same
      dsimp only [ClassNode.label] at origin
      rw [← origin] at isDecl
      exact builtin_members isBuiltin isDecl
    · have origin : node.origin = .declared index := congrArg Prod.snd same
      rw [origin] at isDecl
      have member := List.mem_of_getElem? isDecl
      exact (MemberTables.ofClass_issues decl).mpr (proper decl member)

theorem bindMembers : (hierarchy.bindMembers program).Enrolls program := by
  apply enrolls.mapNodes
  intro id node
  split <;> rfl

theorem idOf?_of_mem (member : decl ∈ program.classes) :
    hierarchy.idOf? decl.name = some (hierarchy.numberOf decl) := by
  obtain ⟨index, here⟩ := List.mem_iff_getElem?.mp member
  rw [numberOf, enrolls.idOf?_declared here]
  rfl

/-- Where every class is registered, its place and its name stand for the same number. -/
theorem idOfDecl?_eq_numberOf {index : Nat} (here : program.classes[index]? = some decl) :
    hierarchy.idOfDecl? index = some (hierarchy.numberOf decl) := by
  rw [numberOf, enrolls.idOf?_declared here, enrolls.idOfDecl?_eq here]
  rfl

theorem numberOf_pos (member : decl ∈ program.classes) : 0 < hierarchy.numberOf decl := by
  obtain ⟨index, here⟩ := List.mem_iff_getElem?.mp member
  have positive : 0 < builtins.size := by decide
  rw [numberOf, enrolls.idOf?_declared here]
  exact Nat.lt_add_right index positive

theorem typeDiagnostics_eq_nil : hierarchy.typeDiagnostics program = [] ↔
    ∀ decl ∈ program.classes, hierarchy.classDiagnostics (hierarchy.numberOf decl) decl = [] := by
  simp only [typeDiagnostics, List.flatMap_eq_nil_iff, Prod.forall, List.mem_zipIdx_iff_getElem?]
  constructor
  · intro clean decl member
    obtain ⟨index, here⟩ := List.mem_iff_getElem?.mp member
    have noIssue := clean decl index here
    rw [enrolls.idOfDecl?_eq_numberOf here] at noIssue
    exact noIssue
  · intro clean decl index here
    rw [enrolls.idOfDecl?_eq_numberOf here]
    exact clean decl (List.mem_of_getElem? here)

theorem classes_annotateProgram : (hierarchy.annotateProgram program).classes =
    program.classes.map fun decl => hierarchy.annotateClass (hierarchy.numberOf decl) decl := by
  apply List.ext_getElem?
  intro index
  rw [annotateProgram, List.getElem?_mapIdx, List.getElem?_map]
  cases here : program.classes[index]? with
  | none => rfl
  | some decl =>
    rw [Option.map_some, Option.map_some, enrolls.idOfDecl?_eq_numberOf here]

end Enrolls

theorem parentOf?_bindMembers (id : ClassId) :
    (hierarchy.bindMembers program).parentOf? id = hierarchy.parentOf? id := by
  apply parentOf?_mapNodes
  intro id node
  split <;> rfl

end Hierarchy

namespace Program
open Hierarchy
variable {program typed : Program}

theorem eq_iff_classes {other : Program} : program = other ↔ program.classes = other.classes := by
  cases program
  cases other
  simp

theorem ProperClasses.enrolls (proper : program.ProperClasses) :
    (ofProgram program).1.Enrolls program := by
  have noDuplicates := (register_clean builtins 0 program.classes).mpr
    ⟨proper.distinct, proper.unbuilt⟩
  exact (enrolls_registered noDuplicates).ofProgram

theorem ProperClasses.exists_parent (proper : program.ProperClasses) {decl : ClassDecl}
    (member : decl ∈ program.classes) :
    ∃ parent, program.hierarchy.parentOf? (program.hierarchy.numberOf decl) = some parent := by
  have enrolls := proper.enrolls.bindMembers
  have inside := idOf?_lt (enrolls.idOf?_of_mem member)
  have rooted := rooted_ofProgram program
  rw [bindMembers, size_mapNodes] at inside
  obtain ⟨parent, -, isParent⟩ := rooted.parent_lt _ (enrolls.numberOf_pos member) inside
  exact ⟨parent, (parentOf?_bindMembers _).trans isParent⟩

theorem typed_iff (proper : program.ProperClasses)
    (members : ∀ decl ∈ program.classes, decl.ProperMembers) :
    List.Forall₂ (ClassTyped program.hierarchy) program.classes typed.classes ↔
      program.hierarchy.typeDiagnostics program = [] ∧
        program.hierarchy.annotateProgram program = typed := by
  have enrolls : program.hierarchy.Enrolls program := proper.enrolls.bindMembers
  have each (decl : ClassDecl) (member : decl ∈ program.classes) (decl' : ClassDecl) :
      ClassTyped program.hierarchy decl decl' ↔
        program.hierarchy.classDiagnostics (program.hierarchy.numberOf decl) decl = [] ∧
          program.hierarchy.annotateClass (program.hierarchy.numberOf decl) decl = decl' := by
    obtain ⟨parent, inherits⟩ := proper.exists_parent member
    exact classTyped_iff inherits (enrolls.idOf?_of_mem member) (members decl member)
  rw [forall₂_iff_map each, enrolls.typeDiagnostics_eq_nil, ← enrolls.classes_annotateProgram,
    eq_iff_classes]

theorem valid_iff : program.Valid typed ↔
    (analyze program).diagnostics = [] ∧ (analyze program).program = typed := by
  have stages : (analyze program).diagnostics = (ofProgram program).2 ++
      (ofProgram program).1.memberDiagnostics program ++
      program.hierarchy.typeDiagnostics program := rfl
  rw [stages, List.append_eq_nil_iff, List.append_eq_nil_iff, ofProgram_clean]
  constructor
  · rintro ⟨classes, members, derived⟩
    obtain ⟨clean, same⟩ := (typed_iff classes members).mp derived
    exact ⟨⟨⟨classes, classes.enrolls.memberDiagnostics_eq_nil.mpr members⟩, clean⟩, same⟩
  · rintro ⟨⟨⟨classes, members⟩, clean⟩, same⟩
    have members := classes.enrolls.memberDiagnostics_eq_nil.mp members
    exact ⟨classes, members, (typed_iff classes members).mpr ⟨clean, same⟩⟩

end Program

theorem outcome_eq_ok_iff {analysis : Analysis} {hierarchy : Hierarchy} :
    analysis.outcome = .ok hierarchy ↔
      analysis.diagnostics = [] ∧ analysis.hierarchy = hierarchy := by
  rw [Analysis.outcome, ← List.isEmpty_iff]
  split
  · next clean => simp [clean]
  · next wrong => simp [wrong]

/-- An analysis reports nothing if and only if the program is valid. Then, and only then, it
succeeds with the hierarchy that the rules refer to, and finds exactly the types that they derive.
-/
theorem analyze_accepts_iff_valid (program : Program) :
    ((analyzeAfter [] program).diagnostics = [] ↔ ∃ typed, program.Valid typed) ∧
      ∀ typed, program.Valid typed ↔
        (analyzeAfter [] program).outcome = .ok program.hierarchy ∧
          (analyzeAfter [] program).program = typed := by
  have accepts (typed : Program) : program.Valid typed ↔
      (analyzeAfter [] program).diagnostics = [] ∧ (analyzeAfter [] program).program = typed :=
    Program.valid_iff
  constructor
  · constructor
    · exact fun clean => ⟨_, (accepts _).mpr ⟨clean, rfl⟩⟩
    · rintro ⟨typed, valid⟩
      exact ((accepts typed).mp valid).1
  · intro typed
    rw [accepts, outcome_eq_ok_iff]
    have same : (analyzeAfter [] program).hierarchy = program.hierarchy := rfl
    simp only [same, and_true]

-- The smallest valid programs are a class to start, here with a call of an inherited method.
example : (analyze ⟨[⟨"Main", none, [.method ⟨.void, "main", [],
    [.expr default (.call ⟨default, none⟩ none "toString" [])], default⟩], "Main.btm", default⟩]⟩
    ).diagnostics = [] := by
  rfl

end Bantam
