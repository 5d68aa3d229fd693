import Bantam.Proofs.Syntax.ParsedPlaces
import Bantam.Proofs.Typing.KnownTypes
import Bantam.Proofs.Typing.ProgramIssues

/-! Spans of programs that are read from several files. Main statement: all spans of tokens, of
classes with all that is in them, and of diagnostics are places in the text of the file that they
come from. The one diagnostic that has no place is that there is no class to start. -/
namespace Bantam

variable {bounds : Bounds}

-- Types that are written into a program have no places.
namespace Expr

mutual

theorem within_untyped :
    ∀ expr : Expr, (expr.mark .untyped).Within bounds ↔ expr.Within bounds
  | .int .. | .bool .. | .string .. | .new .. => Iff.rfl
  | .var _ qualifier _ index => by
    simp only [mark, Within, within_untyped_option qualifier, within_untyped_option index,
      Marking.info_untyped]
  | .assign _ qualifier _ index value => by
    simp only [mark, Within, within_untyped_option qualifier, within_untyped_option index,
      within_untyped value, Marking.info_untyped]
  | .call _ receiver _ arguments => by
    simp only [mark, Within, within_untyped_option receiver, within_untyped_list arguments,
      Marking.info_untyped]
  | .newArray _ _ operand | .instanceOf _ operand _ | .cast _ _ operand | .unary _ _ operand => by
    simp only [mark, Within, within_untyped operand, Marking.info_untyped]
  | .binary _ _ left right => by
    simp only [mark, Within, within_untyped left, within_untyped right, Marking.info_untyped]

theorem within_untyped_option : ∀ expr : Option Expr,
    WithinOption bounds (markOption .untyped expr) ↔ WithinOption bounds expr
  | none => Iff.rfl
  | some expr => within_untyped expr

theorem within_untyped_list : ∀ exprs : List Expr,
    WithinList bounds (markList .untyped exprs) ↔ WithinList bounds exprs
  | [] => Iff.rfl
  | expr :: rest => and_congr (within_untyped expr) (within_untyped_list rest)

end

end Expr

namespace Stmt

mutual

theorem within_untyped : ∀ stmt : Stmt, (stmt.mark .untyped).Within bounds ↔ stmt.Within bounds
  | .expr _ value => and_congr_right' value.within_untyped
  | .decl _ _ _ init => by
    simp only [mark, Within, init.within_untyped, Marking.span_untyped]
  | .block _ body => and_congr_right' (within_untyped_list body)
  | .branch _ condition thenBranch elseBranch => by
    simp only [mark, Within, condition.within_untyped, within_untyped thenBranch,
      within_untyped_option elseBranch, Marking.span_untyped]
  | .whileLoop _ condition body => by
    simp only [mark, Within, condition.within_untyped, within_untyped body, Marking.span_untyped]
  | .forLoop _ init condition update body => by
    simp only [mark, Within, Expr.within_untyped_option, within_untyped body, Marking.span_untyped]
  | .leave _ => Iff.rfl
  | .giveBack _ value => and_congr_right' (Expr.within_untyped_option value)

theorem within_untyped_option : ∀ stmt : Option Stmt,
    WithinOption bounds (markOption .untyped stmt) ↔ WithinOption bounds stmt
  | none => Iff.rfl
  | some stmt => within_untyped stmt

theorem within_untyped_list : ∀ stmts : List Stmt,
    WithinList bounds (markList .untyped stmts) ↔ WithinList bounds stmts
  | [] => Iff.rfl
  | stmt :: rest => and_congr (within_untyped stmt) (within_untyped_list rest)

end

end Stmt

theorem Member.within_untyped (member : Member) :
    (member.mark .untyped).Within bounds ↔ member.Within bounds := by
  cases member with
  | field field =>
    simp only [mark, Field.mark, Within, Expr.within_untyped_option, Marking.span_untyped]
  | method method =>
    simp only [mark, Method.mark, Within, map_mark_untyped, Stmt.within_untyped_list,
      Marking.span_untyped]

theorem ClassDecl.within_untyped {decl : ClassDecl} :
    (decl.mark .untyped).Within bounds ↔ decl.Within bounds := by
  have members : (∀ member ∈ (decl.mark .untyped).members, member.Within bounds) ↔
      ∀ member ∈ decl.members, member.Within bounds := by
    simp only [mark, List.forall_mem_map, Member.within_untyped]
  constructor
  · rintro ⟨place, word, parent, inside⟩
    exact ⟨place, word, parent, members.mp inside⟩
  · rintro ⟨place, word, parent, inside⟩
    exact ⟨place, word, parent, members.mpr inside⟩

/-- A class of an annotated program is one of the program apart from types. -/
theorem exists_of_annotated {program : Program} {typed : ClassDecl}
    (member : typed ∈ (analyze program).program.classes) :
    ∃ decl ∈ program.classes, typed.mark .untyped = decl.mark .untyped := by
  have same := congrArg Program.classes (program.hierarchy.untyped_annotateProgram program)
  have image : typed.mark .untyped ∈ (program.mark .untyped).classes :=
    same ▸ List.mem_map_of_mem member
  obtain ⟨decl, isDecl, same⟩ := List.mem_map.mp image
  exact ⟨decl, isDecl, same.symm⟩

/-- The class is one of those that are read from the file. -/
def SourceFile.Declares (file : SourceFile) (decl : ClassDecl) : Prop :=
  ∃ program, (parse file.name file.text).1 = .ok program ∧ decl ∈ program.classes

theorem SourceFile.Declares.within {file : SourceFile} {decl : ClassDecl}
    (declares : file.Declares decl) : decl.file = file.name ∧ decl.Within (.inText file.text) := by
  obtain ⟨program, read, member⟩ := declares
  exact within_of_parse read decl member

theorem parseAfter_outcome (earlier : List Diagnostic) (file source : String) :
    (parseAfter earlier file source).1 = (parse file source).1 := by
  rw [parse, parseAfter_eq, parseAfter_eq]
  cases readClasses file (Grammar.meaningful source) <;> rfl

theorem standsIn_parseFiles (earlier : List Diagnostic) (files : List SourceFile) :
    ∀ diagnostic ∈ (parseFiles earlier files).2,
      diagnostic ∈ earlier ∨ ∃ file ∈ files, diagnostic.StandsIn file := by
  induction files generalizing earlier with
  | nil => exact fun _ => .inl
  | cons file rest ih =>
    have first := standsIn_parseAfter earlier file.name file.text
    have here {diagnostic : Diagnostic}
        (placed : diagnostic ∈ earlier ∨ diagnostic.StandsIn file) :
        diagnostic ∈ earlier ∨ ∃ origin ∈ file :: rest, diagnostic.StandsIn origin :=
      placed.imp id fun placed => ⟨file, List.mem_cons_self, placed⟩
    intro diagnostic reported
    rw [parseFiles] at reported
    split at reported
    · next failed =>
      rw [failed] at first
      exact here (first diagnostic reported)
    · next read =>
      rw [read] at first
      rcases ih _ diagnostic reported with before | ⟨other, member, placed⟩
      · exact here (first diagnostic before)
      · exact .inr ⟨other, List.mem_cons_of_mem _ member, placed⟩

theorem mem_parseFiles {earlier : List Diagnostic} {files : List SourceFile} {program : Program}
    (read : (parseFiles earlier files).1 = .ok program) (decl : ClassDecl) :
    decl ∈ program.classes ↔ ∃ file ∈ files, file.Declares decl := by
  induction files generalizing earlier program with
  | nil =>
    cases read
    simp
  | cons file rest ih =>
    have outcome := parseAfter_outcome earlier file.name file.text
    rw [parseFiles] at read
    split at read
    · contradiction
    · next first diagnostics readFirst =>
      rw [readFirst] at outcome
      have read : (parseFiles diagnostics rest).1.map
          (fun other => (⟨first.classes ++ other.classes⟩ : Program)) = .ok program := read
      cases readOthers : (parseFiles diagnostics rest).1 with
      | error => rw [readOthers] at read; contradiction
      | ok others =>
        rw [readOthers] at read
        cases read
        rw [List.mem_append, ih readOthers, List.exists_mem_cons_iff]
        refine or_congr_left ⟨fun member => ⟨first, outcome.symm, member⟩, ?_⟩
        rintro ⟨program, read, member⟩
        rw [← outcome] at read
        cases read
        exact member

theorem onOneLine_fixed : ∀ word ∈ fixedWords, OnOneLine word := by decide

/-- What an analysis of several files says of a class stands in the file that the class is read
from. -/
theorem standsIn_analyze {earlier : List Diagnostic} {files : List SourceFile} {program : Program}
    (read : (parseFiles earlier files).1 = .ok program) :
    ∀ diagnostic ∈ (analyze program).diagnostics, diagnostic = Hierarchy.missingMain program ∨
      ∃ file ∈ files, ∃ decl, file.Declares decl ∧ diagnostic.file = decl.file ∧
        diagnostic.span.ValidIn file.text := by
  have declared := mem_parseFiles read
  have declares : ∀ decl ∈ program.classes, decl.Declares OnOneLine := by
    intro decl member
    obtain ⟨file, -, isDecl⟩ := (declared decl).mp member
    exact isDecl.within.2.declares
  intro diagnostic reported
  rcases Hierarchy.concerns_analyze onOneLine_fixed declares diagnostic reported with
    isMain | ⟨decl, member, issue, rfl, inside⟩
  · exact .inl isMain
  · obtain ⟨file, isFile, isDecl⟩ := (declared decl).mp member
    exact .inr ⟨file, isFile, decl, isDecl, rfl, (inside _ isDecl.within.2).place⟩

theorem Span.ValidIn.notSynthetic {source : String} {span : Span} (valid : span.ValidIn source) :
    span.isSynthetic = false := by
  rw [isSynthetic, valid.line]
  exact beq_false_of_ne (Nat.add_one_ne_zero _ ∘ (Nat.add_comm ..).trans)

/-- All spans stand in the texts that they come from: those of tokens, those of the classes that are
read and of all that is in them, also where types are written into them, and those of diagnostics.
A diagnostic is on the line of its span and carries the file that is parsed or that of the class
which it is about. Only the report that there is no class to start has no place; it carries the
file of the first class, if there is one. -/
theorem spans_valid (files : List SourceFile) :
    (∀ file ∈ files, ∀ token ∈ scan file.text, token.span.ValidIn file.text) ∧
    (∀ diagnostic ∈ (parseFiles [] files).2, diagnostic.line = diagnostic.span.line ∧
      diagnostic.span.isSynthetic = false ∧
      ∃ file ∈ files, diagnostic.file = file.name ∧ diagnostic.span.ValidIn file.text) ∧
    ∀ program, (parseFiles [] files).1 = .ok program →
      (∀ decl, decl ∈ program.classes ↔ ∃ file ∈ files, file.Declares decl) ∧
      (∀ file ∈ files, ∀ decl, file.Declares decl →
        decl.file = file.name ∧ decl.Within (.inText file.text)) ∧
      (∀ typed ∈ (analyze program).program.classes, ∃ file ∈ files, ∃ decl, file.Declares decl ∧
        typed.mark .untyped = decl.mark .untyped ∧ typed.file = file.name ∧
        typed.Within (.inText file.text)) ∧
      ∀ diagnostic ∈ (analyze program).diagnostics, diagnostic.line = diagnostic.span.line ∧
        (diagnostic.span.isSynthetic = true → diagnostic = Hierarchy.missingMain program) ∧
        (diagnostic.span.isSynthetic = false → ∃ file ∈ files, ∃ decl, file.Declares decl ∧
          diagnostic.file = decl.file ∧ diagnostic.span.ValidIn file.text) := by
  refine ⟨fun _ _ _ => validIn_scan, fun diagnostic reported => ?_, fun program read => ?_⟩
  · rcases standsIn_parseFiles [] files diagnostic reported with none | ⟨file, member, placed⟩
    · contradiction
    · exact ⟨rfl, placed.place.notSynthetic, file, member, placed.file, placed.place⟩
  refine ⟨mem_parseFiles read, fun _ _ _ declares => declares.within, fun typed member => ?_,
    fun diagnostic reported => ⟨rfl, ?_⟩⟩
  · obtain ⟨decl, isDecl, same⟩ := exists_of_annotated member
    obtain ⟨file, isFile, declares⟩ := (mem_parseFiles read decl).mp isDecl
    obtain ⟨named, within⟩ := declares.within
    have sameFile : (typed.mark .untyped).file = (decl.mark .untyped).file := by rw [same]
    refine ⟨file, isFile, decl, declares, same, sameFile.trans named, ?_⟩
    rw [← ClassDecl.within_untyped, same]
    exact ClassDecl.within_untyped.mpr within
  · rcases standsIn_analyze read diagnostic reported with isMain | ⟨file, isFile, decl, placed⟩
    · have synthetic : diagnostic.span.isSynthetic = true := by
        rw [isMain]
        rfl
      exact ⟨fun _ => isMain, fun other => absurd synthetic (Bool.eq_false_iff.mp other)⟩
    · have valid := placed.2.2
      exact ⟨fun synthetic => absurd synthetic (Bool.eq_false_iff.mp valid.notSynthetic),
        fun _ => ⟨file, isFile, decl, placed⟩⟩

/-- Without any class, the report that there is none to start carries no file that is parsed. -/
theorem missing_main_without_class :
    parseFiles [] [⟨"Test.btm", ""⟩] = (.ok ⟨[]⟩, []) ∧
    (analyze ⟨[]⟩).diagnostics =
      [⟨.semantic, "<builtin>", .synthetic, "missing class 'Main'"⟩] := by
  have tokens : scan "" = [⟨.endOfInput, "", ⟨0, 0, 1⟩⟩] := by
    rw [scan_eq 1 (by decide)]
    rfl
  have meaningful : Grammar.meaningful "" = [] := by
    rw [Grammar.meaningful, tokens]
    rfl
  constructor
  · rw [parseFiles, parseAfter_eq, reported_goTo, meaningful]
    cbv
  · rfl

end Bantam
