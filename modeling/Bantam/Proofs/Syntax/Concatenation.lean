import Bantam.Proofs.Syntax.Continuation
import Bantam.Proofs.Syntax.Scanning

/-! Parsing one text after another. Where the first of two texts is a program, a parse of both, with
a line feed between them, gets to the end of the first as if there were nothing else, and goes on
with the second as if it were at its start. -/
namespace Bantam

def Relocation.past (source : String) : Relocation :=
  .shift (source.utf8ByteSize + 1) (source.toList.count '\n' + 1)

/-- These tokens come to stand behind others, which stay where they are. -/
def Relocation.followed (behind : List Token) : Relocation where
  move := id
  merge := fun _ _ => rfl
  behind := behind

section Texts
variable {first : String}

theorem cursor_past (first second : String) :
    (⟨(Cursor.ofText first).finish.step '\n', second.toList⟩ : Cursor) =
      (Cursor.ofText second).shift (first.utf8ByteSize + 1) (first.toList.count '\n' + 1) := by
  have size : first.utf8ByteSize = (bytes first.toList).length := size_toUTF8 first
  have place : (Cursor.ofText first).finish =
      Position.first.shift first.utf8ByteSize (first.toList.count '\n') := by
    rw [size]
    exact advance_eq_shift _ _
  rw [place]
  rfl

theorem ofText_append (first second : String) :
    Cursor.ofText (first ++ "\n" ++ second) = (Cursor.ofText first).goingOn second.toList := by
  rw [Cursor.ofText, String.toList_append, String.toList_append, List.append_assoc]
  rfl

theorem scan_append (valid : AllValid (scan first)) (second : String) :
    scan (first ++ "\n" ++ second) =
      (scan first).dropLast ++ (Relocation.past first).tokens (scan second) := by
  rw [scan, ofText_append, Cursor.tokens_goingOn valid, cursor_past, Cursor.tokens_shift,
    Relocation.tokens_eq_map rfl]
  rfl

theorem endOfInput_append (first second : String) :
    (Cursor.ofText (first ++ "\n" ++ second)).endOfInput =
      (Relocation.past first).token (Cursor.ofText second).endOfInput := by
  have finish : ((Cursor.ofText first).goingOn second.toList).finish =
      (⟨(Cursor.ofText first).finish.step '\n', second.toList⟩ : Cursor).finish :=
    advance_append ..
  rw [ofText_append, Cursor.endOfInput, finish]
  show (⟨(Cursor.ofText first).finish.step '\n', second.toList⟩ : Cursor).endOfInput = _
  rw [cursor_past, Cursor.endOfInput_shift]
  rfl

theorem meaningful_append (valid : AllValid (Grammar.meaningful first)) (second : String) :
    Grammar.meaningful (first ++ "\n" ++ second) =
      (Relocation.followed ((Relocation.past first).tokens (Grammar.meaningful second))).tokens
        (Grammar.meaningful first) := by
  have validScan : AllValid (scan first) := by
    rw [← @lexicalDiagnostics_eq_nil ""] at valid ⊢
    rw [← lexicalDiagnostics_meaningful, valid]
  obtain ⟨read, line, same, -⟩ := (lossless_scan first).finish
  have withoutEnd : Grammar.meaningful first = read.filter fun token =>
      token.kind != .comment && token.kind != .endOfInput := by
    rw [Grammar.meaningful, same, List.filter_append]
    exact List.append_nil _
  rw [withoutEnd, Grammar.meaningful, scan_append validScan, same, List.dropLast_concat,
    List.filter_append, Relocation.tokens_eq_map rfl, List.filter_map]
  show _ = (read.filter _).map id ++ (Relocation.past first).tokens _
  rw [List.map_id, Relocation.tokens_eq_map rfl]
  rfl

end Texts

section Parses
variable {file first : String} {program : Program}

theorem parse_append (read : (parse file first).1 = .ok program) (second : String) :
    (parse file (first ++ "\n" ++ second)).1 =
      (((parse file second).1.map (Program.mark (Relocation.past first).marking)).mapError
        (Relocation.past first).syntaxError).map fun other =>
          ⟨program.classes ++ other.classes⟩ := by
  have readFirst := parse_eq_ok_iff.mp read
  have valid := (readClasses_sound readFirst).allValid
  have outcome (source : String) : (parse file source).1 =
      ((readClasses file (Grammar.meaningful source)).map Program.mk).mapError
        (SyntaxError.ofFailure (Cursor.ofText source).endOfInput) := by
    rw [parse, parseAfter_eq]
    cases readClasses file (Grammar.meaningful source) <;> rfl
  have unmoved : program.classes.map (ClassDecl.mark .same) = program.classes :=
    (List.map_congr_left fun decl _ => decl.mark_same).trans (List.map_id' _)
  have readBoth : readClasses file (Grammar.meaningful (first ++ "\n" ++ second)) =
      (((readClasses file (Grammar.meaningful second)).map
        (List.map (ClassDecl.mark (Relocation.past first).marking))).mapError
          (Relocation.past first).failure).map (program.classes ++ ·) := by
    rw [meaningful_append valid, Relocation.readClasses_behind readFirst]
    show (readClasses file ((Relocation.past first).tokens _)).map
      (program.classes.map (ClassDecl.mark .same) ++ ·) = _
    rw [unmoved, Relocation.readClasses_moved rfl]
  rw [outcome, outcome, readBoth, endOfInput_append]
  cases readClasses file (Grammar.meaningful second) with
  | ok classes => rfl
  | error failure => exact congrArg Except.error (Relocation.ofFailure_moved rfl _ failure)

/-- A program, a line feed and another text are parsed as the program and the other text: they are
a program if and only if the other text is one, whose classes then follow at their shifted places,
and fail for the same reason at its shifted place otherwise. -/
theorem parse_concatenation (read : (parse file first).1 = .ok program) (second : String) :
    ((∃ whole, (parse file (first ++ "\n" ++ second)).1 = .ok whole) ↔
      ∃ other, (parse file second).1 = .ok other) ∧
    (∀ other, (parse file second).1 = .ok other →
      (parse file (first ++ "\n" ++ second)).1 = .ok
        ⟨program.classes ++ (other.mark (Relocation.past first).marking).classes⟩) ∧
    ∀ error, (parse file second).1 = .error error →
      ∃ failed, (parse file (first ++ "\n" ++ second)).1 = .error failed ∧
        failed.detail = error.detail ∧ failed.span = (Relocation.past first).move error.span := by
  have both := parse_append read second
  cases outcome : (parse file second).1 with
  | ok other =>
    rw [outcome] at both
    refine ⟨⟨fun _ => ⟨other, rfl⟩, fun _ => ⟨_, both⟩⟩, ?_, by simp⟩
    rintro _ ⟨⟩
    exact both
  | error error =>
    rw [outcome] at both
    refine ⟨?_, by simp, ?_⟩
    · rw [both]
      constructor <;> rintro ⟨_, ⟨⟩⟩
    · rintro _ ⟨⟩
      exact ⟨_, both, Relocation.detail_syntaxError .., Relocation.span_syntaxError ..⟩

-- A comment at the end of the first text does not reach into the second.
theorem parse_concatenation_comment :
    (parse "a" "class A \x7b\x7d // A").1 = .ok ⟨[⟨"A", none, [], "a", ⟨0, 10, 1⟩⟩]⟩ ∧
    (parse "a" ("class A \x7b\x7d // A" ++ "\n" ++ "class B \x7b\x7d")).1 =
      .ok ⟨[⟨"A", none, [], "a", ⟨0, 10, 1⟩⟩, ⟨"B", none, [], "a", ⟨16, 26, 2⟩⟩]⟩ := by
  have readFirst : (parse "a" "class A \x7b\x7d // A").1 =
      .ok ⟨[⟨"A", none, [], "a", ⟨0, 10, 1⟩⟩]⟩ := by
    have tokens : Grammar.meaningful "class A \x7b\x7d // A" =
        [⟨.identifier, "class", ⟨0, 5, 1⟩⟩, ⟨.identifier, "A", ⟨6, 7, 1⟩⟩,
          ⟨.leftBrace, "\x7b", ⟨8, 9, 1⟩⟩, ⟨.rightBrace, "\x7d", ⟨9, 10, 1⟩⟩] := by
      rw [Grammar.meaningful, scan_eq 16 (by decide)]
      rfl
    rw [parse_eq_ok_iff, tokens]
    cbv
  have readSecond : (parse "a" "class B \x7b\x7d").1 =
      .ok ⟨[⟨"B", none, [], "a", ⟨0, 10, 1⟩⟩]⟩ := by
    have tokens : Grammar.meaningful "class B \x7b\x7d" =
        [⟨.identifier, "class", ⟨0, 5, 1⟩⟩, ⟨.identifier, "B", ⟨6, 7, 1⟩⟩,
          ⟨.leftBrace, "\x7b", ⟨8, 9, 1⟩⟩, ⟨.rightBrace, "\x7d", ⟨9, 10, 1⟩⟩] := by
      rw [Grammar.meaningful, scan_eq 11 (by decide)]
      rfl
    rw [parse_eq_ok_iff, tokens]
    cbv
  exact ⟨readFirst, (parse_concatenation readFirst _).2.1 _ readSecond⟩

end Parses

end Bantam
