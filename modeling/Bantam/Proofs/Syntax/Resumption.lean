import Bantam.Proofs.Syntax.AssignmentTargets
import Bantam.Proofs.Syntax.Continuation
import Bantam.Proofs.Syntax.ProgramLocated
import Bantam.Proofs.Syntax.RememberedPrograms
import Bantam.Proofs.Syntax.Scanning

/-! Resumption. A parser that is asked again goes on with the token at which it has stopped,
wherever in a class that was. It comes to what a parser comes to that is given the text from this
token on, and nothing of what it has done before makes a difference. After a program only the end is
left. -/
namespace Bantam
open Grammar

namespace Cursor
variable {cursor : Cursor} {token : Token} {front back : List Token}

theorem exists_restart (split : cursor.tokens = front ++ token :: back) :
    ∃ before text, cursor.unread = before ++ text ∧
      cursor.position.advance before = ⟨token.span.start, token.span.line⟩ ∧
      (⟨cursor.position.advance before, text⟩ : Cursor).tokens = token :: back := by
  fun_induction tokens cursor generalizing front with
  | case1 cursor done =>
    obtain ⟨rfl, same⟩ : front = [] ∧ [cursor.endOfInput] = token :: back := by
      cases front <;> simp_all
    obtain ⟨rfl, rfl⟩ := List.cons.inj same
    exact ⟨cursor.unread, [], (List.append_nil _).symm, rfl, tokens_of_none rfl⟩
  | case2 cursor first behind read ih =>
    obtain ⟨blanks, text, step⟩ := step_of_next? read
    -- The cursor is put down behind the blanks of the first token, or behind its text.
    cases front with
    | nil =>
      obtain ⟨rfl, rfl⟩ := List.cons.inj split
      refine ⟨blanks, text ++ behind.unread, ?_, ?_, ?_⟩
      · rw [step.unread, List.append_assoc]
      · rw [step.covers.span]
      · rw [← tokens_skip step.blank, ← List.append_assoc, ← step.unread]
        exact tokens_of_some read
    | cons other front =>
      obtain ⟨before, rest, unread, place, restarted⟩ := ih (List.cons.inj split).2
      refine ⟨blanks ++ text ++ before, rest, ?_, ?_, ?_⟩
      · rw [step.unread, unread, List.append_assoc _ before]
      · rw [advance_append, advance_append, ← step.position, place]
      · rw [advance_append, advance_append, ← step.position, restarted]

end Cursor

namespace Relocation

def onto (place : Span) : Relocation := .shift place.start (place.line - 1)

def result (relocation : Relocation) (parsed : Except SyntaxError Program) :
    Except SyntaxError Program :=
  (parsed.map (Program.mark relocation.marking)).mapError relocation.syntaxError

end Relocation

structure IsFrom (source rest : String) (token : Token) : Prop where
  suffix : ∃ before, source = before ++ rest ∧ before.utf8ByteSize = token.span.start
  first : (scan rest).head?.map (Relocation.onto token.span).token = some token

/-- From a token on there is a text with the same tokens, at places that are less far on. -/
theorem exists_suffix {source : String} {token : Token} {front back : List Token}
    (split : scan source = front ++ token :: back) :
    ∃ rest, IsFrom source rest token ∧
      (scan rest).map (Relocation.onto token.span).token = token :: back ∧
      (Relocation.onto token.span).token (Cursor.ofText rest).endOfInput =
        (Cursor.ofText source).endOfInput := by
  obtain ⟨before, text, unread, place, restarted⟩ := Cursor.exists_restart split
  have size : (String.ofList before).utf8ByteSize = (bytes before).length := by
    rw [show (String.ofList before).utf8ByteSize = _ from size_toUTF8 _, String.toList_ofList]
  have shifted : (Cursor.ofText source).position.advance before =
      Position.first.shift (bytes before).length (before.count '\n') := advance_eq_shift _ _
  obtain ⟨start, line⟩ := Position.mk.inj (place.symm.trans shifted)
  replace start : token.span.start = (bytes before).length := start.trans (Nat.zero_add _)
  replace line : token.span.line - 1 = before.count '\n' := by
    rw [line]
    exact Nat.add_sub_cancel_left ..
  have cursor : (⟨(Cursor.ofText source).position.advance before, text⟩ : Cursor) =
      (Cursor.ofText (String.ofList text)).shift token.span.start (token.span.line - 1) := by
    rw [shifted, start, line, Cursor.ofText, String.toList_ofList]
    rfl
  have tokens : (scan (String.ofList text)).map (Relocation.onto token.span).token =
      token :: back := by
    rw [← restarted, cursor, Cursor.tokens_shift]
    rfl
  refine ⟨String.ofList text, ⟨⟨String.ofList before, ?_, size.trans start.symm⟩, ?_⟩, tokens, ?_⟩
  · rw [← String.ofList_append, ← unread]
    exact String.ofList_toList.symm
  · rw [← List.head?_map, tokens]
    rfl
  · have finish : (Cursor.ofText source).finish =
        (⟨(Cursor.ofText source).position.advance before, text⟩ : Cursor).finish := by
      rw [Cursor.finish, unread, advance_append]
      rfl
    rw [Relocation.onto, ← Cursor.endOfInput_shift, ← cursor, Cursor.endOfInput, ← finish]
    rfl

namespace Parser

def current (parser : Parser) : Token := parser.unread.head?.getD parser.finish

def after (parser : Parser) : Nat → Parser
  | 0 => parser
  | calls + 1 => parser.parse.2.after calls

structure Inside (file source : String) (parser : Parser) : Prop where
  file : parser.file = file
  finish : parser.finish = (Cursor.ofText source).endOfInput
  unread : parser.unread <:+ meaningful source

section Calls
variable {file source : String} {parser : Parser}

theorem inside_ofText (file source : String) (earlier : List Diagnostic) :
    (ofText file source earlier).Inside file source :=
  ⟨rfl, rfl, List.suffix_rfl⟩

theorem Inside.parse (inside : parser.Inside file source) :
    parser.parse.2.Inside file source := by
  have meets := readClasses_meets (ordered_meaningful source) parser.file inside.unread
  have nothing : [] <:+ meaningful source := List.nil_suffix
  rw [Parser.parse]
  cases outcome : readClasses parser.file parser.unread with
  | ok classes => exact ⟨inside.file, inside.finish, nothing⟩
  | error failure =>
    rw [outcome] at meets
    exact ⟨inside.file, inside.finish, Blames.inside meets⟩

theorem Inside.after (inside : parser.Inside file source) (calls : Nat) :
    (parser.after calls).Inside file source := by
  induction calls generalizing parser with
  | zero => exact inside
  | succ calls ih => exact ih inside.parse

theorem Inside.split (inside : parser.Inside file source) : ∃ front back,
    scan source = front ++ parser.current :: back ∧
      ((parser.current :: back).filter fun token =>
        token.kind != .comment && token.kind != .endOfInput) = parser.unread := by
  obtain ⟨passed, whole⟩ := inside.unread
  rw [current]
  cases unread : parser.unread with
  | nil =>
    -- Nothing is left but the token for the end, which is the current one then.
    obtain ⟨read, scanned, -⟩ := (Cursor.ofText source).exists_tokens
    exact ⟨read, [], by rw [inside.finish]; exact scanned, by rw [inside.finish]; rfl⟩
  | cons token others =>
    rw [unread] at whole
    obtain ⟨front, back, scanned, -, kept⟩ := List.filter_eq_append_iff.mp whole.symm
    obtain ⟨skipped, rest, rfl, none, here, others⟩ := List.filter_eq_cons_iff.mp kept
    refine ⟨front ++ skipped, rest, ?_, ?_⟩
    · rw [scanned, List.append_assoc]
      rfl
    · rw [← others]
      exact List.filter_cons_of_pos here

theorem parse_fst_congr {other : Parser} (file : parser.file = other.file)
    (finish : parser.finish = other.finish) (unread : parser.unread = other.unread) :
    parser.parse.1 = other.parse.1 := by
  rw [Parser.parse, Parser.parse, file, finish, unread]
  cases readClasses other.file other.unread <;> rfl

/-- A parser that stands in a text comes to what a parser of the text from there on comes to. -/
theorem Inside.fresh (inside : parser.Inside file source) :
    ∃ rest, IsFrom source rest parser.current ∧ parser.parse.1 =
      (Relocation.onto parser.current.span).result (Bantam.parse file rest).1 := by
  obtain ⟨front, back, scanned, unread⟩ := inside.split
  obtain ⟨rest, isFrom, tokens, finish⟩ := exists_suffix scanned
  refine ⟨rest, isFrom, ?_⟩
  have moved := @Relocation.parse_moved (.onto parser.current.span) rfl (ofText file rest [])
  refine (parse_fst_congr inside.file (inside.finish.trans finish.symm) ?_).trans
    (congrArg Prod.fst moved)
  show parser.unread = (Relocation.onto parser.current.span).tokens (meaningful rest)
  rw [Relocation.tokens_eq_map rfl, ← unread, ← tokens, List.filter_map]
  rfl

theorem current_of_unexpected {expectation : Expectation} {found : Token}
    (failed : parser.parse.1 = .error (.unexpected expectation found)) :
    parser.parse.2.current = found := by
  rw [current, finish_parse]
  exact (stopped_of_unexpected failed).2

theorem unread_of_parsed {program : Program} (read : parser.parse.1 = .ok program) :
    parser.parse.2.unread = [] := by
  rw [Parser.parse] at read ⊢
  cases outcome : readClasses parser.file parser.unread with
  | ok classes => rfl
  | error failure =>
    rw [outcome] at read
    contradiction

theorem parse_of_ended (ended : parser.unread = []) : parser.parse = (.ok ⟨[]⟩, parser) := by
  obtain ⟨file, finish, unread, reported⟩ := parser
  obtain rfl : unread = [] := ended
  have nothing : readClasses file [] = .ok [] := by rw [readClasses]; rfl
  simp [Parser.parse, nothing, goTo, lexicalDiagnostics]

theorem after_of_ended (ended : parser.unread = []) (calls : Nat) :
    parser.after calls = parser := by
  induction calls with
  | zero => rfl
  | succ calls ih => rw [after, parse_of_ended ended, ih]

end Calls

/-- How a parser goes on that stands somewhere in a source text. -/
structure Resumes (file source : String) (parser : Parser) : Prop where
  -- It comes to what a new parser comes to that is given the text from the current token on, at
  -- places that are as much further on.
  fresh : ∃ rest, IsFrom source rest parser.current ∧ parser.parse.1 =
    (Relocation.onto parser.current.span).result (Bantam.parse file rest).1
  -- So it does whatever parentheses of the text it may have remembered from what it has read.
  remembered (marker : Option Span) : Remembered.Known source marker →
    Remembered.outcome marker parser = parser.parse.1
  -- If it misses something, it stops at the token that it finds instead.
  stopped (expectation : Expectation) (found : Token) :
    parser.parse.1 = .error (.unexpected expectation found) → parser.parse.2.current = found
  -- If it succeeds, each later call succeeds without classes, and reports nothing.
  ended (program : Program) : parser.parse.1 = .ok program → ∀ calls,
    (parser.parse.2.after calls).parse = (.ok ⟨[]⟩, parser.parse.2)

/-- A parser that is asked again parses the text from the token at which it has stopped, like a
parser that starts there, however often it has been asked and wherever it has stopped. -/
theorem resumption (file source : String) (earlier : List Diagnostic) (calls : Nat) :
    ((ofText file source earlier).after calls).Resumes file source := by
  have inside := (inside_ofText file source earlier).after calls
  refine {
    fresh := inside.fresh
    remembered := fun marker => Remembered.outcome_eq inside.unread
    stopped := fun _ _ => current_of_unexpected
    ended := fun program read calls => ?_ }
  have ended := unread_of_parsed read
  rw [after_of_ended ended, parse_of_ended ended]

-- A keyword in the place of a name is where the second call begins.
example : ((ofText "a" "class\nclass A \x7b\x7d" []).after 1).parse.1 =
    .ok ⟨[⟨"A", none, [], "a", ⟨6, 16, 2⟩⟩]⟩ := by
  have tokens : scan "class\nclass A \x7b\x7d" =
      [⟨.identifier, "class", ⟨0, 5, 1⟩⟩, ⟨.identifier, "class", ⟨6, 11, 2⟩⟩,
        ⟨.identifier, "A", ⟨12, 13, 2⟩⟩, ⟨.leftBrace, "\x7b", ⟨14, 15, 2⟩⟩,
        ⟨.rightBrace, "\x7d", ⟨15, 16, 2⟩⟩, ⟨.endOfInput, "", ⟨16, 16, 2⟩⟩] := by
    rw [scan_eq 17 (by decide)]
    rfl
  rw [ofText, tokens]
  cbv

end Parser

end Bantam
