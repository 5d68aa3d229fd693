import Bantam.Proofs.Syntax.Lexemes
import Bantam.Proofs.Syntax.Scanning
import Mathlib.Data.List.Find

/-! String constants. What stands behind an opening quote is taken apart into units, as far as it
goes; the units, and what comes next, decide where the token ends and which token it is. -/
namespace Bantam

/-- A piece of a string constant: a backslash with the character behind it, or any other character
but a quote and a line feed. -/
inductive StringUnit where
  | plain (c : Char) (ordinary : c ≠ '"' ∧ c ≠ '\\' ∧ c ≠ '\n')
  | escape (c : Char)

namespace StringUnit

def text : StringUnit → List Char
  | plain c _ => [c]
  | escape c => ['\\', c]

def escaped? : StringUnit → Option Char
  | plain _ _ => none
  | escape c => some c

def textOf (units : List StringUnit) : List Char := units.flatMap text

def escapes (units : List StringUnit) : List Char := units.filterMap escaped?

/-- The text is taken apart into units, and no further unit starts what is left of it. -/
structure MaximalRun (text : List Char) (units : List StringUnit) (rest : List Char) : Prop where
  whole : text = textOf units ++ rest
  ends : ∀ (unit : StringUnit) (more : List Char), rest ≠ unit.text ++ more

/-- What is wrong with the units of a closed string, if anything is. -/
def fault? (units : List StringUnit) : Option String :=
  if '\n' ∈ escapes units then some "multi-line string"
  else match (escapes units).find? fun c => ! ['n', 't', '"', '\\', 'f'].contains c with
    | some c => some s!"illegal escape sequence \\{c} in string"
    | none => if 5000 < units.length then some "string constant too long" else none

def placeOf (before text : List Char) : Span :=
  ⟨(bytes before).length, (bytes (before ++ text)).length, 1 + before.count '\n'⟩

/-- The token of the string constant that starts behind a piece of text, by its units and what is
left behind them. -/
def tokenOf (before : List Char) (units : List StringUnit) (rest : List Char) : Token :=
  match rest with
  | '"' :: _ =>
    let text := '"' :: textOf units ++ ['"']
    match fault? units with
    | none => ⟨.string, String.ofList text, placeOf before text⟩
    | some message => ⟨.invalid, message, placeOf before text⟩
  | '\n' :: _ => ⟨.invalid, "unterminated string", placeOf before ('"' :: textOf units)⟩
  | rest => ⟨.invalid, "unterminated string", placeOf before ('"' :: textOf units ++ rest)⟩

@[simp] theorem textOf_cons (unit : StringUnit) (units : List StringUnit) :
    textOf (unit :: units) = unit.text ++ textOf units := List.flatMap_cons

@[simp] theorem escapes_plain {c : Char} (ordinary : c ≠ '"' ∧ c ≠ '\\' ∧ c ≠ '\n')
    (units : List StringUnit) : escapes (plain c ordinary :: units) = escapes units := rfl

@[simp] theorem escapes_escape (c : Char) (units : List StringUnit) :
    escapes (escape c :: units) = c :: escapes units := rfl

theorem text_inj {first second : StringUnit} {rest more : List Char}
    (same : first.text ++ rest = second.text ++ more) : first = second ∧ rest = more := by
  cases first with
  | plain c ordinary =>
    cases second with
    | plain d other =>
      obtain ⟨rfl, rfl⟩ := List.cons.inj same
      exact ⟨rfl, rfl⟩
    | escape d => exact absurd (List.cons.inj same).1 ordinary.2.1
  | escape c =>
    cases second with
    | plain d other => exact absurd (List.cons.inj same).1.symm other.2.1
    | escape d =>
      obtain ⟨-, same⟩ := List.cons.inj same
      obtain ⟨rfl, rfl⟩ := List.cons.inj same
      exact ⟨rfl, rfl⟩

theorem MaximalRun.unique {text rest left : List Char} {units others : List StringUnit}
    (run : MaximalRun text units rest) (other : MaximalRun text others left) :
    units = others ∧ rest = left := by
  induction units generalizing text others with
  | nil =>
    have atEnd : text = rest := run.whole
    cases others with
    | nil => exact ⟨rfl, atEnd.symm.trans other.whole⟩
    | cons unit others =>
      have goesOn := atEnd.symm.trans other.whole
      rw [textOf_cons, List.append_assoc] at goesOn
      exact absurd goesOn (run.ends unit _)
  | cons unit units ih =>
    have starts := run.whole
    rw [textOf_cons, List.append_assoc] at starts
    cases others with
    | nil => exact absurd (other.whole.symm.trans starts) (other.ends unit _)
    | cons first others =>
      have same := starts.symm.trans other.whole
      rw [textOf_cons, List.append_assoc] at same
      obtain ⟨rfl, left⟩ := text_inj same
      obtain ⟨rfl, rfl⟩ := ih ⟨rfl, run.ends⟩ ⟨left, other.ends⟩
      exact ⟨rfl, rfl⟩

theorem exists_maximalRun (text : List Char) : ∃ units rest, MaximalRun text units rest := by
  by_cases starts : ∃ (unit : StringUnit) (more : List Char), text = unit.text ++ more
  · obtain ⟨unit, more, rfl⟩ := starts
    obtain ⟨units, rest, run⟩ := exists_maximalRun more
    refine ⟨unit :: units, rest, ?_, run.ends⟩
    rw [textOf_cons, List.append_assoc, ← run.whole]
  · exact ⟨[], text, rfl, fun unit more same => starts ⟨unit, more, same⟩⟩
termination_by text.length
decreasing_by
  subst_vars
  cases unit with
  | plain => exact Nat.lt_succ_self more.length
  | escape => exact Nat.lt_add_of_pos_right (Nat.succ_pos 1)

theorem cases_of_ends {rest : List Char}
    (ends : ∀ (unit : StringUnit) (more : List Char), rest ≠ unit.text ++ more) :
    rest = [] ∨ (∃ more, rest = '"' :: more) ∨ (∃ more, rest = '\n' :: more) ∨ rest = ['\\'] := by
  match rest with
  | [] => exact .inl rfl
  | c :: more =>
    by_cases quote : c = '"'
    · exact .inr (.inl ⟨more, by rw [quote]⟩)
    by_cases line : c = '\n'
    · exact .inr (.inr (.inl ⟨more, by rw [line]⟩))
    by_cases backslash : c = '\\'
    · subst backslash
      match more with
      | [] => exact .inr (.inr (.inr rfl))
      | d :: more => exact absurd rfl (ends (.escape d) more)
    · exact absurd rfl (ends (.plain c ⟨quote, backslash, line⟩) more)

end StringUnit

namespace Lexeme
open StringUnit

def StringBody.take (body : StringBody) : StringUnit → StringBody
  | .plain _ _ => body.plain
  | .escape c => body.escape c

theorem stringFrom_textOf (units : List StringUnit) (body : StringBody) (rest : List Char) :
    stringFrom body (textOf units ++ rest) = stringFrom (units.foldl StringBody.take body) rest := by
  induction units generalizing body with
  | nil => rfl
  | cons unit units ih =>
    rw [List.foldl_cons, ← ih, textOf_cons, List.append_assoc]
    cases unit with
    | plain c ordinary =>
      show stringFrom body (c :: (textOf units ++ rest)) = _
      rw [stringFrom]
      · rfl
      · exact ordinary.1
      · exact ordinary.2.2
      · rintro rfl
        exact absurd rfl ordinary.2.1
      · rintro d more rfl
        exact absurd rfl ordinary.2.1
    | escape c => exact stringFrom.eq_5 ..

theorem foldl_take (units : List StringUnit) (body : StringBody) :
    units.foldl StringBody.take body = {
      characters := body.characters + (textOf units).length
      units := body.units + units.length
      continued := body.continued || decide ('\n' ∈ escapes units)
      badEscape := body.badEscape.or
        ((escapes units).find? fun c => !(isEscape c || c == '\n')) } := by
  induction units generalizing body with
  | nil => simp [textOf, escapes]
  | cons unit units ih =>
    rw [List.foldl_cons, ih, textOf_cons, List.length_append, List.length_cons]
    cases unit with
    | plain c ordinary =>
      simp only [StringBody.take, StringBody.plain, escapes_plain, StringBody.mk.injEq]
      exact ⟨Nat.add_assoc .., Nat.add_right_comm .., rfl, trivial⟩
    | escape c =>
      simp only [StringBody.take, StringBody.escape, escapes_escape, StringBody.mk.injEq]
      refine ⟨Nat.add_assoc .., Nat.add_right_comm .., ?_, ?_⟩
      · rw [Bool.or_assoc]
        by_cases line : c = '\n'
        · simp [line]
        · simp [beq_false_of_ne line, Ne.symm line]
      · rw [List.find?_cons]
        cases isEscape c || c == '\n' <;> simp

theorem verdict_foldl_take (units : List StringUnit) :
    match (units.foldl StringBody.take {}).verdict with
    | .ok kind => kind = .string ∧ fault? units = none
    | .error error => fault? units = some error.message := by
  rw [foldl_take, StringBody.verdict, fault?]
  simp only [Bool.false_or, Option.none_or, Nat.zero_add, decide_eq_true_eq]
  by_cases continued : '\n' ∈ escapes units
  · rw [if_pos continued, if_pos continued]
    rfl
  · rw [if_neg continued, if_neg continued]
    have legal : (escapes units).find? (fun c => !(isEscape c || c == '\n')) =
        (escapes units).find? fun c => ! ['n', 't', '"', '\\', 'f'].contains c := by
      apply List.find?_congr
      intro c member
      have noLine : c ≠ '\n' := fun same => continued (same ▸ member)
      rw [Bool.eq_iff_iff]
      simp [isEscape, noLine, and_assoc]
    rw [legal]
    cases (escapes units).find? fun c => ! ['n', 't', '"', '\\', 'f'].contains c with
    | some c => rfl
    | none =>
      dsimp only
      by_cases long : 5000 < units.length
      · rw [if_pos (show maxStringUnits < units.length from long), if_pos long]
        rfl
      · rw [if_neg (show ¬ maxStringUnits < units.length from long), if_neg long]
        exact ⟨rfl, rfl⟩

end Lexeme

namespace StringUnit

theorem placeOf_eq (before text : List Char) : placeOf before text =
    ⟨(Position.first.advance before).offset, ((Position.first.advance before).advance text).offset,
      (Position.first.advance before).line⟩ := by
  rw [← advance_append, offset_first, offset_first, line_advance]
  rfl

theorem readLexeme_eq {before after : List Char} {first : Char} {lexeme : Lexeme}
    (isLexeme : Lexeme.read first after = lexeme) :
    (Cursor.readLexeme (Position.first.advance before) first after).1 =
      match lexeme.outcome with
      | .ok kind => ⟨kind, String.ofList (first :: after.take lexeme.more),
        placeOf before (first :: after.take lexeme.more)⟩
      | .error error => ⟨.invalid, error.message,
        placeOf before (first :: after.take lexeme.more)⟩ := by
  have place := (placeOf_eq before (first :: after.take lexeme.more)).symm
  rw [Cursor.readLexeme, isLexeme]
  cases lexeme.outcome with
  | ok kind => exact congrArg (Token.mk kind _) place
  | error error => exact congrArg (Token.mk .invalid error.message) place

theorem readLexeme_tokenOf (before : List Char) {after rest : List Char} {units : List StringUnit}
    (run : MaximalRun after units rest) :
    (Cursor.readLexeme (Position.first.advance before) '"' after).1 =
      tokenOf before units rest := by
  have lexeme : Lexeme.read '"' after =
      Lexeme.stringFrom (units.foldl Lexeme.StringBody.take {}) rest := by
    rw [← Lexeme.stringFrom_textOf, ← run.whole]
    rfl
  have characters : (units.foldl Lexeme.StringBody.take {}).characters = (textOf units).length := by
    rw [Lexeme.foldl_take]
    exact Nat.zero_add _
  have verdict := Lexeme.verdict_foldl_take units
  generalize units.foldl Lexeme.StringBody.take {} = body at lexeme characters verdict
  have inside : after.take (textOf units).length = textOf units := by
    rw [run.whole, List.take_left]
  have behind : after.take ((textOf units).length + 1) = textOf units ++ rest.take 1 := by
    rw [run.whole, List.take_length_add_append]
  -- The reader stops in one of four ways, and it takes one character more at a quote or a lone
  -- backslash.
  rcases cases_of_ends run.ends with rfl | ⟨more, rfl⟩ | ⟨more, rfl⟩ | rfl
  · rw [readLexeme_eq (lexeme.trans (Lexeme.stringFrom.eq_1 body))]
    dsimp only
    rw [characters, inside, tokenOf, List.append_nil]
    · rfl
    · simp
    · simp
  · rw [readLexeme_eq (lexeme.trans (Lexeme.stringFrom.eq_2 body more))]
    dsimp only
    rw [characters, behind, tokenOf]
    split at verdict
    · obtain ⟨rfl, faultless⟩ := verdict
      rw [faultless]
      rfl
    · rw [verdict]
      rfl
  · rw [readLexeme_eq (lexeme.trans (Lexeme.stringFrom.eq_3 body more))]
    dsimp only
    rw [characters, inside]
    rfl
  · rw [readLexeme_eq (lexeme.trans (Lexeme.stringFrom.eq_4 body))]
    dsimp only
    rw [characters, behind]
    rfl

end StringUnit

/-- A token that starts at a quote is that of the string constant there. The text behind the quote
is taken apart into units in one way only, and these and what is left determine the token: it ends
behind the closing quote, or else, unterminated, at the next line feed or at the end of the text. -/
theorem string_constants {source : String} {before after : List Char} {token : Token}
    (whole : source.toList = before ++ '"' :: after) (member : token ∈ scan source)
    (start : token.span.start = (bytes before).length) :
    ∃ units rest, StringUnit.MaximalRun after units rest ∧
      (∀ others left, StringUnit.MaximalRun after others left → others = units ∧ left = rest) ∧
      token = StringUnit.tokenOf before units rest := by
  obtain ⟨units, rest, run⟩ := StringUnit.exists_maximalRun after
  refine ⟨units, rest, run, fun others left other => other.unique run, ?_⟩
  rw [lexeme_of_start whole member start]
  exact StringUnit.readLexeme_tokenOf before run

-- An escaped quote does not close a string, and `q` may not be escaped.
theorem string_constants_illegal_escape :
    scan "\"\\\"\\q\"" = [⟨.invalid, "illegal escape sequence \\q in string", ⟨0, 6, 1⟩⟩,
      ⟨.endOfInput, "", ⟨6, 6, 1⟩⟩] ∧
    ∃ units rest, StringUnit.MaximalRun ['\\', '"', '\\', 'q', '"'] units rest ∧
      (∀ others left, StringUnit.MaximalRun ['\\', '"', '\\', 'q', '"'] others left →
        others = units ∧ left = rest) ∧
      ⟨.invalid, "illegal escape sequence \\q in string", ⟨0, 6, 1⟩⟩ =
        StringUnit.tokenOf [] units rest := by
  have scanned : scan "\"\\\"\\q\"" =
      [⟨.invalid, "illegal escape sequence \\q in string", ⟨0, 6, 1⟩⟩,
        ⟨.endOfInput, "", ⟨6, 6, 1⟩⟩] := by
    rw [scan_eq 7 (by decide)]
    rfl
  have whole : "\"\\\"\\q\"".toList = [] ++ '"' :: ['\\', '"', '\\', 'q', '"'] := by decide
  refine ⟨scanned, string_constants whole ?_ rfl⟩
  rw [scanned]
  exact List.mem_cons_self

end Bantam
