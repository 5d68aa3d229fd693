import Bantam.Proofs.Syntax.Lossless
import Bantam.Proofs.Syntax.ProgramRelocation
import Bantam.Proofs.Syntax.Reports

/-! Texts that go on after a line feed. A valid token at the end of a text is complete, and a line
feed ends every token that could have been longer. So the tokens of a valid text remain as they are,
and those of the other text follow them, at places that are shifted by what comes before. -/
namespace Bantam

theorem takeWhile_line {p : Char → Bool} (stops : p '\n' = false) (rest more : List Char) :
    (rest ++ '\n' :: more).takeWhile p = rest.takeWhile p := by
  induction rest with
  | nil => simp [stops]
  | cons c rest ih => simp only [List.cons_append, List.takeWhile_cons, ih]

namespace Lexeme

-- A lexeme takes no more characters than there are.
theorem more_stringFrom (body : StringBody) (rest : List Char) :
    (stringFrom body rest).more ≤ body.characters + rest.length := by
  fun_induction stringFrom body rest with
  | case1 => exact Nat.le_refl _
  | case2 | case3 | case4 => simp
  | case5 body c rest ih =>
    simp only [StringBody.escape, List.length_cons] at ih ⊢
    omega
  | case6 body c rest _ _ _ _ ih =>
    simp only [StringBody.plain, List.length_cons] at ih ⊢
    omega

theorem blockEnd?_le {text : List Char} {length : Nat} (found : blockEnd? text = some length) :
    length ≤ text.length := by
  fun_induction blockEnd? text generalizing length with
  | case1 => cases found; simp
  | case2 c rest _ ih =>
    obtain ⟨shorter, isShorter, rfl⟩ := Option.map_eq_some_iff.mp found
    exact Nat.succ_le_succ (ih isShorter)
  | case3 => contradiction

theorem more_sign (first : Char) (rest : List Char) : (sign first rest).more ≤ rest.length := by
  fun_cases sign first rest
  case case6 text =>
    have taken := (text.takeWhile_prefix (· != '\n')).length_le
    simp only [List.length_cons]
    omega
  case case7 text =>
    unfold blockComment
    split
    · next length found =>
      have := blockEnd?_le found
      simp only [List.length_cons]
      omega
    · simp only [List.length_cons]
      omega
  all_goals simp

theorem more_read (first : Char) (rest : List Char) : (read first rest).more ≤ rest.length := by
  unfold read
  split
  · exact (rest.takeWhile_prefix _).length_le
  · split
    · exact (rest.takeWhile_prefix _).length_le
    · split
      · exact (more_stringFrom {} rest).trans (Nat.zero_add _).le
      · exact more_sign first rest

-- A valid lexeme is the same where the text goes on after a line feed.
/-- A sign that starts no comment is told by one more character at most. -/
theorem sign_cons {first next : Char} (line : (first, next) ≠ ('/', '/'))
    (block : (first, next) ≠ ('/', '*')) (rest other : List Char) :
    sign first (next :: rest) = sign first (next :: other) := by
  unfold sign
  split <;> simp_all

theorem sign_nil (first : Char) (more : List Char) :
    sign first ('\n' :: more) = sign first [] := by
  unfold sign
  split <;> simp_all

theorem blockEnd?_append {rest : List Char} {length : Nat} (found : blockEnd? rest = some length)
    (more : List Char) : blockEnd? (rest ++ more) = some length := by
  fun_induction blockEnd? rest generalizing length with
  | case1 => cases found; rfl
  | case2 c rest going ih =>
    obtain ⟨shorter, isShorter, rfl⟩ := Option.map_eq_some_iff.mp found
    have going' : ∀ text, c = '*' → rest ++ more = '/' :: text → False := by
      intro text star slash
      cases rest with
      | nil => contradiction
      | cons next rest => exact going rest star (by rw [(List.cons.inj slash).1])
    rw [List.cons_append, blockEnd?.eq_2 _ _ going', ih isShorter]
    rfl
  | case3 => contradiction

variable {kind : Kind}

theorem blockComment_append {rest : List Char} (valid : (blockComment rest).outcome = .ok kind)
    (more : List Char) : blockComment (rest ++ more) = blockComment rest := by
  unfold blockComment at valid ⊢
  cases found : blockEnd? rest with
  | none =>
    rw [found] at valid
    contradiction
  | some length => rw [blockEnd?_append found]

theorem stringFrom_append {body : StringBody} {rest : List Char}
    (valid : (stringFrom body rest).outcome = .ok kind) (more : List Char) :
    stringFrom body (rest ++ more) = stringFrom body rest := by
  fun_induction stringFrom body rest with
  | case1 | case3 | case4 => contradiction
  | case2 => rfl
  | case5 body c rest ih => exact ih valid
  | case6 body c rest noQuote noLine noEnd noEscape ih =>
    rw [List.cons_append, stringFrom.eq_6 _ _ _ noQuote noLine, ih valid]
    · rintro rfl none
      obtain ⟨rfl, -⟩ := List.append_eq_nil_iff.mp none
      exact noEnd rfl rfl
    · rintro next text rfl escape
      cases rest with
      | nil => exact noEnd rfl rfl
      | cons other rest => exact noEscape other rest rfl rfl

theorem sign_append {first : Char} {rest : List Char}
    (valid : (sign first rest).outcome = .ok kind) (more : List Char) :
    sign first (rest ++ '\n' :: more) = sign first rest := by
  cases rest with
  | nil => exact sign_nil first more
  | cons next rest =>
    by_cases line : (first, next) = ('/', '/')
    · obtain ⟨rfl, rfl⟩ := Prod.mk.inj line
      show Lexeme.mk _ (1 + ((rest ++ '\n' :: more).takeWhile (· != '\n')).length) = _
      rw [takeWhile_line (by decide)]
      rfl
    · by_cases block : (first, next) = ('/', '*')
      · obtain ⟨rfl, rfl⟩ := Prod.mk.inj block
        exact @blockComment_append kind rest valid _
      · exact sign_cons line block _ _

theorem read_append {first : Char} {rest : List Char}
    (valid : (read first rest).outcome = .ok kind) (more : List Char) :
    read first (rest ++ '\n' :: more) = read first rest := by
  unfold read at valid ⊢
  split
  · rw [word, word, takeWhile_line (by decide)]
  · next noLetter =>
    rw [if_neg noLetter] at valid
    split
    · rw [integer, integer, takeWhile_line (by decide)]
    · next noDigit =>
      rw [if_neg noDigit] at valid
      split
      · next quote =>
        rw [if_pos quote] at valid
        exact stringFrom_append valid _
      · next noQuote =>
        rw [if_neg noQuote] at valid
        exact sign_append valid more

end Lexeme

namespace Cursor
variable {cursor behind : Cursor} {token : Token}

theorem tokens_of_none (done : cursor.next? = none) : cursor.tokens = [cursor.endOfInput] := by
  rw [tokens]
  split
  · rfl
  · next read => rw [done] at read; contradiction

theorem tokens_of_some (read : cursor.next? = some (token, behind)) :
    cursor.tokens = token :: behind.tokens := by
  rw [tokens]
  split
  · next done => rw [done] at read; contradiction
  · next other further found =>
    cases found.symm.trans read
    rfl

theorem tokens_ne_nil (cursor : Cursor) : cursor.tokens ≠ [] := by
  rw [tokens]
  split <;> exact List.cons_ne_nil _ _

theorem finish_of_step {blanks text : List Char} (step : cursor.Step token behind blanks text) :
    behind.finish = cursor.finish := by
  rw [finish, finish, step.unread, step.position, advance_append, advance_append]

/-- The cursor in a text that goes on after a line feed. -/
def goingOn (cursor : Cursor) (more : List Char) : Cursor :=
  ⟨cursor.position, cursor.unread ++ '\n' :: more⟩

theorem readLexeme_goingOn {position : Position} {first : Char} {rest : List Char}
    (valid : (readLexeme position first rest).1.kind ≠ .invalid) (more : List Char) :
    readLexeme position first (rest ++ '\n' :: more) =
      ((readLexeme position first rest).1, (readLexeme position first rest).2.goingOn more) := by
  have enough := Lexeme.more_read first rest
  cases outcome : (Lexeme.read first rest).outcome with
  | error error =>
    rw [readLexeme, outcome] at valid
    contradiction
  | ok kind =>
    rw [readLexeme, readLexeme, Lexeme.read_append outcome, List.take_append_of_le_length enough,
      List.drop_append_of_le_length enough]
    rfl

/-- What is read next starts at the first character that is not blank. -/
theorem next?_eq_some_iff {result : Token × Cursor} : cursor.next? = some result ↔
    ∃ blanks first rest, (∀ c ∈ blanks, isBlank c = true) ∧ isBlank first = false ∧
      cursor.unread = blanks ++ first :: rest ∧
      readLexeme (cursor.position.advance blanks) first rest = result := by
  constructor
  · intro read
    unfold next? at read
    split at read
    · contradiction
    · next first rest found =>
      refine ⟨_, first, rest, blank_of_takeWhile, ?_, ?_, Option.some.inj read⟩
      · have solid := List.head?_dropWhile_not isBlank cursor.unread
        rwa [found, List.head?_cons] at solid
      · rw [← found, List.takeWhile_append_dropWhile]
  · rintro ⟨blanks, first, rest, blank, solid, unread, rfl⟩
    simp only [next?, unread, List.takeWhile_append_of_pos blank,
      List.dropWhile_append_of_pos blank, List.takeWhile_cons, List.dropWhile_cons, solid,
      Bool.false_eq_true, if_false, List.append_nil]

theorem next?_goingOn (read : cursor.next? = some (token, behind))
    (valid : token.kind ≠ .invalid) (more : List Char) :
    (cursor.goingOn more).next? = some (token, behind.goingOn more) := by
  obtain ⟨blanks, first, rest, blank, solid, unread, found⟩ := next?_eq_some_iff.mp read
  have isToken : (readLexeme (cursor.position.advance blanks) first rest).1 = token :=
    congrArg Prod.fst found
  refine next?_eq_some_iff.mpr ⟨blanks, first, rest ++ '\n' :: more, blank, solid, ?_, ?_⟩
  · show cursor.unread ++ _ = _
    rw [unread, List.append_assoc, List.cons_append]
  · show readLexeme (cursor.position.advance blanks) first _ = _
    rw [readLexeme_goingOn (isToken ▸ valid), found]

theorem tokens_skip {blanks : List Char} (blank : ∀ c ∈ blanks, isBlank c = true)
    (position : Position) (text : List Char) :
    (⟨position, blanks ++ text⟩ : Cursor).tokens =
      (⟨position.advance blanks, text⟩ : Cursor).tokens := by
  have next : (⟨position, blanks ++ text⟩ : Cursor).next? =
      (⟨position.advance blanks, text⟩ : Cursor).next? := by
    simp only [next?, List.takeWhile_append_of_pos blank, List.dropWhile_append_of_pos blank,
      advance_append]
  cases read : (⟨position.advance blanks, text⟩ : Cursor).next? with
  | none =>
    rw [tokens_of_none read, tokens_of_none (next.trans read), endOfInput, endOfInput, finish,
      finish, advance_append]
  | some pair => rw [tokens_of_some read, tokens_of_some (next.trans read)]

/-- The tokens of a valid text stay when it goes on, up to the end of input. -/
theorem tokens_goingOn (valid : AllValid cursor.tokens) (more : List Char) :
    (cursor.goingOn more).tokens =
      cursor.tokens.dropLast ++ (⟨cursor.finish.step '\n', more⟩ : Cursor).tokens := by
  fun_induction tokens cursor with
  | case1 cursor done =>
    have blank := blank_of_next?_eq_none done
    have split : cursor.goingOn more = ⟨cursor.position, (cursor.unread ++ ['\n']) ++ more⟩ := by
      rw [goingOn, List.append_assoc]
      rfl
    rw [split, tokens_skip, advance_append]
    · rfl
    · exact List.forall_mem_append.mpr ⟨blank, List.forall_mem_singleton.mpr (by decide)⟩
  | case2 cursor token behind read ih =>
    obtain ⟨validToken, validRest⟩ := allValid_cons.mp valid
    obtain ⟨blanks, text, step⟩ := step_of_next? read
    rw [tokens_of_some (next?_goingOn read validToken more), ih validRest, finish_of_step step]
    rw [List.dropLast_cons_of_ne_nil (tokens_ne_nil behind), List.cons_append]

end Cursor

/-- Everything stands this many bytes and lines further on. -/
def Relocation.shift (bytes lines : Nat) : Relocation where
  move := fun span => ⟨span.start + bytes, span.stop + bytes, span.line + lines⟩
  merge := by
    intro left right
    simp only [Span.merge, Nat.add_min_add_right, Nat.add_max_add_right, Nat.add_le_add_iff_right]
    split <;> rfl
  behind := []

def Position.shift (bytes lines : Nat) (position : Position) : Position :=
  ⟨position.offset + bytes, position.line + lines⟩

theorem line_advance (position : Position) (text : List Char) :
    (position.advance text).line = position.line + text.count '\n' := by
  induction text generalizing position with
  | nil => rfl
  | cons c rest ih =>
    show ((position.step c).advance rest).line = _
    rw [ih, List.count_cons, Position.step]
    by_cases line : c = '\n'
    · simp only [line, if_true, beq_self_eq_true]
      omega
    · simp [line]

/-- To pass a text is to shift by its bytes and its lines. -/
theorem advance_eq_shift (position : Position) (text : List Char) :
    position.advance text = position.shift (bytes text).length (text.count '\n') :=
  congrArg₂ Position.mk (offset_advance position text) (line_advance position text)

section Shifts
variable {byteCount lines : Nat}

theorem advance_shift (position : Position) (text : List Char) :
    (position.shift byteCount lines).advance text =
      (position.advance text).shift byteCount lines := by
  rw [advance_eq_shift, advance_eq_shift]
  exact congrArg₂ Position.mk (Nat.add_right_comm ..) (Nat.add_right_comm ..)

namespace Cursor

def shift (bytes lines : Nat) (cursor : Cursor) : Cursor :=
  ⟨cursor.position.shift bytes lines, cursor.unread⟩

theorem endOfInput_shift (cursor : Cursor) : (cursor.shift byteCount lines).endOfInput =
    (Relocation.shift byteCount lines).token cursor.endOfInput := by
  rw [endOfInput, finish, shift, advance_shift]
  rfl

theorem readLexeme_shift (position : Position) (first : Char) (rest : List Char) :
    readLexeme (position.shift byteCount lines) first rest =
      ((Relocation.shift byteCount lines).token (readLexeme position first rest).1,
        (readLexeme position first rest).2.shift byteCount lines) := by
  simp only [readLexeme, advance_shift]
  cases (Lexeme.read first rest).outcome <;> rfl

theorem next?_shift (cursor : Cursor) : (cursor.shift byteCount lines).next? =
    cursor.next?.map (Prod.map (Relocation.shift byteCount lines).token
      (shift byteCount lines)) := by
  have unread : (cursor.shift byteCount lines).unread = cursor.unread := rfl
  simp only [next?, unread]
  cases cursor.unread.dropWhile isBlank with
  | nil => rfl
  | cons first rest =>
    show some (readLexeme ((cursor.position.shift byteCount lines).advance _) first rest) = some _
    rw [advance_shift, readLexeme_shift]
    rfl

theorem tokens_shift (cursor : Cursor) : (cursor.shift byteCount lines).tokens =
    cursor.tokens.map (Relocation.shift byteCount lines).token := by
  fun_induction tokens cursor with
  | case1 cursor done =>
    have done' := @next?_shift byteCount lines cursor
    rw [done] at done'
    rw [tokens_of_none done', endOfInput_shift]
    rfl
  | case2 cursor token behind read ih =>
    have read' := @next?_shift byteCount lines cursor
    rw [read] at read'
    rw [tokens_of_some read', ih]
    rfl

end Cursor

end Shifts

end Bantam
