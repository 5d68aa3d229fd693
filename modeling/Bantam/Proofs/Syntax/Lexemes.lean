import Bantam.Proofs.Syntax.Continuation

/-! Where tokens come from. Every token of a source text but the last is the lexeme at a character
that is not blank, read with all the text behind it. -/
namespace Bantam

theorem eq_of_length_bytes {first second : List Char} {rest more : List Char}
    (same : first ++ rest = second ++ more)
    (length : (bytes first).length = (bytes second).length) : first = second := by
  have empty (text : List Char) (none : (bytes text).length = 0) : text = [] := by
    by_contra nonempty
    exact (bytes_pos nonempty).ne' none
  rcases List.append_eq_append_iff.mp same with ⟨text, rfl, -⟩ | ⟨text, rfl, -⟩
  · rw [bytes_append, List.length_append] at length
    rw [empty text (by omega), List.append_nil]
  · rw [bytes_append, List.length_append] at length
    rw [empty text (by omega), List.append_nil]

namespace Cursor
variable {cursor : Cursor} {token : Token}

theorem lexeme_of_mem_tokens (member : token ∈ cursor.tokens) : token = cursor.endOfInput ∨
    ∃ before first rest, isBlank first = false ∧ cursor.unread = before ++ first :: rest ∧
      token = (readLexeme (cursor.position.advance before) first rest).1 := by
  fun_induction tokens cursor with
  | case1 cursor done => exact .inl (List.mem_singleton.mp member)
  | case2 cursor next behind read ih =>
    obtain ⟨blanks, text, step⟩ := step_of_next? read
    rcases List.mem_cons.mp member with rfl | later
    · obtain ⟨before, first, rest, -, solid, unread, found⟩ := next?_eq_some_iff.mp read
      exact .inr ⟨before, first, rest, solid, unread, (congrArg Prod.fst found).symm⟩
    · rcases ih later with rfl | ⟨before, first, rest, solid, unread, rfl⟩
      · exact .inl (by rw [endOfInput, endOfInput, finish_of_step step])
      · refine .inr ⟨blanks ++ text ++ before, first, rest, solid, ?_, ?_⟩
        · rw [step.unread, unread, List.append_assoc _ before]
        · rw [step.position, advance_append, advance_append]

end Cursor

theorem Cursor.outcome_of_valid {position : Position} {first : Char} {rest : List Char}
    (valid : (readLexeme position first rest).1.kind ≠ .invalid) :
    (Lexeme.read first rest).outcome = .ok (readLexeme position first rest).1.kind := by
  unfold readLexeme at valid ⊢
  dsimp only at valid ⊢
  split at valid
  · next given => rw [given]
  · contradiction

section Scan
variable {source : String} {token : Token}

theorem lexeme_of_start {before rest : List Char} {first : Char}
    (whole : source.toList = before ++ first :: rest) (member : token ∈ scan source)
    (start : token.span.start = (bytes before).length) :
    token = (Cursor.readLexeme (Position.first.advance before) first rest).1 := by
  rcases Cursor.lexeme_of_mem_tokens member with rfl | ⟨text, other, more, -, split, rfl⟩
  · have last : (bytes source.toList).length = (bytes before).length :=
      (offset_first source.toList).symm.trans start
    have positive := bytes_pos (List.cons_ne_nil first rest)
    rw [whole, bytes_append, List.length_append] at last
    omega
  · have same : source.toList = text ++ other :: more := split
    rw [(Cursor.covers_readLexeme _ other more).span] at start
    have length : (bytes text).length = (bytes before).length := (offset_first text).symm.trans start
    obtain rfl := eq_of_length_bytes (same.symm.trans whole) length
    obtain ⟨rfl, rfl⟩ := List.cons.inj (List.append_cancel_left (same.symm.trans whole))
    rfl

end Scan

namespace Lexeme

theorem kind_stringFrom {body : StringBody} {rest : List Char} {kind : Kind}
    (complete : (stringFrom body rest).outcome = .ok kind) : kind = .string := by
  fun_induction stringFrom body rest with
  | case1 | case3 | case4 => contradiction
  | case2 body =>
    dsimp only at complete
    unfold StringBody.verdict at complete
    split at complete
    · contradiction
    · split at complete
      · contradiction
      · split at complete
        · contradiction
        · exact (Except.ok.inj complete).symm
  | case5 _ _ _ ih => exact ih complete
  | case6 _ _ _ _ _ _ _ ih => exact ih complete

theorem category_sign {first : Char} {rest : List Char} {kind : Kind}
    (given : (sign first rest).outcome = .ok kind) :
    kind.category ≠ .literal ∧ kind.category ≠ .identifier := by
  revert given
  fun_cases sign first rest
  case case7 =>
    unfold blockComment
    split
    · rintro ⟨⟩
      decide
    · rintro ⟨⟩
  all_goals rintro ⟨⟩ <;> decide

/-- The rule by which a kind of token is read at a character. -/
inductive ReadBy (first : Char) (rest : List Char) : Kind → Prop
  | word {kind : Kind} (letter : isLetter first = true)
      (isRead : read first rest = Lexeme.word first rest)
      (isWord : kind = .boolean ∨ kind = .identifier) : ReadBy first rest kind
  | integer (digit : isDigit first = true)
      (isRead : read first rest = Lexeme.integer first rest) : ReadBy first rest .integer
  | string (quote : first = '"') : ReadBy first rest .string
  | sign {kind : Kind} (noLiteral : kind.category ≠ .literal)
      (noWord : kind.category ≠ .identifier) : ReadBy first rest kind

theorem readBy_of_outcome {first : Char} {rest : List Char} {kind : Kind}
    (given : (read first rest).outcome = .ok kind) : ReadBy first rest kind := by
  unfold read at given
  split at given
  · next letter =>
    refine .word letter (if_pos letter) ?_
    dsimp only [Lexeme.word] at given
    split at given <;> cases given
    · exact .inl rfl
    · exact .inr rfl
  · next noLetter =>
    split at given
    · next digit =>
      have isRead : read first rest = Lexeme.integer first rest := by
        rw [read, if_neg noLetter, if_pos digit]
      dsimp only [Lexeme.integer] at given
      split at given
      · cases given
        exact .integer digit isRead
      · contradiction
    · split at given
      · next quote =>
        obtain rfl := kind_stringFrom given
        exact .string quote
      · exact .sign (category_sign given).1 (category_sign given).2

end Lexeme

section Scan
variable {source : String} {token : Token}

/-- A valid token but the last is read at a character, and spelled like the text there. -/
theorem lexeme_of_scan (member : token ∈ scan source) (valid : token.kind ≠ .invalid)
    (inner : token.kind ≠ .endOfInput) : ∃ first rest,
      (Lexeme.read first rest).outcome = .ok token.kind ∧
        token.spelling.toList = first :: rest.take (Lexeme.read first rest).more := by
  rcases Cursor.lexeme_of_mem_tokens member with rfl | ⟨before, first, rest, -, -, rfl⟩
  · contradiction
  · refine ⟨first, rest, Cursor.outcome_of_valid valid, ?_⟩
    rw [(Cursor.covers_readLexeme _ first rest).spelling valid, String.toList_ofList]

theorem isWordPart_of_scan (member : token ∈ scan source) (isWord : token.kind = .identifier) :
    ∀ c ∈ token.spelling.toList, isWordPart c = true := by
  obtain ⟨first, rest, given, spelled⟩ :=
    lexeme_of_scan member (by simp [isWord]) (by simp [isWord])
  rw [isWord] at given
  rw [spelled]
  cases Lexeme.readBy_of_outcome given with
  | sign _ noWord => contradiction
  | word letter isRead =>
    refine List.forall_mem_cons.mpr ⟨?_, fun c inside => ?_⟩
    · rw [isWordPart, letter]
      rfl
    · rw [isRead] at inside
      dsimp only [Lexeme.word] at inside
      rw [take_length_takeWhile] at inside
      exact List.mem_takeWhile_imp inside

end Scan

end Bantam
