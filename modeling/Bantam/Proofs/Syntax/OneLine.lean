import Bantam.Proofs.Syntax.Places

/-! Texts on one line. Every token is spelled on one line, unless it is a comment: no rule but those
for comments goes on behind a line feed, and no reason why there is no token names one. -/
namespace Bantam

/-- There is no line feed in the text. -/
def OnOneLine (text : String) : Prop := '\n' ∉ text.toList

instance (text : String) : Decidable (OnOneLine text) :=
  inferInstanceAs (Decidable ('\n' ∉ text.toList))

@[simp] theorem onOneLine_append {first second : String} :
    OnOneLine (first ++ second) ↔ OnOneLine first ∧ OnOneLine second := by
  simp [OnOneLine]

@[simp] theorem onOneLine_toString {text : String} : OnOneLine (toString text) ↔ OnOneLine text :=
  Iff.rfl

theorem onOneLine_ofList {text : List Char} : OnOneLine (String.ofList text) ↔ '\n' ∉ text := by
  simp [OnOneLine]

theorem onOneLine_char {c : Char} : OnOneLine (toString c) ↔ c ≠ '\n' := by
  rw [OnOneLine, show (toString c).toList = [c] from String.toList_singleton c,
    List.mem_singleton, ne_comm, Ne]

theorem lineFeed_notMem_takeWhile {p : Char → Bool} (stops : p '\n' = false) (text : List Char) :
    '\n' ∉ text.takeWhile p := by
  intro member
  rw [List.mem_takeWhile_imp member] at stops
  contradiction

namespace LexicalError

theorem onOneLine_message {error : LexicalError}
    (unsupported : ∀ c, error = .unsupportedCharacter c → c ≠ '\n')
    (escaped : ∀ c, error = .illegalEscape c → c ≠ '\n') : OnOneLine error.message := by
  unfold message summary
  cases error with
  | unsupportedCharacter c =>
    simp only [onOneLine_append, onOneLine_char]
    exact ⟨⟨by decide, unsupported c rfl⟩, by decide⟩
  | illegalEscape c =>
    simp only [onOneLine_append, onOneLine_char]
    exact ⟨⟨by decide, escaped c rfl⟩, by decide⟩
  | _ => decide

end LexicalError

namespace Lexeme

/-- What is said of the lexeme stands on one line: its error, or its text if it is no comment. -/
def Inline (first : Char) (rest : List Char) (lexeme : Lexeme) : Prop :=
  match lexeme.outcome with
  | .ok kind => kind ≠ .comment → '\n' ∉ first :: rest.take lexeme.more
  | .error error => OnOneLine error.message

theorem ne_lineFeed {p : Char → Bool} {c : Char} (stops : p '\n' = false) (holds : p c = true) :
    c ≠ '\n' := by
  rintro rfl
  rw [stops] at holds
  contradiction

theorem inline_word {first : Char} (letter : isLetter first = true) (rest : List Char) :
    (word first rest).Inline first rest := by
  intro _
  dsimp only [word]
  rw [take_length_takeWhile, List.mem_cons, not_or]
  exact ⟨(ne_lineFeed rfl letter).symm, lineFeed_notMem_takeWhile rfl rest⟩

theorem inline_integer {first : Char} (digit : isDigit first = true) (rest : List Char) :
    (integer first rest).Inline first rest := by
  unfold Inline
  split
  · intro _
    dsimp only [integer]
    rw [take_length_takeWhile, List.mem_cons, not_or]
    exact ⟨(ne_lineFeed rfl digit).symm, lineFeed_notMem_takeWhile rfl rest⟩
  · next error failed =>
    dsimp only [integer] at failed
    split at failed
    · contradiction
    · cases failed
      decide

/-- A string that is complete takes a quote and then no line feed; one that is not names none. -/
theorem inline_stringFrom (body : StringBody) (rest : List Char)
    (escaped : ∀ c, body.badEscape = some c → c ≠ '\n') :
    match (stringFrom body rest).outcome with
    | .ok _ => body.continued = false ∧
      ∃ more, (stringFrom body rest).more = body.characters + more ∧ '\n' ∉ rest.take more
    | .error error => OnOneLine error.message := by
  fun_induction stringFrom body rest with
  | case1 | case3 | case4 => dsimp only; decide
  | case2 body rest =>
    unfold StringBody.verdict
    dsimp only
    split
    · next kind given =>
      split at given
      · contradiction
      · next goesOn =>
        exact ⟨Bool.eq_false_iff.mpr goesOn, 1, rfl, by simp⟩
    · next error given =>
      split at given
      · cases given
        decide
      split at given
      · next c bad =>
        cases given
        exact LexicalError.onOneLine_message (by simp)
          fun _ same => by cases same; exact escaped c bad
      split at given
      · cases given
        decide
      · contradiction
  | case5 body c rest ih =>
    have bad : ∀ d, (body.escape c).badEscape = some d → d ≠ '\n' := by
      intro d bad
      dsimp only [StringBody.escape] at bad
      split at bad
      · exact escaped d bad
      · next illegal =>
        cases earlier : body.badEscape with
        | some e =>
          rw [earlier] at bad
          cases bad
          exact escaped _ earlier
        | none =>
          rw [earlier] at bad
          cases bad
          rintro rfl
          simp at illegal
    have complete := ih bad
    revert complete
    split
    · rintro ⟨goesOn, more, length, free⟩
      have characters : (body.escape c).characters = body.characters + 2 := rfl
      simp only [StringBody.escape, Bool.or_eq_false_iff, beq_eq_false_iff_ne] at goesOn
      refine ⟨goesOn.1, more + 2, by omega, ?_⟩
      simp [free, Ne.symm goesOn.2]
    · exact id
  | case6 body c rest _ isLine _ _ ih =>
    have complete := ih escaped
    revert complete
    split
    · rintro ⟨goesOn, more, length, free⟩
      have characters : body.plain.characters = body.characters + 1 := rfl
      refine ⟨goesOn, more + 1, by omega, ?_⟩
      have plain : '\n' ≠ c := fun same => isLine same.symm
      simp [free, plain]
    · exact id

theorem inline_string (rest : List Char) : (stringFrom {} rest).Inline '"' rest := by
  have complete := inline_stringFrom {} rest (by simp)
  unfold Inline
  revert complete
  split
  · rintro ⟨-, more, length, free⟩ -
    rw [length, Nat.zero_add]
    simp [free]
  · exact id

theorem inline_sign {first : Char} (isInside : first ≠ '\n') (rest : List Char) :
    (sign first rest).Inline first rest := by
  fun_cases sign first rest
  case case6 => exact fun isText => absurd rfl isText
  case case7 text =>
    unfold blockComment
    split
    · exact fun isText => absurd rfl isText
    · exact (by decide : OnOneLine LexicalError.unterminatedComment.message)
  case case30 =>
    exact LexicalError.onOneLine_message (fun _ same => by cases same; exact isInside)
      (by simp)
  all_goals
    intro _
    simp

theorem inline_read {first : Char} (isInside : first ≠ '\n') (rest : List Char) :
    (read first rest).Inline first rest := by
  unfold read
  split
  · next letter => exact inline_word letter rest
  split
  · next digit => exact inline_integer digit rest
  split
  · next quote =>
    subst quote
    exact inline_string rest
  · exact inline_sign isInside rest

end Lexeme

namespace Cursor

theorem onOneLine_readLexeme (position : Position) {first : Char} (isInside : first ≠ '\n')
    (rest : List Char) (noComment : (readLexeme position first rest).1.kind ≠ .comment) :
    OnOneLine (readLexeme position first rest).1.spelling := by
  have inline := Lexeme.inline_read isInside rest
  unfold Lexeme.Inline at inline
  unfold readLexeme at noComment ⊢
  dsimp only at noComment ⊢
  split at noComment
  · next kind given =>
    rw [given] at inline
    exact onOneLine_ofList.mpr (inline noComment)
  · next error given =>
    rw [given] at inline
    exact inline

theorem onOneLine_tokens (cursor : Cursor) :
    ∀ token ∈ cursor.tokens, token.kind ≠ .comment → OnOneLine token.spelling := by
  fun_induction tokens cursor with
  | case1 cursor done =>
    refine List.forall_mem_singleton.mpr fun _ => ?_
    exact (by decide : OnOneLine "")
  | case2 cursor token behind read ih =>
    refine List.forall_mem_cons.mpr ⟨fun noComment => ?_, ih⟩
    unfold next? at read
    split at read
    · contradiction
    · next first rest found =>
      obtain ⟨rfl, -⟩ := Prod.mk.inj (Option.some.inj read)
      refine onOneLine_readLexeme _ ?_ rest noComment
      rintro rfl
      have notBlank := List.head?_dropWhile_not isBlank cursor.unread
      rw [found] at notBlank
      contradiction

end Cursor

/-- Every token is spelled on one line, unless it is a comment. -/
theorem onOneLine_scan {source : String} {token : Token} (member : token ∈ scan source)
    (noComment : token.kind ≠ .comment) : OnOneLine token.spelling :=
  Cursor.onOneLine_tokens _ token member noComment

end Bantam
