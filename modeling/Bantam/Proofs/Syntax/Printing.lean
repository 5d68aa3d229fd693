import Bantam.Proofs.Syntax.Concatenation
import Bantam.Proofs.Syntax.Lexemes
import Bantam.Proofs.Syntax.Scanning

/-! Printing tokens. A valid lexeme needs nothing of the text behind it, so the spelling of a token
is read as this token alone. Spellings that are written one on a line are read as the tokens that
they were taken from. -/
namespace Bantam

namespace Lexeme
variable {kind : Kind}

-- A valid lexeme is the same where the text ends with it.
theorem takeWhile_take (p : Char → Bool) (text : List Char) :
    (text.take (text.takeWhile p).length).takeWhile p = text.takeWhile p := by
  rw [take_length_takeWhile, List.takeWhile_eq_self_iff]
  exact fun c inside => List.mem_takeWhile_imp inside

theorem stringFrom_take {body : StringBody} {rest : List Char}
    (valid : (stringFrom body rest).outcome = .ok kind) :
    ∃ taken, (stringFrom body rest).more = body.characters + taken ∧
      stringFrom body (rest.take taken) = stringFrom body rest := by
  fun_induction stringFrom body rest with
  | case1 | case3 | case4 => contradiction
  | case2 => exact ⟨1, rfl, rfl⟩
  | case5 body c rest ih =>
    obtain ⟨taken, more, same⟩ := ih valid
    exact ⟨2 + taken, more.trans (Nat.add_assoc ..), by rw [Nat.add_comm 2]; exact same⟩
  | case6 body c rest noQuote noLine noEnd noEscape ih =>
    obtain ⟨taken, more, same⟩ := ih valid
    have noBackslash : c ≠ '\\' := by
      rintro rfl
      cases rest with
      | nil => exact noEnd rfl rfl
      | cons next rest => exact noEscape next rest rfl rfl
    refine ⟨1 + taken, more.trans (Nat.add_assoc ..), ?_⟩
    rw [Nat.add_comm 1, List.take_succ_cons, stringFrom.eq_6 _ _ _ noQuote noLine, same]
    · exact fun backslash _ => noBackslash backslash
    · exact fun _ _ backslash _ => noBackslash backslash

theorem blockEnd?_take {text : List Char} {length : Nat} (found : blockEnd? text = some length) :
    blockEnd? (text.take length) = some length := by
  fun_induction blockEnd? text generalizing length with
  | case1 => cases found; rfl
  | case2 c rest going ih =>
    obtain ⟨shorter, isShorter, rfl⟩ := Option.map_eq_some_iff.mp found
    have going' : ∀ text, c = '*' → rest.take shorter = '/' :: text → False := by
      intro text star slash
      cases rest with
      | nil => simp at slash
      | cons next rest =>
        cases shorter with
        | zero => contradiction
        | succ shorter => exact going rest star (by rw [(List.cons.inj slash).1])
    rw [List.take_succ_cons, blockEnd?.eq_2 _ _ going', ih isShorter]
    rfl
  | case3 => contradiction

theorem blockComment_take {text : List Char} (valid : (blockComment text).outcome = .ok kind) :
    ∃ taken, (blockComment text).more = 1 + taken ∧
      blockComment (text.take taken) = blockComment text := by
  unfold blockComment at valid ⊢
  cases found : blockEnd? text with
  | none =>
    rw [found] at valid
    contradiction
  | some length => exact ⟨length, rfl, by rw [blockEnd?_take found]⟩

theorem sign_take {first : Char} {rest : List Char}
    (valid : (sign first rest).outcome = .ok kind) :
    sign first (rest.take (sign first rest).more) = sign first rest := by
  fun_cases sign first rest
  case case6 text =>
    show sign '/' (('/' :: text).take (1 + (text.takeWhile (· != '\n')).length)) = _
    rw [Nat.add_comm, List.take_succ_cons]
    show Lexeme.mk _ (1 + ((text.take _).takeWhile _).length) = _
    rw [takeWhile_take, Nat.add_comm]
  case case7 text =>
    obtain ⟨taken, more, same⟩ := @blockComment_take kind text valid
    rw [more, Nat.add_comm, List.take_succ_cons]
    exact same
  case case30 =>
    rw [sign.eq_30] at valid
    · contradiction
    all_goals assumption
  all_goals rfl

theorem read_take {first : Char} {rest : List Char}
    (valid : (read first rest).outcome = .ok kind) :
    read first (rest.take (read first rest).more) = read first rest := by
  unfold read at valid ⊢
  split
  · simp only [word, takeWhile_take]
  · next noLetter =>
    rw [if_neg noLetter] at valid
    split
    · simp only [integer, takeWhile_take]
    · next noDigit =>
      rw [if_neg noDigit] at valid
      split
      · next quote =>
        rw [if_pos quote] at valid
        obtain ⟨taken, more, same⟩ := stringFrom_take valid
        rw [more, Nat.zero_add, same]
      · next noQuote =>
        rw [if_neg noQuote] at valid
        exact sign_take valid

end Lexeme

def Token.face (token : Token) : Kind × String := (token.kind, token.spelling)

def faces (source : String) : List (Kind × String) := (scan source).map Token.face

theorem faces_tokens {relocation : Relocation} (alone : relocation.behind = [])
    (tokens : List Token) : (relocation.tokens tokens).map Token.face = tokens.map Token.face := by
  rw [Relocation.tokens_eq_map alone, List.map_map]
  rfl

/-- The spellings of some tokens, one on a line. -/
def printed (tokens : List Token) : String := "\n".intercalate (tokens.map Token.spelling)

/-- The token is what is read where its spelling stands alone. -/
structure Token.Lexical (token : Token) : Prop where
  valid : token.kind ≠ .invalid
  alone : faces token.spelling = [token.face, (.endOfInput, "")]

theorem allValid_iff_face {tokens : List Token} :
    AllValid tokens ↔ ∀ face ∈ tokens.map Token.face, face.1 ≠ .invalid := by
  simp [AllValid, Token.face]

namespace Token.Lexical
variable {token : Token}

theorem allValid (lexical : token.Lexical) : AllValid (scan token.spelling) := by
  rw [allValid_iff_face, ← faces, lexical.alone]
  simpa [face] using lexical.valid

theorem dropLast (lexical : token.Lexical) :
    (scan token.spelling).dropLast.map face = [token.face] := by
  rw [List.map_dropLast, ← faces, lexical.alone]
  rfl

end Token.Lexical

theorem faces_printed {tokens : List Token} (lexical : ∀ token ∈ tokens, token.Lexical) :
    faces (printed tokens) = tokens.map Token.face ++ [(.endOfInput, "")] := by
  induction tokens with
  | nil =>
    rw [faces, scan_eq 1 (by decide)]
    rfl
  | cons token rest ih =>
    obtain ⟨first, others⟩ := List.forall_mem_cons.mp lexical
    cases rest with
    | nil => exact first.alone
    | cons next rest =>
      have split : printed (token :: next :: rest) =
          token.spelling ++ "\n" ++ printed (next :: rest) := String.intercalate_cons_cons
      rw [faces, split, scan_append first.allValid, List.map_append, first.dropLast,
        faces_tokens rfl]
      exact congrArg _ (ih others)

namespace Cursor

theorem readLexeme_take {first : Char} {rest : List Char} {kind : Kind}
    (valid : (Lexeme.read first rest).outcome = .ok kind) (position start : Position) :
    (readLexeme start first (rest.take (Lexeme.read first rest).more)).1.face =
        (readLexeme position first rest).1.face ∧
      (readLexeme start first (rest.take (Lexeme.read first rest).more)).2.unread = [] := by
  rw [readLexeme, readLexeme, Lexeme.read_take valid, List.take_take, Nat.min_self, valid]
  exact ⟨rfl, List.drop_eq_nil_of_le (List.length_take_le ..)⟩

theorem lexical_readLexeme {position : Position} {first : Char} {rest : List Char}
    (solid : isBlank first = false)
    (valid : (readLexeme position first rest).1.kind ≠ .invalid) :
    (readLexeme position first rest).1.Lexical := by
  refine ⟨valid, ?_⟩
  cases outcome : (Lexeme.read first rest).outcome with
  | error error =>
    rw [readLexeme, outcome] at valid
    contradiction
  | ok kind =>
    obtain ⟨same, nothing⟩ := readLexeme_take outcome position .first
    have spelled := (covers_readLexeme position first rest).spelling valid
    have read : (Cursor.ofText (readLexeme position first rest).1.spelling).next? =
        some (readLexeme .first first (rest.take (Lexeme.read first rest).more)) := by
      rw [spelled, ofText, String.toList_ofList]
      exact next?_eq_some_iff.mpr ⟨[], first, _, by simp, solid, rfl, rfl⟩
    generalize readLexeme .first first _ = result at same nothing read
    obtain ⟨again, behind⟩ := result
    have done : behind.next? = none := by
      rw [next?, nothing]
      rfl
    rw [faces, scan, tokens_of_some read, tokens_of_none done, List.map_cons, same]
    rfl

end Cursor

section Scan
variable {source : String}

/-- A token of a text is read again where its spelling stands alone. -/
theorem lexical_of_mem_scan {token : Token} (member : token ∈ scan source)
    (valid : token.kind ≠ .invalid) (inner : token.kind ≠ .endOfInput) : token.Lexical := by
  rcases Cursor.lexeme_of_mem_tokens member with rfl | ⟨before, first, rest, solid, -, rfl⟩
  · contradiction
  · exact Cursor.lexical_readLexeme solid valid

/-- The spellings of the tokens of a valid text, one on a line, are read as the same tokens, and
nothing is reported. -/
theorem scan_printed (valid : AllValid (scan source)) (file : String) :
    let text := printed ((scan source).filter (·.kind != .endOfInput))
    faces text = faces source ∧ lexicalDiagnostics file (scan text) = [] := by
  intro text
  obtain ⟨read, line, whole, inner⟩ := (lossless_scan source).finish
  have inside : (scan source).filter (·.kind != .endOfInput) = read := by
    rw [whole, List.filter_append, List.filter_eq_self.mpr]
    · exact List.append_nil read
    · exact fun token member => by simpa using (inner token member).1
  have lexical : ∀ token ∈ read, token.Lexical := fun token member =>
    have scanned : token ∈ scan source := whole ▸ List.mem_append_left _ member
    lexical_of_mem_scan scanned (valid token scanned) (inner token member).1
  have same : faces text = faces source := by
    show faces (printed _) = _
    rw [inside, faces_printed lexical, faces, whole, List.map_append]
    rfl
  refine ⟨same, ?_⟩
  rw [lexicalDiagnostics_eq_nil, allValid_iff_face, ← faces, same, faces, ← allValid_iff_face]
  exact valid

-- Comments end where they ended, and the two signs do not become one.
theorem scan_printed_comments :
    let source := "007 // +\r\n+ ++/*\n*/\"é\""
    let text := printed ((scan source).filter (·.kind != .endOfInput))
    AllValid (scan source) ∧ faces text = faces source ∧
      lexicalDiagnostics "a.btm" (scan text) = [] := by
  intro source text
  have valid : AllValid (scan source) := by
    rw [AllValid, scan_eq 30 (by decide)]
    decide +kernel
  exact ⟨valid, scan_printed valid "a.btm"⟩

end Scan

end Bantam
