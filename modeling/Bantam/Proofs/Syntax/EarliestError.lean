import Bantam.Proofs.Syntax.Layout
import Bantam.Proofs.Syntax.Printing
import Bantam.Proofs.Syntax.ProgramComplete
import Bantam.Proofs.Syntax.ProgramCompletion

/-! The earliest error. A parser that misses something has taken no token too many: the tokens
before the one at which it stops, with fillers behind them, can be written down as a program. -/
namespace Bantam
open Grammar

theorem lexical_of_filler {token : Token} (isFiller : token ∈ fillers) : token.Lexical := by
  have short : ∀ token ∈ fillers, token.spelling.toList.length < 6 := by decide
  have alone : ∀ token ∈ fillers, token.kind ≠ .invalid ∧
      ((Cursor.ofText token.spelling).tokensWithin 6).map Token.face =
        [token.face, (.endOfInput, "")] := by decide +kernel
  refine ⟨(alone token isFiller).1, ?_⟩
  rw [faces, scan_eq 6 (short token isFiller)]
  exact (alone token isFiller).2

def Token.Meaningful (token : Token) : Prop := token.kind ≠ .comment ∧ token.kind ≠ .endOfInput

theorem mem_meaningful {source : String} {token : Token} :
    token ∈ meaningful source ↔ token ∈ scan source ∧ token.Meaningful := by
  simp [meaningful, Token.Meaningful]

theorem meaningful_of_filler {token : Token} (isFiller : token ∈ fillers) : token.Meaningful := by
  revert token
  unfold Token.Meaningful
  decide

theorem filter_scan (source : String) : (scan source).filter (·.kind != .comment) =
    meaningful source ++ [(Cursor.ofText source).endOfInput] := by
  obtain ⟨read, whole, inside⟩ := (Cursor.ofText source).exists_tokens
  have inner : ∀ token ∈ read,
      (token.kind != .comment && token.kind != .endOfInput) = (token.kind != .comment) := by
    intro token member
    simp [inside token member]
  rw [meaningful, scan, whole, List.filter_append, List.filter_append, List.filter_congr inner]
  simp [Cursor.endOfInput]

theorem wording_eq_faces (source : String) :
    wording source = (faces source).filter (·.1 != .comment) := by
  rw [faces, List.filter_map]
  rfl

theorem erasure_printed {tokens : List Token} (lexical : ∀ token ∈ tokens, token.Lexical)
    (meaningful : ∀ token ∈ tokens, token.Meaningful) :
    Relocation.erasure.tokens (Grammar.meaningful (printed tokens)) =
      Relocation.erasure.tokens tokens := by
  have kept : (tokens.map Token.face).filter (·.1 != .comment) = tokens.map Token.face := by
    rw [List.filter_eq_self, List.forall_mem_map]
    exact fun token member => by simpa [Token.face] using (meaningful token member).1
  have inner : (tokens.map Token.face).filter (·.1 != .endOfInput) = tokens.map Token.face := by
    rw [List.filter_eq_self, List.forall_mem_map]
    exact fun token member => by simpa [Token.face] using (meaningful token member).2
  rw [Relocation.tokens_erasure, wording_eq_faces, faces_printed lexical, List.filter_append, kept,
    List.filter_append, inner, Relocation.tokens_eq_map rfl]
  simp [Token.face, Relocation.token, Relocation.erasure]

theorem readClasses_of_erasure {file : String} {tokens others : List Token}
    (same : Relocation.erasure.tokens tokens = Relocation.erasure.tokens others)
    {classes : List ClassDecl} (read : readClasses file tokens = .ok classes) :
    ∃ moved, readClasses file others = .ok moved := by
  have both := (@Relocation.readClasses_moved .erasure file rfl tokens).symm.trans
    ((congrArg (readClasses file) same).trans (Relocation.readClasses_moved rfl others))
  rw [read] at both
  cases outcome : readClasses file others with
  | ok moved => exact ⟨moved, rfl⟩
  | error failure =>
    rw [outcome] at both
    contradiction

theorem parse_printed {file : String} {tokens : List Token}
    (lexical : ∀ token ∈ tokens, token.Lexical) (meaningful : ∀ token ∈ tokens, token.Meaningful)
    (isText : tokens ∈ ofClasses file) :
    ∃ program, (parse file (printed tokens)).1 = .ok program := by
  obtain ⟨classes, derived⟩ := isText
  obtain ⟨others, nearest⟩ := derived.rederive extends_nearest
  obtain ⟨read, readAll⟩ := nearest.reads
  obtain ⟨moved, readPrinted⟩ :=
    readClasses_of_erasure (erasure_printed lexical meaningful).symm readAll
  exact ⟨⟨moved⟩, parse_eq_ok_iff.mpr readPrinted⟩

section Errors
variable {file source : String} {expectation : Expectation}

/-- What has been read where a token is missed can be completed, and written down. -/
theorem exists_completed {rest : List Token}
    (missed : readClasses file (meaningful source) = .error ⟨.expected expectation, rest⟩) :
    ∃ front, front ++ rest = meaningful source ∧ ∃ completed program,
      (parse file completed).1 = .ok program ∧ front.map Token.face <+: faces completed := by
  obtain ⟨front, ⟨more, areFillers, isText⟩, split⟩ :=
    readClasses_completable file (meaningful source) expectation rest missed
  have valid : AllValid (front ++ more) := by
    obtain ⟨classes, derived⟩ := isText
    exact derived.allValid
  have inside (token : Token) (member : token ∈ front) : token ∈ scan source ∧ token.Meaningful :=
    mem_meaningful.mp (split ▸ List.mem_append_left rest member)
  have lexical : ∀ token ∈ front ++ more, token.Lexical := by
    refine List.forall_mem_append.mpr ⟨fun token member => ?_, fun token member => ?_⟩
    · obtain ⟨scanned, isMeaningful⟩ := inside token member
      exact lexical_of_mem_scan scanned (valid token (List.mem_append_left more member))
        isMeaningful.2
    · exact lexical_of_filler (areFillers token member)
  have areMeaningful : ∀ token ∈ front ++ more, token.Meaningful :=
    List.forall_mem_append.mpr ⟨fun token member => (inside token member).2,
      fun token member => meaningful_of_filler (areFillers token member)⟩
  obtain ⟨program, read⟩ := parse_printed lexical areMeaningful isText
  refine ⟨front, split, printed (front ++ more), program, read, ?_⟩
  rw [faces_printed lexical, List.map_append, List.append_assoc]
  exact List.prefix_append ..

/-- A token that is expected and not found comes at the earliest possible place: the tokens before
it, without the comments, are those that the parser has taken, and the first tokens of a program. -/
theorem unexpected_earliest {found : Token}
    (failed : (parse file source).1 = .error (.unexpected expectation found)) :
    ∃ before after, (scan source).filter (·.kind != .comment) = before ++ found :: after ∧
      before ++ (Parser.ofText file source []).parse.2.unread = meaningful source ∧
      ∃ completed program, (parse file completed).1 = .ok program ∧
        before.map Token.face <+: (scan completed).map Token.face := by
  have outcome : (Parser.ofText file source []).parse.1 = .error (.unexpected expectation found) :=
    failed
  obtain ⟨read, rfl⟩ := Parser.stopped_of_unexpected outcome
  rw [unread_ofText, file_ofText] at read
  obtain ⟨front, split, completed⟩ := exists_completed read
  rw [filter_scan, ← split]
  generalize (Parser.ofText file source []).parse.2.unread = rest at split ⊢
  cases rest with
  | nil => exact ⟨front, [], by rw [List.append_nil]; rfl, rfl, completed⟩
  | cons next rest =>
    exact ⟨front, rest ++ [_], by rw [List.append_assoc]; rfl, rfl, completed⟩

-- A brace in a comment is missed all the same.
theorem unexpected_earliest_brace :
    (parse "a" "class A /* \x7b */ \x7d").1 =
      .error (.unexpected (.kind .leftBrace) ⟨.rightBrace, "\x7d", ⟨16, 17, 1⟩⟩) ∧
    ∃ before after, (scan "class A /* \x7b */ \x7d").filter (·.kind != .comment) =
        before ++ ⟨.rightBrace, "\x7d", ⟨16, 17, 1⟩⟩ :: after ∧
      before ++ (Parser.ofText "a" "class A /* \x7b */ \x7d" []).parse.2.unread =
        meaningful "class A /* \x7b */ \x7d" ∧
      ∃ completed program, (parse "a" completed).1 = .ok program ∧
        before.map Token.face <+: (scan completed).map Token.face := by
  have failed : (parse "a" "class A /* \x7b */ \x7d").1 =
      .error (.unexpected (.kind .leftBrace) ⟨.rightBrace, "\x7d", ⟨16, 17, 1⟩⟩) := by
    have tokens : meaningful "class A /* \x7b */ \x7d" =
        [⟨.identifier, "class", ⟨0, 5, 1⟩⟩, ⟨.identifier, "A", ⟨6, 7, 1⟩⟩,
          ⟨.rightBrace, "\x7d", ⟨16, 17, 1⟩⟩] := by
      rw [meaningful, scan_eq 18 (by decide)]
      rfl
    have missed : readClasses "a" [⟨.identifier, "class", ⟨0, 5, 1⟩⟩,
        ⟨.identifier, "A", ⟨6, 7, 1⟩⟩, ⟨.rightBrace, "\x7d", ⟨16, 17, 1⟩⟩] =
          .error ⟨.expected (.kind .leftBrace), [⟨.rightBrace, "\x7d", ⟨16, 17, 1⟩⟩]⟩ := by cbv
    rw [parse, parseAfter_eq, tokens, missed]
    rfl
  exact ⟨failed, unexpected_earliest failed⟩

end Errors

end Bantam
