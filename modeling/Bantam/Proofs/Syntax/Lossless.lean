import Bantam.Session
import Mathlib.Data.List.TakeWhile

/-! Scanning loses nothing. A source text is blanks and pieces of text in turns, with a token for
each piece; so the spans of the tokens tile the text up to blanks, and what is not a token is
reported. -/
namespace Bantam

/-- The token stands for a piece of text at a position, and is spelled like it unless it is
invalid. -/
structure Token.Covers (token : Token) (text : List Char) (start : Position) : Prop where
  nonempty : text ≠ []
  kind : token.kind ≠ .endOfInput
  span : token.span = ⟨start.offset, (start.advance text).offset, start.line⟩
  spelling : token.kind ≠ .invalid → token.spelling = String.ofList text

/-- One step reads blanks and behind them a piece of text, for which it gives a token. -/
structure Cursor.Step (cursor : Cursor) (token : Token) (behind : Cursor)
    (blanks text : List Char) : Prop where
  blank : ∀ c ∈ blanks, isBlank c = true
  covers : token.Covers text (cursor.position.advance blanks)
  unread : cursor.unread = blanks ++ text ++ behind.unread
  position : behind.position = (cursor.position.advance blanks).advance text

/-- Steps up to the blanks at the end, with a token for each step and one for the end. -/
inductive Cursor.Tiled : Cursor → List Token → Prop
  | finish {cursor : Cursor} (blank : ∀ c ∈ cursor.unread, isBlank c = true) :
      Tiled cursor [cursor.endOfInput]
  | step {cursor behind : Cursor} {token : Token} {blanks text : List Char} {tokens : List Token}
      (step : cursor.Step token behind blanks text) (rest : Tiled behind tokens) :
      Tiled cursor (token :: tokens)

theorem take_length_takeWhile (p : Char → Bool) (text : List Char) :
    text.take (text.takeWhile p).length = text.takeWhile p :=
  (List.prefix_iff_eq_take.mp (text.takeWhile_prefix p)).symm

namespace Lexeme

def Proper (outcome : Except LexicalError Kind) : Prop :=
  ∀ kind, outcome = .ok kind → kind ≠ .invalid ∧ kind ≠ .endOfInput

theorem proper_ok {kind : Kind} (valid : kind ≠ .invalid) (inner : kind ≠ .endOfInput) :
    Proper (.ok kind) := by
  rintro _ ⟨⟩
  exact ⟨valid, inner⟩

theorem proper_error (error : LexicalError) : Proper (.error error) := fun _ given => nomatch given

theorem proper_word (first : Char) (rest : List Char) : Proper (word first rest).outcome := by
  dsimp only [word]
  split <;> exact proper_ok (by decide) (by decide)

theorem proper_integer (first : Char) (rest : List Char) :
    Proper (integer first rest).outcome := by
  dsimp only [integer]
  split
  · exact proper_ok (by decide) (by decide)
  · exact proper_error _

theorem proper_verdict (body : StringBody) : Proper body.verdict := by
  unfold StringBody.verdict
  split
  · exact proper_error _
  · split
    · exact proper_error _
    · split
      · exact proper_error _
      · exact proper_ok (by decide) (by decide)

theorem proper_stringFrom (body : StringBody) (rest : List Char) :
    Proper (stringFrom body rest).outcome := by
  fun_induction stringFrom body rest with
  | case2 => exact proper_verdict _
  | case1 | case3 | case4 => exact proper_error _
  | case5 | case6 => assumption

theorem proper_blockComment (rest : List Char) : Proper (blockComment rest).outcome := by
  unfold blockComment
  split
  · exact proper_ok (by decide) (by decide)
  · exact proper_error _

theorem proper_sign (first : Char) (rest : List Char) : Proper (sign first rest).outcome := by
  fun_cases sign first rest
  all_goals first
    | exact proper_ok (by decide) (by decide)
    | exact proper_blockComment _
    | exact proper_error _

theorem proper_read (first : Char) (rest : List Char) : Proper (read first rest).outcome := by
  unfold read
  split
  · exact proper_word first rest
  · split
    · exact proper_integer first rest
    · split
      · exact proper_stringFrom {} rest
      · exact proper_sign first rest

end Lexeme

namespace Cursor
variable {cursor behind : Cursor} {token : Token}

theorem covers_readLexeme (position : Position) (first : Char) (rest : List Char) :
    (readLexeme position first rest).1.Covers
      (first :: rest.take (Lexeme.read first rest).more) position := by
  have proper := Lexeme.proper_read first rest
  unfold readLexeme
  refine { nonempty := List.cons_ne_nil _ _, kind := ?_, span := ?_, spelling := ?_ } <;>
  · dsimp only
    split
    · next kind given => simp [proper kind given]
    · simp

theorem blank_of_takeWhile {text : List Char} : ∀ c ∈ text.takeWhile isBlank, isBlank c = true :=
  fun _ member => List.mem_takeWhile_imp member

theorem blank_of_next?_eq_none (done : cursor.next? = none) :
    ∀ c ∈ cursor.unread, isBlank c = true := by
  unfold next? at done
  split at done
  · next allBlank => exact List.dropWhile_eq_nil_iff.mp allBlank
  · contradiction

theorem step_of_next? (read : cursor.next? = some (token, behind)) :
    ∃ blanks text, cursor.Step token behind blanks text := by
  unfold next? at read
  split at read
  · contradiction
  · next first rest found =>
    rw [Option.some.injEq] at read
    have isToken : (readLexeme _ first rest).1 = token := congrArg Prod.fst read
    have isBehind : (readLexeme _ first rest).2 = behind := congrArg Prod.snd read
    refine ⟨_, first :: rest.take (Lexeme.read first rest).more, {
      blank := blank_of_takeWhile
      covers := isToken ▸ covers_readLexeme _ first rest
      unread := ?_
      position := isBehind ▸ rfl }⟩
    rw [← isBehind, List.append_assoc]
    show cursor.unread = _ ++ (first :: (rest.take _ ++ rest.drop _))
    rw [List.take_append_drop, ← found, List.takeWhile_append_dropWhile]

theorem tiled_tokens (cursor : Cursor) : cursor.Tiled cursor.tokens := by
  fun_induction tokens cursor with
  | case1 cursor done => exact .finish (blank_of_next?_eq_none done)
  | case2 cursor token behind read ih =>
    obtain ⟨blanks, text, step⟩ := step_of_next? read
    exact .step step ih

end Cursor

def bytes (text : List Char) : List UInt8 := text.flatMap String.utf8EncodeChar

@[simp] theorem bytes_append (first second : List Char) :
    bytes (first ++ second) = bytes first ++ bytes second := List.flatMap_append

theorem bytes_cons (c : Char) (rest : List Char) :
    bytes (c :: rest) = String.utf8EncodeChar c ++ bytes rest := List.flatMap_cons

theorem toUTF8_eq (source : String) : source.toUTF8 = (bytes source.toList).toByteArray :=
  String.utf8Encode_toList.symm

theorem toUTF8_ofList (text : List Char) :
    (String.ofList text).toUTF8 = (bytes text).toByteArray := String.toByteArray_ofList

theorem size_toUTF8 (source : String) : source.toUTF8.size = (bytes source.toList).length := by
  rw [toUTF8_eq, List.size_toByteArray]

theorem extract_bytes (before text after : List Char) :
    (bytes (before ++ text ++ after)).toByteArray.extract (bytes before).length
      ((bytes before).length + (bytes text).length) = (bytes text).toByteArray := by
  rw [bytes_append, List.toByteArray_append, bytes_append, List.toByteArray_append,
    ByteArray.extract_append, ByteArray.extract_append_eq_right] <;> simp

theorem advance_append (position : Position) (first second : List Char) :
    position.advance (first ++ second) = (position.advance first).advance second :=
  List.foldl_append

theorem offset_advance (position : Position) (text : List Char) :
    (position.advance text).offset = position.offset + (bytes text).length := by
  induction text generalizing position with
  | nil => rfl
  | cons c rest ih =>
    show ((position.step c).advance rest).offset = _
    rw [ih, bytes_cons, List.length_append, String.length_utf8EncodeChar, ← Nat.add_assoc]
    rfl

theorem offset_first (text : List Char) :
    (Position.first.advance text).offset = (bytes text).length :=
  (offset_advance _ text).trans (Nat.zero_add _)

theorem bytes_pos {text : List Char} (nonempty : text ≠ []) : 0 < (bytes text).length := by
  obtain ⟨c, rest, rfl⟩ := List.exists_cons_of_ne_nil nonempty
  rw [bytes_cons, List.length_append, String.length_utf8EncodeChar]
  exact Nat.add_pos_left c.utf8Size_pos _

def blankBytes : List UInt8 := [0x20, 0x09, 0x0a, 0x0c, 0x0d]

theorem blankBytes_of_isBlank {c : Char} (blank : isBlank c = true) :
    ∀ byte ∈ String.utf8EncodeChar c, byte ∈ blankBytes := by
  simp only [isBlank, Bool.or_eq_true, beq_iff_eq] at blank
  rcases blank with (((rfl | rfl) | rfl) | rfl) | rfl <;>
    exact List.forall_mem_singleton.mpr (by decide)

theorem mem_blankBytes {blanks : List Char} (blank : ∀ c ∈ blanks, isBlank c = true) :
    ∀ byte ∈ bytes blanks, byte ∈ blankBytes := by
  intro byte member
  obtain ⟨c, isChar, encoded⟩ := List.mem_flatMap.mp member
  exact blankBytes_of_isBlank (blank c isChar) byte encoded

namespace Cursor.Tiled
variable {cursor : Cursor} {tokens : List Token}

theorem pieces (tiled : cursor.Tiled tokens) : ∃ read, tokens = read ++ [cursor.endOfInput] ∧
    ∀ token ∈ read, ∃ before text after, cursor.unread = before ++ text ++ after ∧
      token.Covers text (cursor.position.advance before) := by
  induction tiled with
  | finish => exact ⟨[], rfl, by simp⟩
  | @step cursor behind token blanks text tokens step _ ih =>
    obtain ⟨read, same, pieces⟩ := ih
    have finish : behind.endOfInput = cursor.endOfInput := by
      rw [endOfInput, endOfInput, Cursor.finish, Cursor.finish, step.unread, step.position,
        advance_append, advance_append]
    refine ⟨token :: read, by rw [same, finish]; rfl, fun other member => ?_⟩
    rcases List.mem_cons.mp member with rfl | later
    · exact ⟨blanks, text, behind.unread, step.unread, step.covers⟩
    · obtain ⟨before, piece, after, unread, covers⟩ := pieces other later
      refine ⟨blanks ++ text ++ before, piece, after, ?_, ?_⟩
      · rw [step.unread, unread]
        simp only [List.append_assoc]
      · rw [advance_append, advance_append, ← step.position]
        exact covers

theorem offset_le (tiled : cursor.Tiled tokens) :
    ∀ token ∈ tokens, cursor.position.offset ≤ token.span.start := by
  obtain ⟨read, rfl, pieces⟩ := tiled.pieces
  intro token member
  rcases List.mem_append.mp member with isRead | isLast
  · obtain ⟨before, text, after, -, covers⟩ := pieces token isRead
    rw [covers.span]
    dsimp only
    rw [offset_advance]
    exact Nat.le_add_right ..
  · obtain rfl := List.mem_singleton.mp isLast
    show _ ≤ (cursor.position.advance cursor.unread).offset
    rw [offset_advance]
    exact Nat.le_add_right ..

theorem ordered (tiled : cursor.Tiled tokens) :
    tokens.Pairwise fun first second => first.span.stop ≤ second.span.start := by
  induction tiled with
  | finish => exact List.pairwise_singleton _ _
  | @step cursor behind token blanks text tokens step rest ih =>
    refine List.pairwise_cons.mpr ⟨fun other later => ?_, ih⟩
    rw [step.covers.span, ← step.position]
    exact rest.offset_le other later

/-- A byte that no token covers is that of a blank. -/
theorem covered (tiled : cursor.Tiled tokens) {index : Nat} {byte : UInt8}
    (here : (bytes cursor.unread)[index]? = some byte) : byte ∈ blankBytes ∨
      ∃ token ∈ tokens, token.span.start ≤ cursor.position.offset + index ∧
        cursor.position.offset + index < token.span.stop := by
  induction tiled generalizing index with
  | finish blank => exact .inl (mem_blankBytes blank byte (List.mem_of_getElem? here))
  | @step cursor behind token blanks text tokens step rest ih =>
    have start := offset_advance cursor.position blanks
    have stop := offset_advance (cursor.position.advance blanks) text
    rw [step.unread, bytes_append, bytes_append] at here
    -- The byte is one of the blanks, one of the text of the token, or behind both.
    by_cases read : index < (bytes blanks ++ bytes text).length
    · rw [List.getElem?_append_left read] at here
      by_cases isBlank : index < (bytes blanks).length
      · rw [List.getElem?_append_left isBlank] at here
        exact .inl (mem_blankBytes step.blank byte (List.mem_of_getElem? here))
      · refine .inr ⟨token, List.mem_cons_self, ?_⟩
        rw [List.length_append] at read
        rw [step.covers.span]
        dsimp only
        omega
    · rw [List.getElem?_append_right (by omega), List.length_append] at here
      rw [List.length_append] at read
      have position : behind.position.offset +
          (index - ((bytes blanks).length + (bytes text).length)) =
            cursor.position.offset + index := by
        rw [step.position]
        omega
      rcases ih here with isBlank | ⟨other, later, within⟩
      · exact .inl isBlank
      · exact .inr ⟨other, List.mem_cons_of_mem _ later, position ▸ within⟩

end Cursor.Tiled

/-- The end of input comes last among the tokens, and nowhere else. -/
theorem Cursor.exists_tokens (cursor : Cursor) : ∃ read,
    cursor.tokens = read ++ [cursor.endOfInput] ∧ ∀ token ∈ read, token.kind ≠ .endOfInput := by
  obtain ⟨read, split, pieces⟩ := cursor.tiled_tokens.pieces
  refine ⟨read, split, ?_⟩
  intro token member
  obtain ⟨_, _, _, _, covers⟩ := pieces token member
  exact covers.kind

/-- The tokens tile the source text up to blanks, and all but invalid ones are spelled like it. -/
structure Lossless (source : String) (tokens : List Token) : Prop where
  -- One token for the end of input comes last. The others cover something.
  finish : ∃ read line, tokens =
      read ++ [⟨.endOfInput, "", ⟨source.toUTF8.size, source.toUTF8.size, line⟩⟩] ∧
    ∀ token ∈ read, token.kind ≠ .endOfInput ∧ token.span.start < token.span.stop ∧
      token.span.stop ≤ source.toUTF8.size
  ordered : tokens.Pairwise fun first second => first.span.stop ≤ second.span.start
  blank : ∀ (index : Nat) (inside : index < source.toUTF8.size),
    source.toUTF8[index] ∈ blankBytes ∨
      ∃ token ∈ tokens, token.span.start ≤ index ∧ index < token.span.stop
  spelling : ∀ token ∈ tokens, token.kind ≠ .invalid →
    token.spelling.toUTF8 = source.toUTF8.extract token.span.start token.span.stop

theorem lossless_scan (source : String) : Lossless source (scan source) := by
  have tiled := (Cursor.ofText source).tiled_tokens
  obtain ⟨read, same, pieces⟩ := tiled.pieces
  have size := size_toUTF8 source
  have place (token : Token) (isRead : token ∈ read) : ∃ before text after,
      source.toList = before ++ text ++ after ∧ token.Covers text (Position.first.advance before) ∧
      token.span.start = (bytes before).length ∧
      token.span.stop = (bytes before).length + (bytes text).length := by
    obtain ⟨before, text, after, whole, covers⟩ := pieces token isRead
    refine ⟨before, text, after, whole, covers, ?_, ?_⟩
    · rw [covers.span]
      exact offset_first before
    · rw [covers.span]
      exact (offset_advance _ text).trans (congrArg (· + _) (offset_first before))
  refine { finish := ?finish, ordered := tiled.ordered, blank := ?blank, spelling := ?spelling }
  case finish =>
    refine ⟨read, (Position.first.advance source.toList).line, ?_, fun token isRead => ?_⟩
    · rw [scan, same, size, ← offset_first]
      rfl
    · obtain ⟨before, text, after, whole, covers, start, stop⟩ := place token isRead
      have positive := bytes_pos covers.nonempty
      rw [start, stop, size, whole, bytes_append, bytes_append, List.length_append,
        List.length_append]
      exact ⟨covers.kind, by omega, by omega⟩
  case blank =>
    intro index inside
    have here : (bytes source.toList)[index]? = some source.toUTF8[index] := by
      rw [List.getElem?_eq_getElem (size ▸ inside), List.getElem_eq_getElem_toByteArray]
      simp only [toUTF8_eq]
    have covered := tiled.covered here
    have position : (Cursor.ofText source).position.offset + index = index := Nat.zero_add index
    rwa [position] at covered
  case spelling =>
    intro token member valid
    rw [scan, same] at member
    rcases List.mem_append.mp member with isRead | isLast
    · obtain ⟨before, text, after, whole, covers, start, stop⟩ := place token isRead
      rw [covers.spelling valid, toUTF8_ofList, toUTF8_eq, whole, start, stop, extract_bytes]
    · obtain rfl := List.mem_singleton.mp isLast
      exact ByteArray.extract_same.symm

end Bantam
