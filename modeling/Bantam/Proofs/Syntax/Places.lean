import Bantam.Proofs.Syntax.Bounds
import Bantam.Proofs.Syntax.Continuation

/-! Places in a source text. The spans of tokens, and so those of whatever is made of tokens, are
ranges of the bytes of the text that start and end between its characters, each on the line that the
line feeds before it lead to. -/
namespace Bantam

def lineFeed : UInt8 := 10

/-- The span is a range of bytes of the source text, between characters, with its line. -/
structure Span.ValidIn (source : String) (span : Span) : Prop where
  ordered : span.start ≤ span.stop
  inside : span.stop ≤ source.toUTF8.size
  starts : String.Pos.Raw.IsValid source ⟨span.start⟩
  stops : String.Pos.Raw.IsValid source ⟨span.stop⟩
  line : span.line = 1 + (source.toUTF8.data.toList.take span.start).count lineFeed

theorem ofNat_ne_lineFeed {code : Nat} (high : 128 ≤ code) (small : code < 256) :
    UInt8.ofNat code ≠ lineFeed := by
  intro same
  have codes := congrArg UInt8.toNat same
  rw [UInt8.toNat_ofNat', Nat.mod_eq_of_lt small] at codes
  exact absurd codes (ne_of_gt (Nat.lt_of_lt_of_le (by decide) high))

theorem eq_of_lineFeed_mem {c : Char} (member : lineFeed ∈ String.utf8EncodeChar c) :
    c = '\n' := by
  unfold String.utf8EncodeChar at member
  dsimp only at member
  -- All bytes of a longer encoding are high.
  split at member
  · next ascii =>
    have codes := congrArg UInt8.toNat (List.mem_singleton.mp member)
    rw [UInt8.toNat_ofNat', Nat.mod_eq_of_lt (by omega)] at codes
    exact Char.ext (UInt32.toNat_inj.mp codes.symm)
  split at member
  · simp only [List.mem_cons, List.not_mem_nil, or_false] at member
    rcases member with same | same <;>
      exact absurd same.symm (ofNat_ne_lineFeed (by omega) (by omega))
  split at member
  · simp only [List.mem_cons, List.not_mem_nil, or_false] at member
    rcases member with same | same | same <;>
      exact absurd same.symm (ofNat_ne_lineFeed (by omega) (by omega))
  · simp only [List.mem_cons, List.not_mem_nil, or_false] at member
    rcases member with same | same | same | same <;>
      exact absurd same.symm (ofNat_ne_lineFeed (by omega) (by omega))

theorem count_utf8EncodeChar (c : Char) :
    (String.utf8EncodeChar c).count lineFeed = if c = '\n' then 1 else 0 := by
  split
  · next isEnd =>
    subst isEnd
    decide
  · next other =>
    exact List.count_eq_zero.mpr fun member => other (eq_of_lineFeed_mem member)

theorem count_bytes (text : List Char) : (bytes text).count lineFeed = text.count '\n' := by
  induction text with
  | nil => rfl
  | cons c rest ih =>
    rw [bytes_cons, List.count_append, count_utf8EncodeChar, ih, List.count_cons, Nat.add_comm]
    simp

section Tokens
variable {source : String} {first last : Span}

theorem isValid_bytes {before after : List Char} (whole : source.toList = before ++ after) :
    String.Pos.Raw.IsValid source ⟨(bytes before).length⟩ := by
  refine String.Pos.Raw.isValid_iff_exists_append.mpr
    ⟨String.ofList before, String.ofList after, ?_, String.Pos.Raw.ext ?_⟩
  · rw [← String.ofList_append, ← whole, String.ofList_toList]
  · rw [String.byteIdx_rawEndPos, ← String.size_toByteArray]
    exact ((congrArg ByteArray.size (toUTF8_ofList before)).trans List.size_toByteArray).symm

theorem validIn_between {before text after : List Char}
    (whole : source.toList = before ++ text ++ after) :
    Span.ValidIn source ⟨(Position.first.advance before).offset,
      ((Position.first.advance before).advance text).offset,
      (Position.first.advance before).line⟩ := by
  have start := offset_first before
  have stop : ((Position.first.advance before).advance text).offset =
      (bytes (before ++ text)).length := by
    rw [offset_advance, start, bytes_append, List.length_append]
  have content : source.toUTF8.data.toList = bytes source.toList := by
    rw [toUTF8_eq, List.data_toByteArray]
  rw [start, stop, line_advance]
  refine { ordered := ?_, inside := ?_, starts := ?_, stops := isValid_bytes whole, line := ?_ }
  · simp
  · rw [size_toUTF8, whole, bytes_append _ after, List.length_append]
    exact Nat.le_add_right ..
  · exact isValid_bytes (whole.trans (List.append_assoc ..))
  · dsimp only
    rw [content, whole, List.append_assoc, bytes_append before, List.take_left, count_bytes]
    rfl

theorem validIn_endOfInput (source : String) :
    (Cursor.ofText source).endOfInput.span.ValidIn source := by
  have whole : source.toList = source.toList ++ [] ++ [] := by simp
  exact validIn_between whole

theorem validIn_scan {token : Token} (member : token ∈ scan source) :
    token.span.ValidIn source := by
  obtain ⟨read, same, pieces⟩ := (Cursor.ofText source).tiled_tokens.pieces
  rw [scan, same] at member
  rcases List.mem_append.mp member with isRead | isLast
  · obtain ⟨before, text, after, whole, covers⟩ := pieces token isRead
    rw [covers.span]
    exact validIn_between whole
  · obtain rfl := List.mem_singleton.mp isLast
    exact validIn_endOfInput source

/-- Between two places there is one, on the line of the first. -/
theorem Span.ValidIn.upTo (atFirst : first.ValidIn source) (atLast : last.ValidIn source)
    (ordered : first.start ≤ last.stop) :
    Span.ValidIn source ⟨first.start, last.stop, first.line⟩ :=
  ⟨ordered, atLast.inside, atFirst.starts, atLast.stops, atFirst.line⟩

end Tokens

end Bantam
