import Bantam.Lexeme

/-! Scanning. A cursor stands at a position of a source text; from there the next lexeme is read,
after the blanks before it. The tokens of a text are those of the cursor at its start, followed by
one token for the end of input. -/
namespace Bantam

structure Position where
  offset : Nat
  line : Nat
  deriving DecidableEq, Repr

namespace Position

def first : Position := ⟨0, 1⟩

def step (position : Position) (c : Char) : Position where
  offset := position.offset + c.utf8Size
  line := if c = '\n' then position.line + 1 else position.line

def advance (position : Position) (text : List Char) : Position := text.foldl step position

end Position

/-- The part of a source text that has not been read, and the position at which it starts. -/
structure Cursor where
  position : Position
  unread : List Char

namespace Cursor

def ofText (source : String) : Cursor := ⟨.first, source.toList⟩

def finish (cursor : Cursor) : Position := cursor.position.advance cursor.unread

/-- The token for the end of input, which covers nothing. -/
def endOfInput (cursor : Cursor) : Token :=
  let position := cursor.finish
  ⟨.endOfInput, "", ⟨position.offset, position.offset, position.line⟩⟩

def readLexeme (position : Position) (first : Char) (rest : List Char) : Token × Cursor :=
  let lexeme := Lexeme.read first rest
  let text := first :: rest.take lexeme.more
  let stop := position.advance text
  let span : Span := ⟨position.offset, stop.offset, position.line⟩
  let token : Token := match lexeme.outcome with
    | .ok kind => ⟨kind, String.ofList text, span⟩
    | .error error => ⟨.invalid, error.message, span⟩
  (token, ⟨stop, rest.drop lexeme.more⟩)

def next? (cursor : Cursor) : Option (Token × Cursor) :=
  let blanks := cursor.unread.takeWhile isBlank
  match cursor.unread.dropWhile isBlank with
  | [] => none
  | first :: rest => some (readLexeme (cursor.position.advance blanks) first rest)

theorem length_unread_of_next? {cursor behind : Cursor} {token : Token}
    (read : cursor.next? = some (token, behind)) : behind.unread.length < cursor.unread.length := by
  have shorter := (List.dropWhile_suffix (l := cursor.unread) isBlank).length_le
  unfold next? at read
  split at read
  · contradiction
  · next first rest blanksDropped =>
    rw [blanksDropped] at shorter
    simp only [readLexeme, Option.some.injEq, Prod.mk.injEq] at read
    rw [← read.2]
    simp only [List.length_cons, List.length_drop] at shorter ⊢
    omega

def tokens (cursor : Cursor) : List Token :=
  match _read : cursor.next? with
  | none => [cursor.endOfInput]
  | some (token, behind) => token :: behind.tokens
termination_by cursor.unread.length
decreasing_by exact length_unread_of_next? _read

end Cursor

/-- The tokens of a source text, comments and invalid ones included, up to the end of input. -/
def scan (source : String) : List Token := (Cursor.ofText source).tokens

def lexicalDiagnostics (file : String) (tokens : List Token) : List Diagnostic :=
  tokens.filterMap (Token.diagnostic? file)

end Bantam
