import Bantam.Scan

/-! Token streams. A stream hands out the tokens of a source text one by one and lets its user look
at later ones first. Tokens that have been looked at wait in a buffer until they are taken; the
diagnostic of an invalid token is reported once, when the token is first read. -/
namespace Bantam

structure TokenStream where
  file : String
  cursor : Cursor
  buffer : List Token := []
  reported : List Diagnostic := []
  -- Set once the end of input has been handed out as an item.
  exhausted : Bool := false

namespace TokenStream

def ofText (file source : String) : TokenStream := { file, cursor := .ofText source }

/-- Reads one more token from the text. At the end of the text this is the end of input, again and
again. -/
def fetch (stream : TokenStream) : Token × TokenStream :=
  match stream.cursor.next? with
  | none => (stream.cursor.endOfInput, stream)
  | some (token, behind) =>
    (token, { stream with
      cursor := behind
      reported := stream.reported ++ lexicalDiagnostics stream.file [token] })

def next (stream : TokenStream) : Token × TokenStream :=
  match stream.buffer with
  | token :: buffer => (token, { stream with buffer })
  | [] => stream.fetch

def fill (stream : TokenStream) : Nat → TokenStream
  | 0 => stream
  | missing + 1 =>
    let (token, read) := stream.fetch
    { read with buffer := read.buffer ++ [token] }.fill missing

def peek (stream : TokenStream) (offset : Nat) : Token × TokenStream :=
  let filled := stream.fill (offset + 1 - stream.buffer.length)
  (filled.buffer[offset]?.getD filled.cursor.endOfInput, filled)

-- Takes the next token as an item. The end of input is the last item.
def nextItem? (stream : TokenStream) : Option Token × TokenStream :=
  if stream.exhausted then (none, stream)
  else
    let (token, taken) := stream.next
    (some token, { taken with exhausted := token.kind == .endOfInput })

/-- Everything that `nextItem?` still hands out, with the stream behind it. The stream ends after
what waits in the buffer and what is left of the text. -/
def items (stream : TokenStream) : List Token × TokenStream :=
  go (stream.buffer.length + stream.cursor.unread.length + 1) stream
where
  go : Nat → TokenStream → List Token × TokenStream
    | 0, stream => ([], stream)
    | steps + 1, stream =>
      match stream.nextItem? with
      | (none, ended) => ([], ended)
      | (some token, taken) =>
        let (rest, ended) := go steps taken
        (token :: rest, ended)

end TokenStream

end Bantam
