import Bantam.Diagnostic
import Bantam.Scan

/-! Diagnostics shown with the line of the source text that they point at. The part of the line that
is meant is marked below it, with the message behind the marks. -/
namespace Bantam

structure SourceLine where
  number : Nat
  before : List Char
  behind : List Char

namespace SourceLine

def isLineEnd (c : Char) : Bool := c == '\n' || c == '\r' || c == '\x00'

/-- Goes on in a text that begins on a line after some of its characters, the last of them first. -/
def find (offset : Nat) (position : Position) (passed : List Char) : List Char → SourceLine
  | [] => ⟨position.line, passed.reverse, []⟩
  | c :: rest =>
    if offset ≤ position.offset then
      ⟨position.line, passed.reverse, (c :: rest).takeWhile (· != '\n')⟩
    else find offset (position.step c) (if c = '\n' then [] else c :: passed) rest

def ofOffset (source : String) (offset : Nat) : SourceLine := find offset .first [] source.toList

def text (line : SourceLine) : String :=
  let all := line.before ++ line.behind
  String.ofList (all.reverse.dropWhile isLineEnd).reverse

def column (line : SourceLine) : Nat := line.before.length + 1

end SourceLine

def blanks (count : Nat) : String := String.ofList (List.replicate count ' ')

namespace Diagnostic

-- One mark for each character of the line that a span covers, and at least one.
def marks (span : Span) (line : SourceLine) : String :=
  let covered := (line.behind.foldl
    (fun (count, offset) c =>
      (if offset < span.stop then count + 1 else count, offset + c.utf8Size))
    (0, span.start)).1
  String.ofList (List.replicate (max 1 covered) '^')

def snippetLines (file source : String) (diagnostic : Diagnostic) : List String :=
  let line := SourceLine.ofOffset source diagnostic.span.start
  let number := toString line.number
  let margin := blanks (number.length + 1)
  [margin ++ "┌─ " ++ s!"{file}:{line.number}:{line.column}",
    margin ++ "│",
    number ++ " │ " ++ line.text,
    margin ++ "│ " ++ blanks (line.column - 1) ++ marks diagnostic.span line ++ " " ++
      diagnostic.message]

/-- The lines of a diagnostic with an empty one behind them. What stands in no source text is shown
by its message alone. -/
def reportLines (file source : String) (diagnostic : Diagnostic) : List String :=
  let shown := if diagnostic.span.isSynthetic then [s!" = {diagnostic.message}"]
    else diagnostic.snippetLines file source
  s!"error: {diagnostic.stage.title}" :: shown ++ [""]

end Diagnostic

end Bantam
