import Bantam.Scan
import Bantam.Parsing.Declaration

/-! Parsing of source texts. A parse stops at the first syntax error; asked again, the parser goes
on with the token at which it stopped. Invalid tokens are reported when the parser gets to them, and
each of them once, behind the diagnostics that there were before. -/
namespace Bantam

inductive SyntaxError where
  | unexpected (expectation : Expectation) (found : Token)
  | invalidTarget (span : Span)
  deriving DecidableEq, Repr

namespace SyntaxError

def span : SyntaxError → Span
  | unexpected _ found => found.span
  | invalidTarget span => span

def detail : SyntaxError → String
  | unexpected expectation found => s!"expected {expectation.phrase}, found {found.phrase}"
  | invalidTarget _ => "invalid assignment target"

def message (error : SyntaxError) : String := s!"Syntax error at {error.span}: {error.detail}"

def toDiagnostic (file : String) (error : SyntaxError) : Diagnostic :=
  ⟨.syntactic, file, error.span, error.detail⟩

def ofFailure (finish : Token) (failure : Failure) : SyntaxError :=
  match failure.obstacle with
  | .expected expectation => .unexpected expectation (failure.rest.head?.getD finish)
  | .invalidTarget span => .invalidTarget span

end SyntaxError

structure Parser where
  file : String
  finish : Token
  -- The tokens that have not been parsed, without comments and without the end of input.
  unread : List Token
  reported : List Diagnostic

namespace Parser

def ofText (file source : String) (earlier : List Diagnostic) : Parser :=
  let unread := (scan source).filter fun token =>
    token.kind != .comment && token.kind != .endOfInput
  { file, unread
    finish := (Cursor.ofText source).endOfInput
    reported := earlier ++ lexicalDiagnostics file (unread.take 1) }

/-- Goes on to the first of the tokens that remain, and reports the invalid ones up to it. -/
def goTo (parser : Parser) (rest : List Token) : Parser :=
  let passed := parser.unread.length - rest.length
  let reached := (parser.unread.drop 1).take passed
  { parser with
    unread := rest
    reported := parser.reported ++ lexicalDiagnostics parser.file reached }

def parse (parser : Parser) : Except SyntaxError Program × Parser :=
  match readClasses parser.file parser.unread with
  | .ok classes => (.ok ⟨classes⟩, parser.goTo [])
  | .error failure =>
    let error := SyntaxError.ofFailure parser.finish failure
    let stopped := parser.goTo failure.rest
    (.error error, { stopped with
      reported := stopped.reported ++ [error.toDiagnostic parser.file] })

end Parser

/-- Parses a source text as a program. The diagnostics of its tokens and its grammar follow the
earlier ones. -/
def parseAfter (earlier : List Diagnostic) (file source : String) :
    Except SyntaxError Program × List Diagnostic :=
  let (outcome, parser) := (Parser.ofText file source earlier).parse
  (outcome, parser.reported)

def parse (file source : String) : Except SyntaxError Program × List Diagnostic :=
  parseAfter [] file source

structure SourceFile where
  name : String
  text : String
  deriving DecidableEq, Repr

/-- Parses source texts, one after the other, as one program. The first syntax error ends it. -/
def parseFiles (earlier : List Diagnostic) :
    List SourceFile → Except SyntaxError Program × List Diagnostic
  | [] => (.ok ⟨[]⟩, earlier)
  | file :: rest =>
    match parseAfter earlier file.name file.text with
    | (.error error, diagnostics) => (.error error, diagnostics)
    | (.ok program, diagnostics) =>
      let (others, diagnostics) := parseFiles diagnostics rest
      (others.map fun other => ⟨program.classes ++ other.classes⟩, diagnostics)

end Bantam
