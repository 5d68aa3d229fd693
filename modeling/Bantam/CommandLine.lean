import Bantam.Hierarchy.Outline
import Bantam.Listing.Snippet
import Bantam.Listing.Tokens
import Bantam.Listing.Tree
import Bantam.Session

/-! The command line: what the arguments ask for, and what is written for a source text. -/
namespace Bantam

inductive Mode where
  | scan
  | parse
  | check
  deriving DecidableEq, Repr

def Mode.ofText? : String → Option Mode
  | "scan" => some .scan
  | "parse" => some .parse
  | "check" => some .check
  | _ => none

structure Options where
  input : Option String := none
  mode : Mode := .check
  verbose : Bool := false
  dumpTokens : Bool := false
  dumpTree : Bool := false
  dumpHierarchy : Bool := false
  plain : Bool := false

inductive UsageError where
  | unexpected (argument : String)
  | missingMode
  | invalidMode (text : String)
  | missingInput
  deriving DecidableEq, Repr

def UsageError.message : UsageError → String
  | unexpected argument => s!"unexpected argument '{argument}' found"
  | missingMode => "a value is required for '--mode <MODE>' but none was supplied"
  | invalidMode text => s!"invalid value '{text}' for '--mode <MODE>'"
  | missingInput => "the following required arguments were not provided: <INPUT>"

namespace Options

def setInput (options : Options) (argument : String) : Except UsageError Options :=
  if options.input.isSome then .error (.unexpected argument)
  else .ok { options with input := some argument }

def setMode (options : Options) (text : String) : Except UsageError Options :=
  match Mode.ofText? text with
  | some mode => .ok { options with mode }
  | none => .error (.invalidMode text)

inductive Request where
  -- The options change, and the argument is used up.
  | change (outcome : Except UsageError Options)
  -- The mode is given by the next argument.
  | mode (options : Options)

/-- Reads letters behind a single dash. What follows the letter for the mode is its value. -/
def readLetters (options : Options) (argument : String) : List Char → Request
  | [] => .change (.ok options)
  | 'v' :: rest => readLetters { options with verbose := true } argument rest
  | ['m'] => .mode options
  | 'm' :: '=' :: value => .change (options.setMode (String.ofList value))
  | 'm' :: value => .change (options.setMode (String.ofList value))
  | _ => .change (.error (.unexpected argument))

def readDashed (options : Options) (argument : String) : Request :=
  match argument with
  | "--mode" => .mode options
  | "--verbose" => .change (.ok { options with verbose := true })
  | "--dump-tokens" => .change (.ok { options with dumpTokens := true })
  | "--dump-ast" => .change (.ok { options with dumpTree := true })
  | "--dump-hierarchy" => .change (.ok { options with dumpHierarchy := true })
  | "--plain" => .change (.ok { options with plain := true })
  | _ =>
    match argument.toList with
    | '-' :: '-' :: 'm' :: 'o' :: 'd' :: 'e' :: '=' :: value =>
      .change (options.setMode (String.ofList value))
    | '-' :: '-' :: _ => .change (.error (.unexpected argument))
    | '-' :: letters => options.readLetters argument letters
    | _ => .change (options.setInput argument)

/-- Reads arguments in order. All that follow a double dash are inputs. -/
def read (options : Options) : List String → Except UsageError Options
  | [] => .ok options
  | "--" :: inputs => inputs.foldlM setInput options
  | "-" :: rest => do (← options.setInput "-").read rest
  | argument :: rest =>
    match options.readDashed argument, rest with
    | .change outcome, rest => do (← outcome).read rest
    | .mode _, [] => .error .missingMode
    | .mode options, value :: rest => do (← options.setMode value).read rest

def ofArguments (arguments : List String) : Except UsageError (Options × String) := do
  let options ← read {} arguments
  match options.input with
  | some input => return (options, input)
  | none => throw .missingInput

end Options

inductive ReadError where
  | notFound
  | notText
  | failed (reason : String)
  deriving DecidableEq, Repr

def ReadError.reason : ReadError → String
  | notFound => "No such file or directory (os error 2)"
  | notText => "stream did not contain valid UTF-8"
  | failed reason => reason

/-- What a run writes, and the number with which it ends. -/
structure Response where
  exit : Nat
  output : String := ""
  errors : String := ""
  deriving DecidableEq, Repr

def unlines (lines : List String) : String := String.join (lines.map (· ++ "\n"))

def framed (name text : String) : String :=
  s!"=== {name} ===\n" ++ text ++ s!"=== End {name} ===\n\n"

namespace Options

structure Stages where
  output : String := ""
  dumps : String := ""
  diagnostics : List Diagnostic

def dumpWhen (wanted : Bool) (name text : String) : String :=
  if wanted then framed name text else ""

def process (options : Options) (session : Session) : Stages :=
  match options.mode with
  | .scan =>
    let (tokens, scanned) := session.scan
    let listing := listTokens tokens
    { output := if options.dumpTokens then "" else listing
      dumps := dumpWhen options.dumpTokens "Tokens" listing
      diagnostics := scanned.diagnostics }
  | mode =>
    match session.parse with
    | (.error _, parsed) => { diagnostics := parsed.diagnostics }
    | (.ok program, parsed) =>
      let tree := dumpWhen options.dumpTree "AST" (listProgram program ++ "\n")
      if mode = .parse then { dumps := tree, diagnostics := parsed.diagnostics }
      else
        let analysis := analyzeAfter parsed.diagnostics program
        { dumps := tree ++
            dumpWhen options.dumpHierarchy "Class Hierarchy" analysis.hierarchy.outline
          diagnostics := analysis.diagnostics }

def reportLines (options : Options) (session : Session) (diagnostics : List Diagnostic) :
    List String :=
  if options.plain then diagnostics.map toString
  else diagnostics.flatMap (Diagnostic.reportLines session.file session.source)

def closingLines (options : Options) (session : Session) (diagnostics : List Diagnostic) :
    List String :=
  if !diagnostics.isEmpty then [s!"{diagnostics.length} error(s) found"]
  else if options.verbose then [s!"{session.file}: no errors"]
  else []

/-- What is written for an input that was read, or could not be. -/
def respond (options : Options) (input : String) : Except ReadError String → Response
  | .error error =>
    let reason := error.reason
    { exit := 2
      errors := s!"error: cannot read {input}: IO error: {reason}: {reason}\n" }
  | .ok source =>
    let session : Session := { file := input, source }
    let stages := options.process session
    { exit := if stages.diagnostics.isEmpty then 0 else 1
      output := stages.output
      errors := stages.dumps ++ unlines (options.reportLines session stages.diagnostics ++
        options.closingLines session stages.diagnostics) }

end Options

def UsageError.respond (error : UsageError) : Response where
  exit := 2
  errors := s!"error: {error.message}\n"

end Bantam
