import Bantam.Analysis
import Bantam.Parsing.Parser
import Bantam.TokenStream

/-! Sessions. A session holds one source text and the diagnostics of its last run; every run starts
without any. -/
namespace Bantam

inductive CompileError where
  | parsing (error : SyntaxError)
  | analysis (error : AnalysisError)
  deriving DecidableEq, Repr

def CompileError.message : CompileError → String
  | parsing error => error.message
  | analysis error => error.message

structure Session where
  file : String
  source : String
  diagnostics : List Diagnostic := []

namespace Session

def scan (session : Session) : List Token × Session :=
  let (tokens, stream) := (TokenStream.ofText session.file session.source).items
  (tokens, { session with diagnostics := stream.reported })

def parse (session : Session) : Except CompileError Program × Session :=
  let (outcome, diagnostics) := Bantam.parse session.file session.source
  (outcome.mapError .parsing, { session with diagnostics })

/-- Parses the source text and analyses the program. -/
def check (session : Session) : Except CompileError Analysis × Session :=
  match session.parse with
  | (.error error, parsed) => (.error error, parsed)
  | (.ok program, parsed) =>
    let analysis := analyzeAfter parsed.diagnostics program
    (analysis.outcome.mapError .analysis |>.map fun _ => analysis,
      { parsed with diagnostics := analysis.diagnostics })

end Session

end Bantam
