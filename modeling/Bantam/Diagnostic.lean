import Bantam.Span

/-! Records of what is wrong with a program. Diagnostics are collected in lists, in the order in
which they are found, which follows the stages of the analysis and not the source text. -/
namespace Bantam

inductive Stage where
  | lexical
  | syntactic
  | semantic
  deriving DecidableEq, Repr

def Stage.title : Stage → String
  | .lexical => "Lexical error"
  | .syntactic => "Syntax error"
  | .semantic => "Semantic error"

structure Diagnostic where
  stage : Stage
  file : String
  span : Span
  message : String
  deriving DecidableEq, Repr

namespace Diagnostic

/-- The line that a diagnostic points at is the one on which its span starts. -/
def line (diagnostic : Diagnostic) : Nat := diagnostic.span.line

instance : ToString Diagnostic where
  toString d := s!"{d.message} ({d.file}:{d.line})"

def countOf (stage : Stage) (diagnostics : List Diagnostic) : Nat :=
  diagnostics.countP (·.stage == stage)

end Diagnostic

end Bantam
