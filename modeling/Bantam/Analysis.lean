import Bantam.Hierarchy.Build
import Bantam.Typing.Member

/-! Semantic analysis of programs: the hierarchy of their classes, the members of these and the
types of all expressions, together with everything that is wrong. -/
namespace Bantam

namespace Hierarchy

def idOfDecl? (hierarchy : Hierarchy) (index : Nat) : Option ClassId :=
  hierarchy.nodes.findIdx? fun node => node.origin.index? == some index

def typeDiagnostics (hierarchy : Hierarchy) (program : Program) : List Diagnostic :=
  program.classes.zipIdx.flatMap fun (decl, index) =>
    match hierarchy.idOfDecl? index with
    | none => []
    | some id => hierarchy.classDiagnostics id decl

/-- The same program with the types of its expressions. Ignored declarations stay as they are. -/
def annotateProgram (hierarchy : Hierarchy) (program : Program) : Program where
  classes := program.classes.mapIdx fun index decl =>
    match hierarchy.idOfDecl? index with
    | none => decl
    | some id => hierarchy.annotateClass id decl

end Hierarchy

structure Analysis where
  program : Program
  hierarchy : Hierarchy
  diagnostics : List Diagnostic

def analyze (program : Program) : Analysis :=
  let (built, classes) := Hierarchy.ofProgram program
  let hierarchy := built.bindMembers program
  { program := hierarchy.annotateProgram program
    hierarchy
    diagnostics := classes ++ built.memberDiagnostics program ++ hierarchy.typeDiagnostics program }

def analyzeAfter (earlier : List Diagnostic) (program : Program) : Analysis :=
  let analysis := analyze program
  { analysis with diagnostics := earlier ++ analysis.diagnostics }

structure AnalysisError where
  count : Nat
  deriving DecidableEq, Repr

def AnalysisError.message (error : AnalysisError) : String :=
  s!"{error.count} error(s) found during analysis"

/-- An analysis succeeds if there are no diagnostics, earlier ones included. -/
def Analysis.outcome (analysis : Analysis) : Except AnalysisError Hierarchy :=
  if analysis.diagnostics.isEmpty then .ok analysis.hierarchy
  else .error ⟨analysis.diagnostics.length⟩

end Bantam
