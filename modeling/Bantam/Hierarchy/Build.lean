import Bantam.Diagnostic
import Bantam.Hierarchy.Builtin
import Bantam.SemanticError

/-! Building the hierarchy of a program. The first declaration of a name is registered and later
ones are ignored. A class whose parent cannot be extended, and every class on a cycle, becomes a
child of the root, so that the result is a tree. -/
namespace Bantam

def ClassDecl.diagnostic (decl : ClassDecl) (error : SemanticError) : Diagnostic :=
  ⟨.semantic, decl.file, decl.span, error.message⟩

namespace Hierarchy

/-- Registers declarations in order, numbered from an index, and reports those that are ignored. -/
def register (hierarchy : Hierarchy) (index : Nat) : List ClassDecl → Hierarchy × List Diagnostic
  | [] => (hierarchy, [])
  | decl :: rest =>
    if (hierarchy.idOf? decl.name).isSome then
      let (registered, diagnostics) := hierarchy.register (index + 1) rest
      (registered, decl.diagnostic (.duplicateClass decl.name) :: diagnostics)
    else
      (hierarchy.insert { name := decl.name, origin := .declared index }).register (index + 1) rest

def declared (hierarchy : Hierarchy) (program : Program) : List (ClassId × ClassDecl) :=
  hierarchy.nodes.zipIdx.filterMap fun (node, id) => do
    let index ← node.origin.index?
    return (id, ← program.classes[index]?)

def requestedParent (hierarchy : Hierarchy) (decl : ClassDecl) :
    Except SemanticError (Option ClassId) :=
  match decl.parent with
  | none => .ok hierarchy.root?
  | some parent =>
    match hierarchy.idOf? parent with
    | none => .error (.undefinedParent decl.name parent)
    | some id =>
      if (hierarchy.node? id).any ClassNode.extendable then .ok (some id)
      else .error (.builtinParent decl.name parent)

def link (hierarchy : Hierarchy) (program : Program) : Hierarchy :=
  hierarchy.mapNodes fun _ node =>
    match node.origin.index?.bind (program.classes[·]?) with
    | none => node
    | some decl =>
      match hierarchy.requestedParent decl with
      | .ok parent => { node with parent }
      | .error _ => { node with parent := hierarchy.root? }

def onCycle (hierarchy : Hierarchy) (id : ClassId) : Bool := (hierarchy.ancestors id).contains id

/-- Puts every class that is on a cycle below the root. -/
def cutCycles (hierarchy : Hierarchy) : Hierarchy :=
  hierarchy.mapNodes fun id node =>
    if hierarchy.onCycle id then { node with parent := hierarchy.root? } else node

def parentDiagnostics (hierarchy : Hierarchy) (program : Program) : List Diagnostic :=
  (hierarchy.declared program).filterMap fun (_, decl) =>
    match hierarchy.requestedParent decl with
    | .ok _ => none
    | .error error => some (decl.diagnostic error)

def cycleDiagnostics (hierarchy : Hierarchy) (program : Program) : List Diagnostic :=
  (hierarchy.declared program).filterMap fun (id, decl) =>
    if hierarchy.onCycle id then some (decl.diagnostic (.cyclicClass decl.name)) else none

def mainDiagnostics (hierarchy : Hierarchy) (program : Program) : List Diagnostic :=
  match (hierarchy.find? mainClass).bind (·.origin.decl? program) with
  | none =>
    let file := (program.classes.head?.map ClassDecl.file).getD builtinFile
    [⟨.semantic, file, .synthetic, SemanticError.missingMainClass.message⟩]
  | some decl =>
    if decl.methods.any fun method => method.name == mainMethod && method.formals.isEmpty then []
    else [decl.diagnostic .missingMainMethod]

def ofProgram (program : Program) : Hierarchy × List Diagnostic :=
  let (registered, duplicates) := builtins.register 0 program.classes
  let linked := registered.link program
  let hierarchy := linked.cutCycles.rebuild
  (hierarchy, duplicates ++ registered.parentDiagnostics program ++
    linked.cycleDiagnostics program ++ hierarchy.mainDiagnostics program)

end Hierarchy

end Bantam
