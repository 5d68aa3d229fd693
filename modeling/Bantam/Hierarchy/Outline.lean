import Bantam.Hierarchy.Basic

/-! The hierarchy as an outline: one line for a class, below its parent and two blanks deeper. -/
namespace Bantam

def ClassNode.caption (node : ClassNode) : String :=
  node.name ++ (if node.isBuiltin then " (builtin)" else "") ++
    (if node.descendants > 0 then s!" [{node.descendants} descendant(s)]" else "")

namespace Hierarchy

def outlineFrom (hierarchy : Hierarchy) (depth : Nat) : Nat → ClassId → List String
  | 0, _ => []
  | generations + 1, id =>
    match hierarchy.node? id with
    | none => []
    | some node =>
      (String.join (List.replicate depth "  ") ++ node.caption) ::
        node.children.flatMap (hierarchy.outlineFrom (depth + 1) generations)

/-- The lines of all classes from the root on. A tree has no more generations than classes. -/
def outlineLines (hierarchy : Hierarchy) : List String :=
  match hierarchy.root? with
  | none => []
  | some root => hierarchy.outlineFrom 0 hierarchy.size root

def outline (hierarchy : Hierarchy) : String :=
  String.join (hierarchy.outlineLines.map (· ++ "\n"))

end Hierarchy

end Bantam
