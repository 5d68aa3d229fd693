/-! Places in a source text. A span is a half-open range of byte offsets together with the line
on which it starts; lines count from 1, and line 0 marks what stands in no source text. -/
namespace Bantam

structure Span where
  start : Nat
  stop : Nat
  line : Nat
  deriving DecidableEq, Repr, Inhabited

namespace Span

-- The span of what has no source text, such as the members of built-in classes.
def synthetic : Span := ⟨0, 0, 0⟩

def isSynthetic (span : Span) : Bool := span.line == 0

/-- The smallest span that covers both, on the line of the one that starts first. -/
def merge (left right : Span) : Span where
  start := min left.start right.start
  stop := max left.stop right.stop
  line := if left.start ≤ right.start then left.line else right.line

instance : ToString Span where
  toString span := s!"line {span.line}"

end Span

end Bantam
