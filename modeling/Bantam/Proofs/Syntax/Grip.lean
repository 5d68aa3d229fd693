import Bantam.Proofs.Syntax.Beginnings

/-! What follows a text. Tokens are ranked by the expressions that they hold on to: an operator to
its left operand, a dot to what it selects from, a bracket to the name before it. No reading goes on
with a token that holds on less tightly than what is being read. -/
namespace Bantam

/-- The height of the operators that a kind of sign stands for. -/
def Kind.grip : Kind → Nat
  | assign => 1
  | or => 2
  | and => 3
  | equal | notEqual => 4
  | less | lessEqual | greater | greaterEqual => 5
  | plus | minus => 6
  | star | slash | percent => 7
  | plusPlus | minusMinus => 8
  | dot => 9
  | leftParen | leftBracket => 10
  | _ => 0

/-- How tightly a token holds on to what stands before it. -/
def Token.grip (token : Token) : Nat :=
  if token.isWord "instanceof" then 5 else token.kind.grip

def Level.grip : Level → Nat
  | or => 2
  | and => 3
  | equality => 4
  | relational => 5
  | additive => 6
  | multiplicative => 7

/-- What follows holds on less tightly than this. -/
def Loose (bound : Nat) (rest : List Token) : Prop :=
  ∀ token ∈ rest.head?, token.grip < bound

theorem Loose.mono {bound larger : Nat} {rest : List Token} (loose : Loose bound rest)
    (wider : bound ≤ larger) : Loose larger rest := by
  intro token isHead
  exact Nat.lt_of_lt_of_le (loose token isHead) wider

theorem Loose.cons {bound : Nat} {token : Token} {rest : List Token} (below : token.grip < bound) :
    Loose bound (token :: rest) := by
  intro head isHead
  cases isHead
  exact below

theorem Token.grip_of_kind {token : Token} (notWord : token.kind ≠ .identifier) :
    token.grip = token.kind.grip := by
  refine if_neg fun isWord => notWord (Token.kind_of_isWord isWord)

theorem Loose.ofKind {bound : Nat} {kind : Kind} {token : Token} {rest : List Token}
    (isKind : token.kind = kind) (notWord : kind ≠ .identifier) (below : kind.grip < bound) :
    Loose bound (token :: rest) := by
  subst isKind
  exact .cons (by rwa [Token.grip_of_kind notWord])

theorem Loose.ofTest {word : Token} {rest : List Token} (tests : word.isWord "instanceof") :
    Loose 6 (word :: rest) :=
  .cons (by rw [Token.grip, if_pos tests]; decide)

theorem Token.kind_ne_of_grip {token : Token} {kind : Kind} {bound : Nat}
    (below : token.grip < bound) (notWord : kind ≠ .identifier) (above : bound ≤ kind.grip) :
    token.kind ≠ kind := by
  rintro rfl
  rw [Token.grip_of_kind notWord] at below
  omega

theorem Loose.readKind? {kind : Kind} {bound : Nat} {tokens rest : List Token}
    (loose : Loose bound rest) (left : tokens = rest) (notWord : kind ≠ .identifier)
    (above : bound ≤ kind.grip) : readKind? kind tokens = none :=
  readKind?_eq_none fun token isHead =>
    Token.kind_ne_of_grip (loose token (left ▸ isHead)) notWord above

section Operators

theorem Level.grip_of_operator? {level : Level} {kind : Kind} {op : BinaryOp}
    (stands : level.operator? kind = some op) : kind.grip = level.grip := by
  unfold Level.operator? at stands
  split at stands <;> first | rfl | contradiction

theorem Level.operator?_identifier (level : Level) : level.operator? .identifier = none := by
  cases level <;> rfl

theorem Level.signed_eq_none {level : Level} {token : Token} (below : token.grip < level.grip) :
    signed level.operator? token = none := by
  refine Option.map_eq_none_iff.mpr (Option.eq_none_iff_forall_ne_some.mpr fun op stands => ?_)
  have notWord : token.kind ≠ .identifier := fun isIdentifier => by
    rw [isIdentifier, level.operator?_identifier] at stands
    contradiction
  rw [Token.grip_of_kind notWord, level.grip_of_operator? stands] at below
  omega

theorem Level.typeTest?_eq_none {level : Level} {token : Token} (below : token.grip < level.grip) :
    level.typeTest? token = none := by
  unfold Level.typeTest?
  split
  · next isRelational =>
    refine if_neg fun isWord => ?_
    rw [isRelational, Token.grip, if_pos isWord] at below
    contradiction
  · rfl

theorem readMoreOperators_of_loose {level : Level} {tokens : List Token}
    {left : Reading Operand tokens} (loose : Loose level.grip left.rest) :
    readMoreOperators level left = .ok left := by
  rw [readMoreOperators]
  rw [readToken?_eq_none fun token isHead => Level.signed_eq_none (loose token isHead)]
  dsimp only
  rw [readToken?_eq_none fun token isHead => Level.typeTest?_eq_none (loose token isHead)]
  rfl

theorem UnaryOp.grip_of_behind? {kind : Kind} {op : UnaryOp}
    (stands : UnaryOp.behind? kind = some op) : kind.grip = 8 := by
  unfold UnaryOp.behind? at stands
  split at stands <;> first | rfl | contradiction

theorem UnaryOp.signed_eq_none {token : Token} (below : token.grip < 8) :
    signed UnaryOp.behind? token = none := by
  refine Option.map_eq_none_iff.mpr (Option.eq_none_iff_forall_ne_some.mpr fun op stands => ?_)
  have notWord : token.kind ≠ .identifier := fun isIdentifier => by
    rw [isIdentifier] at stands
    contradiction
  rw [Token.grip_of_kind notWord, UnaryOp.grip_of_behind? stands] at below
  omega

end Operators

end Bantam
