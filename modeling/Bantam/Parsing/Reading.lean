import Bantam.Token
import Bantam.Program

/-! Readings. A parser is given the tokens that follow, without comments and without the end of
input, and reads a value from the first of them. What it leaves is the end of what it was given and
always shorter, so that a grammar may call itself on what is left. A failure says what was expected,
and where. -/
namespace Bantam

inductive Expectation where
  | kind (kind : Kind)
  | word (word : String)
  | expression
  | parenOrBracket
  deriving DecidableEq, Repr

def Expectation.phrase : Expectation → String
  | kind k => k.phrase
  | word w => s!"'{w}'"
  | expression => "expression"
  | parenOrBracket => "'(' or '['"

inductive Obstacle where
  | expected (expectation : Expectation)
  -- What stands before `=` is no variable that could be assigned to.
  | invalidTarget (span : Span)
  deriving DecidableEq, Repr

structure Failure where
  obstacle : Obstacle
  rest : List Token
  deriving DecidableEq, Repr

/-- A value read from the first of some tokens, at least one, and the tokens that remain. -/
structure Reading (α : Type) (tokens : List Token) where
  value : α
  rest : List Token
  isSuffix : rest <:+ tokens
  shorter : rest.length < tokens.length

/-- What a parser makes of the tokens that it is given. -/
abbrev Outcome (α : Type) (tokens : List Token) : Type := Except Failure (Reading α tokens)

namespace Reading

variable {α β : Type} {tokens : List Token}

def give (reading : Reading α tokens) (value : β) : Reading β tokens :=
  ⟨value, reading.rest, reading.isSuffix, reading.shorter⟩

def followedBy (reading : Reading α tokens) (more : Reading β reading.rest) : Reading β tokens :=
  ⟨more.value, more.rest, more.isSuffix.trans reading.isSuffix,
    Nat.lt_trans more.shorter reading.shorter⟩

end Reading

variable {α : Type}

def readToken? (choose : Token → Option α) : (tokens : List Token) → Option (Reading α tokens)
  | [] => none
  | token :: rest => (choose token).map fun value => ⟨value, rest, List.suffix_cons .., by simp⟩

/-- Reads one token from which `choose` takes a value, or fails for want of it. -/
def readToken (choose : Token → Option α) (expectation : Expectation) (tokens : List Token) :
    Outcome α tokens :=
  match readToken? choose tokens with
  | some reading => .ok reading
  | none => .error ⟨.expected expectation, tokens⟩

def spanOfKind (kind : Kind) (token : Token) : Option Span :=
  if token.kind = kind then some token.span else none

def spanOfWord (word : String) (token : Token) : Option Span :=
  if token.isWord word then some token.span else none

def readKind (kind : Kind) (tokens : List Token) : Outcome Span tokens :=
  readToken (spanOfKind kind) (.kind kind) tokens

def readKind? (kind : Kind) (tokens : List Token) : Option (Reading Span tokens) :=
  readToken? (spanOfKind kind) tokens

def readWord (word : String) (tokens : List Token) : Outcome Span tokens :=
  readToken (spanOfWord word) (.word word) tokens

def readWord? (word : String) (tokens : List Token) : Option (Reading Span tokens) :=
  readToken? (spanOfWord word) tokens

structure Name where
  text : String
  span : Span
  deriving DecidableEq, Repr

def Name.ofToken? (token : Token) : Option Name :=
  if token.isName then some ⟨token.spelling, token.span⟩ else none

def readName (tokens : List Token) : Outcome Name tokens :=
  readToken Name.ofToken? (.kind .identifier) tokens

structure TypeName where
  type : Ty
  span : Span
  deriving DecidableEq, Repr

/-- Reads a type: a name, and perhaps one pair of brackets. -/
def readType (tokens : List Token) : Outcome TypeName tokens := do
  let name ← readName tokens
  let type := Ty.named name.value.text
  match readKind? .leftBracket name.rest with
  | none => return name.give ⟨type, name.value.span⟩
  | some bracket =>
    let brackets := (name.followedBy bracket).followedBy (← readKind .rightBracket bracket.rest)
    return brackets.give ⟨type.array, name.value.span⟩

end Bantam
