import Bantam.Parsing.Statement

/-! The grammar of classes, with their fields and methods. -/
namespace Bantam

def readFormal (tokens : List Token) : Outcome Formal tokens := do
  let type ← readType tokens
  let name ← readName type.rest
  return (type.followedBy name).give
    ⟨type.value.type, name.value.text, type.value.span.merge name.value.span⟩

def readMoreFormals (tokens : List Token) : Outcome (List Formal) tokens := do
  let first ← readFormal tokens
  match readKind? .comma first.rest with
  | some comma =>
    let more ← readMoreFormals comma.rest
    return (first.followedBy (comma.followedBy more)).give (first.value :: more.value)
  | none =>
    let close ← readKind .rightParen first.rest
    return (first.followedBy close).give [first.value]
termination_by tokens.length
decreasing_by have := first.shorter; have := comma.shorter; omega

def readFormals (tokens : List Token) : Outcome (List Formal) tokens :=
  match readKind? .rightParen tokens with
  | some close => return close.give []
  | none => readMoreFormals tokens

def readBlock (tokens : List Token) : Outcome (List Stmt × Span) tokens := do
  let brace ← readKind .leftBrace tokens
  let body ← readStatements brace.rest
  return (brace.followedBy body).give (body.value.1, brace.value.merge body.value.2)

def readField (start : Span) (type : Ty) (name : String) (tokens : List Token) :
    Outcome Field tokens := do
  match readKind? .assign tokens with
  | some sign =>
    let init ← readExpr sign.rest
    let close ← readKind .semicolon init.rest
    return (sign.followedBy (init.followedBy close)).give
      ⟨type, name, some init.value, start.merge close.value⟩
  | none =>
    let close ← readKind .semicolon tokens
    return close.give ⟨type, name, none, start.merge close.value⟩

def readMethod (start : Span) (returns : Ty) (name : String) (tokens : List Token) :
    Outcome Method tokens := do
  let formals ← readFormals tokens
  let body ← readBlock formals.rest
  return (formals.followedBy body).give
    ⟨returns, name, formals.value, body.value.1, start.merge body.value.2⟩

/-- Reads a member, which is a method if a parenthesis follows its name. -/
def readMember (tokens : List Token) : Outcome Member tokens := do
  let type ← readType tokens
  let name ← readName type.rest
  let head := type.followedBy name
  let start := type.value.span
  match readKind? .leftParen name.rest with
  | some paren =>
    let method ← readMethod start type.value.type name.value.text paren.rest
    return (head.followedBy (paren.followedBy method)).give (.method method.value)
  | none =>
    let field ← readField start type.value.type name.value.text name.rest
    return (head.followedBy field).give (.field field.value)

def readMembers (tokens : List Token) : Outcome (List Member × Span) tokens :=
  match readKind? .rightBrace tokens with
  | some close => return close.give ([], close.value)
  | none => do
    if tokens.isEmpty then throw ⟨.expected (.kind .rightBrace), tokens⟩
    let first ← readMember tokens
    let more ← readMembers first.rest
    return (first.followedBy more).give (first.value :: more.value.1, more.value.2)
termination_by tokens.length
decreasing_by exact first.shorter

/-- Reads the name of a class and, if it extends another one, the name of that. -/
def readClassHead (tokens : List Token) : Outcome (String × Option String) tokens := do
  let name ← readName tokens
  match readWord? "extends" name.rest with
  | some word =>
    let parent ← readName word.rest
    return (name.followedBy (word.followedBy parent)).give (name.value.text, some parent.value.text)
  | none => return name.give (name.value.text, none)

def readClass (file : String) (tokens : List Token) : Outcome ClassDecl tokens := do
  let word ← readWord "class" tokens
  let head ← readClassHead word.rest
  let brace ← readKind .leftBrace head.rest
  let body ← readMembers brace.rest
  return (word.followedBy (head.followedBy (brace.followedBy body))).give
    ⟨head.value.1, head.value.2, body.value.1, file, word.value.merge body.value.2⟩

def readClasses (file : String) (tokens : List Token) : Except Failure (List ClassDecl) :=
  if tokens.isEmpty then return []
  else do
    let first ← readClass file tokens
    return first.value :: (← readClasses file first.rest)
termination_by tokens.length
decreasing_by exact first.shorter

end Bantam
