import Bantam.Diagnostic

/-! Tokens: the words and signs of a source text, each with its kind, its spelling and its span.
Keywords are identifiers by kind and are recognised by their spelling. -/
namespace Bantam

def keywords : List String :=
  ["class", "extends", "if", "else", "while", "for", "return", "break", "new", "cast", "instanceof"]

def isKeyword (word : String) : Bool := keywords.contains word

/-- Names with a meaning of their own, which no member and no variable may be given. -/
def reservedNames : List String := ["null", "this", "super", "void", "int", "boolean"]

def isReserved (name : String) : Bool := reservedNames.contains name

inductive Kind where
  | boolean
  | identifier
  | integer
  | string
  | comment
  | plus
  | plusPlus
  | minus
  | minusMinus
  | star
  | slash
  | percent
  | assign
  | equal
  | notEqual
  | bang
  | and
  | or
  | less
  | lessEqual
  | greater
  | greaterEqual
  | dot
  | semicolon
  | colon
  | comma
  | leftParen
  | rightParen
  | leftBrace
  | rightBrace
  | leftBracket
  | rightBracket
  | invalid
  | endOfInput
  deriving DecidableEq, Repr

inductive Category where
  | identifier
  | literal
  | keyword
  | operator
  | punctuation
  | comment
  | invalid
  | endOfInput
  deriving DecidableEq, Repr

namespace Kind

def all : List Kind :=
  [boolean, identifier, integer, string, comment, plus, plusPlus, minus, minusMinus, star, slash,
    percent, assign, equal, notEqual, bang, and, or, less, lessEqual, greater, greaterEqual, dot,
    semicolon, colon, comma, leftParen, rightParen, leftBrace, rightBrace, leftBracket,
    rightBracket, invalid, endOfInput]

def category : Kind → Category
  | identifier => .identifier
  | boolean | integer | string => .literal
  | comment => .comment
  | dot | semicolon | colon | comma | leftParen | rightParen | leftBrace | rightBrace
  | leftBracket | rightBracket => .punctuation
  | invalid => .invalid
  | endOfInput => .endOfInput
  | plus | plusPlus | minus | minusMinus | star | slash | percent | assign | equal | notEqual
  | bang | and | or | less | lessEqual | greater | greaterEqual => .operator

def phrase : Kind → String
  | boolean => "boolean constant"
  | identifier => "identifier"
  | integer => "integer constant"
  | string => "string constant"
  | comment => "comment"
  | plus => "'+'"
  | plusPlus => "'++'"
  | minus => "'-'"
  | minusMinus => "'--'"
  | star => "'*'"
  | slash => "'/'"
  | percent => "'%'"
  | assign => "'='"
  | equal => "'=='"
  | notEqual => "'!='"
  | bang => "'!'"
  | and => "'&&'"
  | or => "'||'"
  | less => "'<'"
  | lessEqual => "'<='"
  | greater => "'>'"
  | greaterEqual => "'>='"
  | dot => "'.'"
  | semicolon => "';'"
  | colon => "':'"
  | comma => "','"
  | leftParen => "'('"
  | rightParen => "')'"
  | leftBrace => "'\x7b'"
  | rightBrace => "'\x7d'"
  | leftBracket => "'['"
  | rightBracket => "']'"
  | invalid => "invalid token"
  | endOfInput => "end of file"

def label : Kind → String
  | boolean => "BoolConst"
  | identifier => "Identifier"
  | integer => "IntConst"
  | string => "StrConst"
  | comment => "Comment"
  | plus => "Plus"
  | plusPlus => "PlusPlus"
  | minus => "Minus"
  | minusMinus => "MinusMinus"
  | star => "Star"
  | slash => "Slash"
  | percent => "Percent"
  | assign => "Assign"
  | equal => "EqEq"
  | notEqual => "NotEq"
  | bang => "Bang"
  | and => "AndAnd"
  | or => "OrOr"
  | less => "Lt"
  | lessEqual => "LtEq"
  | greater => "Gt"
  | greaterEqual => "GtEq"
  | dot => "Dot"
  | semicolon => "Semi"
  | colon => "Colon"
  | comma => "Comma"
  | leftParen => "LParen"
  | rightParen => "RParen"
  | leftBrace => "LBrace"
  | rightBrace => "RBrace"
  | leftBracket => "LBracket"
  | rightBracket => "RBracket"
  | invalid => "Error"
  | endOfInput => "Eof"

end Kind

/-- A token. The spelling of an invalid token is the message that says what is wrong with it. -/
structure Token where
  kind : Kind
  spelling : String
  span : Span
  deriving DecidableEq, Repr

namespace Token

def line (token : Token) : Nat := token.span.line

def isWord (token : Token) (word : String) : Bool :=
  token.kind == .identifier && token.spelling == word

def isName (token : Token) : Bool :=
  token.kind == .identifier && !isKeyword token.spelling

def category (token : Token) : Category :=
  if token.kind = .identifier ∧ isKeyword token.spelling then .keyword else token.kind.category

def phrase (token : Token) : String :=
  match token.kind with
  | .identifier =>
    if isKeyword token.spelling then s!"keyword '{token.spelling}'"
    else s!"{token.kind.phrase} {token.spelling}"
  | .integer | .boolean | .string => s!"{token.kind.phrase} {token.spelling}"
  | kind => kind.phrase

def diagnostic? (file : String) (token : Token) : Option Diagnostic :=
  if token.kind = .invalid then some ⟨.lexical, file, token.span, token.spelling⟩ else none

end Token

end Bantam
