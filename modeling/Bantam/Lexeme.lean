import Bantam.Token

/-! Lexical rules. At a character that is not blank, exactly one lexeme starts: the longest piece
of text that some rule accepts, or a malformed piece with the reason why it is none. -/
namespace Bantam

def maxStringUnits : Nat := 5000

def maxInteger : Nat := 2147483647

inductive LexicalError where
  | unsupportedCharacter (character : Char)
  | integerTooLarge
  | unterminatedString
  | multiLineString
  | illegalEscape (character : Char)
  | stringTooLong
  | unterminatedComment
  deriving DecidableEq, Repr

namespace LexicalError

def summary : LexicalError → String
  | unsupportedCharacter _ => "unsupported character"
  | integerTooLarge => "integer constant too large"
  | unterminatedString => "unterminated string"
  | multiLineString => "multi-line string"
  | illegalEscape character => s!"illegal escape sequence \\{character} in string"
  | stringTooLong => "string constant too long"
  | unterminatedComment => "unterminated block comment"

def message : LexicalError → String
  | unsupportedCharacter character => s!"unsupported character '{character}'"
  | error => error.summary

end LexicalError

/-- What starts at a character: a kind of token or an error, and how many more characters it
takes. -/
structure Lexeme where
  outcome : Except LexicalError Kind
  more : Nat

def isBlank (c : Char) : Bool :=
  c == ' ' || c == '\t' || c == '\r' || c == '\n' || c == '\x0c'

def isLetter (c : Char) : Bool := ('a' ≤ c && c ≤ 'z') || ('A' ≤ c && c ≤ 'Z')

def isDigit (c : Char) : Bool := '0' ≤ c && c ≤ '9'

def isWordPart (c : Char) : Bool := isLetter c || isDigit c || c == '_'

def isEscape (c : Char) : Bool := c == 'n' || c == 't' || c == '"' || c == '\\' || c == 'f'

def decimalValue (digits : List Char) : Nat :=
  digits.foldl (fun value digit => 10 * value + (digit.toNat - '0'.toNat)) 0

namespace Lexeme

def word (first : Char) (rest : List Char) : Lexeme :=
  let part := rest.takeWhile isWordPart
  let text := first :: part
  { outcome := .ok (if text = "true".toList ∨ text = "false".toList then .boolean else .identifier)
    more := part.length }

def integer (first : Char) (rest : List Char) : Lexeme :=
  let part := rest.takeWhile isDigit
  { outcome := if decimalValue (first :: part) ≤ maxInteger then .ok .integer
      else .error .integerTooLarge
    more := part.length }

/-- What has been read of a string constant: characters, units, whether a line was continued by a
backslash, and the first escape that is not allowed. -/
structure StringBody where
  characters : Nat := 0
  units : Nat := 0
  continued : Bool := false
  badEscape : Option Char := none

namespace StringBody

def plain (body : StringBody) : StringBody :=
  { body with characters := body.characters + 1, units := body.units + 1 }

def escape (body : StringBody) (c : Char) : StringBody where
  characters := body.characters + 2
  units := body.units + 1
  continued := body.continued || c == '\n'
  badEscape := if isEscape c || c == '\n' then body.badEscape else body.badEscape.or (some c)

def verdict (body : StringBody) : Except LexicalError Kind :=
  if body.continued then .error .multiLineString
  else match body.badEscape with
    | some c => .error (.illegalEscape c)
    | none => if body.units > maxStringUnits then .error .stringTooLong else .ok .string

end StringBody

/-- A string constant after its opening quote. It ends just after the next quote that no backslash
escapes; a bare line feed before that, or the end of the text, leaves it unterminated. -/
def stringFrom (body : StringBody) : List Char → Lexeme
  | [] => ⟨.error .unterminatedString, body.characters⟩
  | '"' :: _ => ⟨body.verdict, body.characters + 1⟩
  | '\n' :: _ => ⟨.error .unterminatedString, body.characters⟩
  | ['\\'] => ⟨.error .unterminatedString, body.characters + 1⟩
  | '\\' :: c :: rest => stringFrom (body.escape c) rest
  | _ :: rest => stringFrom body.plain rest

def blockEnd? : List Char → Option Nat
  | '*' :: '/' :: _ => some 2
  | _ :: rest => (blockEnd? rest).map (· + 1)
  | [] => none

def blockComment (rest : List Char) : Lexeme :=
  match blockEnd? rest with
  | some length => ⟨.ok .comment, 1 + length⟩
  | none => ⟨.error .unterminatedComment, 1 + rest.length⟩

/-- Signs: the longest operator or punctuation mark, or a comment, that starts with a character. -/
def sign (first : Char) (rest : List Char) : Lexeme :=
  match first, rest with
  | '+', '+' :: _ => ⟨.ok .plusPlus, 1⟩
  | '+', _ => ⟨.ok .plus, 0⟩
  | '-', '-' :: _ => ⟨.ok .minusMinus, 1⟩
  | '-', _ => ⟨.ok .minus, 0⟩
  | '*', _ => ⟨.ok .star, 0⟩
  | '/', '/' :: text => ⟨.ok .comment, 1 + (text.takeWhile (· != '\n')).length⟩
  | '/', '*' :: text => blockComment text
  | '/', _ => ⟨.ok .slash, 0⟩
  | '%', _ => ⟨.ok .percent, 0⟩
  | '=', '=' :: _ => ⟨.ok .equal, 1⟩
  | '=', _ => ⟨.ok .assign, 0⟩
  | '!', '=' :: _ => ⟨.ok .notEqual, 1⟩
  | '!', _ => ⟨.ok .bang, 0⟩
  | '&', '&' :: _ => ⟨.ok .and, 1⟩
  | '|', '|' :: _ => ⟨.ok .or, 1⟩
  | '<', '=' :: _ => ⟨.ok .lessEqual, 1⟩
  | '<', _ => ⟨.ok .less, 0⟩
  | '>', '=' :: _ => ⟨.ok .greaterEqual, 1⟩
  | '>', _ => ⟨.ok .greater, 0⟩
  | '.', _ => ⟨.ok .dot, 0⟩
  | ';', _ => ⟨.ok .semicolon, 0⟩
  | ':', _ => ⟨.ok .colon, 0⟩
  | ',', _ => ⟨.ok .comma, 0⟩
  | '(', _ => ⟨.ok .leftParen, 0⟩
  | ')', _ => ⟨.ok .rightParen, 0⟩
  | '{', _ => ⟨.ok .leftBrace, 0⟩
  | '}', _ => ⟨.ok .rightBrace, 0⟩
  | '[', _ => ⟨.ok .leftBracket, 0⟩
  | ']', _ => ⟨.ok .rightBracket, 0⟩
  | c, _ => ⟨.error (.unsupportedCharacter c), 0⟩

def read (first : Char) (rest : List Char) : Lexeme :=
  if isLetter first then word first rest
  else if isDigit first then integer first rest
  else if first = '"' then stringFrom {} rest
  else sign first rest

end Lexeme

end Bantam
