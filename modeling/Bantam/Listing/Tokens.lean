import Bantam.Token

/-! Listings of tokens, one to a line: the line of the source, the kind and the spelling in
columns. -/
namespace Bantam

def padding (width : Nat) (text : String) : String :=
  String.ofList (List.replicate (width - text.length) ' ')

def alignRight (width : Nat) (text : String) : String := padding width text ++ text

def alignLeft (width : Nat) (text : String) : String := text ++ padding width text

/-- The line of a token in a listing. -/
def Token.row (token : Token) : String :=
  alignRight 4 (toString token.line) ++ "  " ++ alignLeft 18 token.kind.label ++ " " ++
    token.spelling ++ "\n"

def listTokens (tokens : List Token) : String := String.join (tokens.map Token.row)

end Bantam
