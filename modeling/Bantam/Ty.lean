/-! Types as the language writes them: a name, or an array of something. The basic types, the type
of `null` and every class are told apart by their names alone, so a class called `int` would be the
same type as the integers. -/
namespace Bantam

inductive Ty where
  | named (name : String)
  | array (element : Ty)
  deriving DecidableEq, Repr, Inhabited

namespace Ty

abbrev int : Ty := named "int"
abbrev boolean : Ty := named "boolean"
abbrev void : Ty := named "void"
abbrev null : Ty := named "null"
abbrev string : Ty := named "String"
abbrev object : Ty := named "Object"

def isArray : Ty → Bool
  | array _ => true
  | named _ => false

/-- The written form: the name, followed by one pair of brackets for each array. -/
def text : Ty → String
  | named name => name
  | array element => element.text ++ "[]"

instance : ToString Ty := ⟨text⟩

/-- Reads a written type from its last character to its first. -/
def ofReversed : List Char → Ty
  | ']' :: '[' :: rest => array (ofReversed rest)
  | rest => named (String.ofList rest.reverse)

/-- Reads a written type. Pairs of brackets at the end of the text are arrays, the rest is a
name. -/
def ofText (text : String) : Ty := ofReversed text.toList.reverse

end Ty

end Bantam
