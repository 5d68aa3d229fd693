import Bantam.Listing.Quoted
import Bantam.Program

/-! Listings of program trees. Every node is listed by name with all it holds; what a node holds
stands on lines of its own, four blanks deeper, each entry with a comma behind it. -/
namespace Bantam

/-- What a listing is made of. -/
inductive Item where
  | atom (text : String)
  -- A name with one thing in parentheses.
  | wrapped (name : String) (content : Item)
  | record (name : String) (fields : List (String × Item))
  | sequence (items : List Item)

namespace Item

/-- The lines of an entry: deeper than what holds it, and with a comma behind the last. -/
def entryLines : List String → List String
  | [] => []
  | [last] => ["    " ++ last ++ ","]
  | line :: rest => ("    " ++ line) :: entryLines rest

def labelled (label : String) : List String → List String
  | [] => []
  | first :: rest => (label ++ ": " ++ first) :: rest

mutual

def lines : Item → List String
  | atom text => [text]
  | wrapped name content => (name ++ "(") :: entryLines content.lines ++ [")"]
  | record name fields => (name ++ " \x7b") :: fieldLines fields ++ ["\x7d"]
  | sequence items => if items.isEmpty then ["[]"] else "[" :: itemLines items ++ ["]"]

def fieldLines : List (String × Item) → List String
  | [] => []
  | field :: rest => entryLines (oneFieldLines field) ++ fieldLines rest

def oneFieldLines : String × Item → List String
  | (label, item) => labelled label item.lines

def itemLines : List Item → List String
  | [] => []
  | item :: rest => entryLines item.lines ++ itemLines rest

end

def text (value : String) : Item := atom (quoted value)

def number (value : Nat) : Item := atom (toString value)

def optional : Option Item → Item
  | none => atom "None"
  | some item => wrapped "Some" item

end Item

def BinaryOp.label : BinaryOp → String
  | add => "Add"
  | sub => "Sub"
  | mul => "Mul"
  | div => "Div"
  | mod => "Mod"
  | and => "And"
  | or => "Or"
  | eq => "Eq"
  | ne => "Ne"
  | lt => "Lt"
  | le => "Le"
  | gt => "Gt"
  | ge => "Ge"

def UnaryOp.label : UnaryOp → String
  | neg => "Neg"
  | not => "Not"
  | preInc => "PreInc"
  | preDec => "PreDec"
  | postInc => "PostInc"
  | postDec => "PostDec"

def Span.item (span : Span) : Item :=
  .record "Span" [("start", .number span.start), ("end", .number span.stop),
    ("line", .number span.line)]

namespace Expr

def itemOf (info : Info) (kind : Item) : Item :=
  .record "Expr" [("kind", kind), ("span", info.span.item),
    ("ty", .optional (info.type.map fun type => .text type.text))]

def variableItem (qualifier : Option Item) (name : String) (index : Option Item) : Item :=
  .record "VarRef" [("reference", .optional qualifier), ("name", .text name),
    ("index", .optional index)]

mutual

def item : Expr → Item
  | int info value => itemOf info (.wrapped "IntConst" (.number value))
  | bool info value => itemOf info (.wrapped "BoolConst" (.atom (toString value)))
  | string info text => itemOf info (.wrapped "StrConst" (.text text))
  | var info qualifier name index =>
    itemOf info (.wrapped "Var" (variableItem (item? qualifier) name (item? index)))
  | assign info qualifier name index value =>
    itemOf info (.record "Assign"
      [("target", variableItem (item? qualifier) name (item? index)), ("value", value.item)])
  | call info receiver method arguments =>
    itemOf info (.record "Dispatch" [("receiver", .optional (item? receiver)),
      ("method", .text method), ("args", .sequence (items arguments))])
  | new info className => itemOf info (.record "New" [("class", .text className)])
  | newArray info element size =>
    itemOf info (.record "NewArray" [("element", .text element), ("size", size.item)])
  | instanceOf info operand type =>
    itemOf info (.record "InstanceOf" [("expr", operand.item), ("ty", .text type.text)])
  | cast info type operand =>
    itemOf info (.record "Cast" [("ty", .text type.text), ("expr", operand.item)])
  | binary info op left right =>
    itemOf info (.record "Binary"
      [("op", .atom op.label), ("left", left.item), ("right", right.item)])
  | unary info op operand =>
    itemOf info (.record "Unary" [("op", .atom op.label), ("operand", operand.item)])

def item? : Option Expr → Option Item
  | none => none
  | some expr => some expr.item

def items : List Expr → List Item
  | [] => []
  | expr :: rest => expr.item :: items rest

end

end Expr

namespace Stmt

def itemOf (span : Span) (kind : Item) : Item :=
  .record "Stmt" [("kind", kind), ("span", span.item)]

mutual

def item : Stmt → Item
  | expr span value => itemOf span (.wrapped "Expr" value.item)
  | decl span type name init =>
    itemOf span (.record "Decl"
      [("ty", .text type.text), ("name", .text name), ("init", init.item)])
  | block span body => itemOf span (.wrapped "Block" (.sequence (items body)))
  | branch span condition thenBranch elseBranch =>
    itemOf span (.record "If" [("condition", condition.item), ("then_branch", thenBranch.item),
      ("else_branch", .optional (item? elseBranch))])
  | whileLoop span condition body =>
    itemOf span (.record "While" [("condition", condition.item), ("body", body.item)])
  | forLoop span init condition update body =>
    itemOf span (.record "For" [("init", .optional (Expr.item? init)),
      ("condition", .optional (Expr.item? condition)),
      ("update", .optional (Expr.item? update)), ("body", body.item)])
  | leave span => itemOf span (.atom "Break")
  | giveBack span value => itemOf span (.wrapped "Return" (.optional (Expr.item? value)))

def item? : Option Stmt → Option Item
  | none => none
  | some stmt => some stmt.item

def items : List Stmt → List Item
  | [] => []
  | stmt :: rest => stmt.item :: items rest

end

end Stmt

def Formal.item (formal : Formal) : Item :=
  .record "Formal" [("ty", .text formal.type.text), ("name", .text formal.name),
    ("span", formal.span.item)]

def Field.item (field : Field) : Item :=
  .record "Field" [("ty", .text field.type.text), ("name", .text field.name),
    ("init", .optional (field.init.map Expr.item)), ("span", field.span.item)]

def Method.item (method : Method) : Item :=
  .record "Method" [("return_type", .text method.returns.text), ("name", .text method.name),
    ("formals", .sequence (method.formals.map Formal.item)),
    ("body", .sequence (Stmt.items method.body)), ("span", method.span.item)]

def Member.item : Member → Item
  | .field f => .wrapped "Field" f.item
  | .method m => .wrapped "Method" m.item

def ClassDecl.item (decl : ClassDecl) : Item :=
  .record "Class" [("name", .text decl.name), ("parent", .optional (decl.parent.map Item.text)),
    ("members", .sequence (decl.members.map Member.item)), ("file", .text decl.file),
    ("span", decl.span.item)]

def Program.item (program : Program) : Item :=
  .record "Program" [("classes", .sequence (program.classes.map ClassDecl.item))]

/-- The listing of a program, without a line end behind its last line. -/
def listProgram (program : Program) : String := "\n".intercalate program.item.lines

end Bantam
