import Bantam.Hierarchy.Members

/-! What an expression or a statement is checked against, and the rules for names. A name that does
not resolve is an error; the type of the root class then stands in for the type it would have. -/
namespace Bantam

/-- The place of a piece of code: its class, its method and the variables in scope. -/
structure Context where
  hierarchy : Hierarchy
  classId : ClassId
  locals : SymbolTable Ty
  method : String := ""
  returns : Ty := .void
  inLoop : Bool := false

structure Qualifier where
  name : Option String
  type : Ty
  deriving DecidableEq, Repr

def Ty.element? : Ty → Option Ty
  | array element => some element
  | named _ => none

def orObject : Except SemanticError Ty → Ty
  | .ok type => type
  | .error _ => .object

namespace Context

def ofClass (hierarchy : Hierarchy) (classId : ClassId) : Context where
  hierarchy
  classId
  locals := SymbolTable.empty.push

def ofMethod (hierarchy : Hierarchy) (classId : ClassId) (method : Method) : Context where
  hierarchy
  classId
  locals := (method.bindFormals .empty).table.push
  method := method.name
  returns := method.returns

def nested (ctx : Context) : Context := { ctx with locals := ctx.locals.push }

def inBody (ctx : Context) : Context := { ctx.nested with inLoop := true }

def className (ctx : Context) : String := ctx.hierarchy.nameOf ctx.classId

def parentName (ctx : Context) : String :=
  match ctx.hierarchy.parentOf? ctx.classId with
  | some parent => ctx.hierarchy.nameOf parent
  | none => rootClass

def conforms (ctx : Context) (actual expected : Ty) : Bool := ctx.hierarchy.conforms actual expected

def checkType (ctx : Context) (type : Ty) : Except SemanticError Ty :=
  if type = .void then .error .misplacedVoid
  else if ctx.hierarchy.hasType type then .ok type
  else .error (.unknownType type)

def resolveClass (ctx : Context) (name : String) : Except SemanticError Ty :=
  if (ctx.hierarchy.idOf? name).isSome then .ok (.named name)
  else .error (.unknownType (.named name))

/-- The type of a name that stands alone: a special name, a variable in scope or a field. -/
def resolveName (ctx : Context) (name : String) : Except SemanticError Ty :=
  if name = "this" then .ok (.named ctx.className)
  else if name = "super" then .ok (.named ctx.parentName)
  else if name = "null" then .ok .null
  else match ctx.locals.lookupChain name <|> ctx.hierarchy.lookupField ctx.classId name with
    | some type => .ok type
    | none => .error (.undeclaredVariable name)

def ownerOf? (ctx : Context) (qualifier : Qualifier) : Option ClassId :=
  if qualifier.name = some "this" then some ctx.classId
  else if qualifier.name = some "super" then ctx.hierarchy.parentOf? ctx.classId
  else none

/-- The type of a name behind a dot: a field of this object, or the length of an array. -/
def resolveField (ctx : Context) (qualifier : Qualifier) (name : String) (indexed : Bool) :
    Except SemanticError Ty :=
  match ctx.ownerOf? qualifier with
  | some owner =>
    match ctx.hierarchy.lookupField owner name with
    | some type => .ok type
    | none => .error (.missingField (ctx.hierarchy.nameOf owner) name)
  | none =>
    if qualifier.type.isArray && name == "length" && !indexed then .ok .int
    else .error .inaccessibleField

def resolveVariable (ctx : Context) (qualifier : Option Qualifier) (name : String)
    (indexed : Bool) : Except SemanticError Ty :=
  match qualifier with
  | none => ctx.resolveName name
  | some qualifier => ctx.resolveField qualifier name indexed

/-- Special names and the length of an array can be read, but not assigned to. -/
def isReadOnly (qualifier : Option Qualifier) (name : String) (indexed : Bool) : Bool :=
  !indexed && match qualifier with
    | none => name == "this" || name == "super" || name == "null"
    | some qualifier => name == "length" && qualifier.type.isArray

def variableType (ctx : Context) (qualifier : Option Qualifier) (name : String) (indexed : Bool) :
    Ty :=
  let type := orObject (ctx.resolveVariable qualifier name indexed)
  if indexed then type.element?.getD type else type

def receiverClass? (ctx : Context) : Option Ty → Option ClassId
  | none => some ctx.classId
  | some type => ctx.hierarchy.classOf? type

def calledMethod? (ctx : Context) (receiver : Option Ty) (method : String) : Option Signature :=
  (ctx.receiverClass? receiver).bind (ctx.hierarchy.lookupMethod · method)

def callType (ctx : Context) (receiver : Option Ty) (method : String) : Ty :=
  ((ctx.calledMethod? receiver method).map Signature.returns).getD .object

def declareVariable (ctx : Context) (name : String) (type : Ty) :
    Except SemanticError (SymbolTable Ty) :=
  if isReserved name then .error (.reservedName name)
  else if (ctx.locals.lookupChain name).isSome then .error (.duplicateVariable name ctx.method)
  else .ok (ctx.locals.add name type)

/-- The place behind a statement. Only declarations change it. -/
def after (ctx : Context) : Stmt → Context
  | .decl _ type name _ =>
    match ctx.declareVariable name type with
    | .ok locals => { ctx with locals }
    | .error _ => ctx
  | _ => ctx

end Context

end Bantam
