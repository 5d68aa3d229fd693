import Bantam.Program
import Bantam.SymbolTable

/-! The class hierarchy: all classes that a program can name, numbered in the order in which they
were registered, with their parents and their members. Children and counts are kept beside the
parent links, from which they can be computed again. -/
namespace Bantam

def rootClass : String := "Object"

def mainClass : String := "Main"

def mainMethod : String := "main"

def builtinFile : String := "<builtin>"

abbrev ClassId : Type := Nat

/-- What callers of a method need to know, with the place of its declaration. -/
structure Signature where
  name : String
  returns : Ty
  formals : List (Ty × String)
  span : Span
  deriving DecidableEq, Repr

namespace Signature

def ofMethod (method : Method) : Signature where
  name := method.name
  returns := method.returns
  formals := method.formals.map fun formal => (formal.type, formal.name)
  span := method.span

def types (signature : Signature) : List Ty := signature.formals.map Prod.fst

def sameTypes (left right : Signature) : Bool :=
  left.returns == right.returns && left.types == right.types

end Signature

/-- Where a class is declared: nowhere, if it is built in, or at a place of the program. -/
inductive Origin where
  | builtin (decl : ClassDecl)
  | declared (index : Nat)

def Origin.decl? (program : Program) : Origin → Option ClassDecl
  | builtin decl => some decl
  | declared index => program.classes[index]?

def Origin.index? : Origin → Option Nat
  | builtin _ => none
  | declared index => some index

structure ClassNode where
  name : String
  origin : Origin
  extendable : Bool := true
  parent : Option ClassId := none
  children : List ClassId := []
  descendants : Nat := 0
  fields : SymbolTable Ty := .empty
  methods : SymbolTable Signature := .empty

def ClassNode.isBuiltin (node : ClassNode) : Bool := node.origin.index?.isNone

structure Hierarchy where
  nodes : List ClassNode

namespace Hierarchy

def empty : Hierarchy := ⟨[]⟩

def size (hierarchy : Hierarchy) : Nat := hierarchy.nodes.length

def ids (hierarchy : Hierarchy) : List ClassId := List.range hierarchy.size

def node? (hierarchy : Hierarchy) (id : ClassId) : Option ClassNode := hierarchy.nodes[id]?

def idOf? (hierarchy : Hierarchy) (name : String) : Option ClassId :=
  hierarchy.nodes.findIdx? fun node => node.name == name

def find? (hierarchy : Hierarchy) (name : String) : Option ClassNode :=
  hierarchy.nodes.find? fun node => node.name == name

def root? (hierarchy : Hierarchy) : Option ClassId := hierarchy.idOf? rootClass

def nameOf (hierarchy : Hierarchy) (id : ClassId) : String :=
  ((hierarchy.node? id).map ClassNode.name).getD ""

def parentOf? (hierarchy : Hierarchy) (id : ClassId) : Option ClassId :=
  (hierarchy.node? id).bind ClassNode.parent

def classOf? (hierarchy : Hierarchy) : Ty → Option ClassId
  | .named name => hierarchy.idOf? name
  | .array _ => none

/-- At most this many classes on the way up from one that may be there. -/
def climb (hierarchy : Hierarchy) : Nat → Option ClassId → List ClassId
  | steps + 1, some id => id :: hierarchy.climb steps (hierarchy.parentOf? id)
  | _, _ => []

/-- The parent of a class, its parent, and so on. The walk stops at the root, or once it has made as
many steps as there are classes. -/
def ancestors (hierarchy : Hierarchy) (id : ClassId) : List ClassId :=
  hierarchy.climb hierarchy.size (hierarchy.parentOf? id)

def isSubclass (hierarchy : Hierarchy) (lower upper : ClassId) : Bool :=
  lower == upper || (hierarchy.ancestors lower).contains upper

/-- Values of the first type can be used where the second is asked for. The type of `null` conforms
to every class and every array, and arrays conform to the root class. -/
def conforms (hierarchy : Hierarchy) (actual expected : Ty) : Bool :=
  actual == expected ||
    match actual with
    | .array _ => expected == .named rootClass
    | .named name =>
      if name = "null" then expected.isArray || (hierarchy.classOf? expected).isSome
      else match hierarchy.idOf? name, hierarchy.classOf? expected with
        | some lower, some upper => hierarchy.isSubclass lower upper
        | _, _ => false

def isElement (hierarchy : Hierarchy) : Ty → Bool
  | .named name => name == "int" || name == "boolean" || (hierarchy.idOf? name).isSome
  | .array _ => false

/-- The types that values can be declared with: the basic types, the classes and arrays of those. -/
def hasType (hierarchy : Hierarchy) : Ty → Bool
  | .array element => hierarchy.isElement element
  | type => hierarchy.isElement type

def lookupField (hierarchy : Hierarchy) (id : ClassId) (name : String) : Option Ty := do
  let resolve := fun id => (hierarchy.node? id).map ClassNode.fields
  SymbolTable.lookup resolve name hierarchy.size (← resolve id)

def lookupMethod (hierarchy : Hierarchy) (id : ClassId) (name : String) : Option Signature := do
  let resolve := fun id => (hierarchy.node? id).map ClassNode.methods
  SymbolTable.lookup resolve name hierarchy.size (← resolve id)

def insert (hierarchy : Hierarchy) (node : ClassNode) : Hierarchy := ⟨hierarchy.nodes ++ [node]⟩

def mapNodes (hierarchy : Hierarchy) (change : ClassId → ClassNode → ClassNode) : Hierarchy :=
  ⟨hierarchy.nodes.mapIdx change⟩

/-- Computes children and counts from the parent links. -/
def rebuild (hierarchy : Hierarchy) : Hierarchy :=
  let chains := hierarchy.ids.map hierarchy.ancestors
  hierarchy.mapNodes fun id node => { node with
    children := hierarchy.ids.filter fun child => hierarchy.parentOf? child == some id
    descendants := chains.countP fun chain => chain.contains id }

end Hierarchy

end Bantam
