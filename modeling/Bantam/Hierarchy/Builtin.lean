import Bantam.Hierarchy.Basic

/-! The built-in classes: the root class, and the three below it that no class may extend. -/
namespace Bantam

namespace Builtin

/-- A built-in method, which stands in no source text. -/
def method (returns : String) (name : String) (formals : List (String × String)) : Member :=
  .method {
    returns := .named returns
    name
    formals := formals.map fun (type, formal) => ⟨.named type, formal, .synthetic⟩
    body := []
    span := .synthetic }

def decl (name : String) (members : List Member) : ClassDecl where
  name
  parent := none
  members
  file := builtinFile
  span := .synthetic

def object : ClassDecl := decl rootClass [
  method "Object" "clone" [],
  method "boolean" "equals" [("Object", "o")],
  method "String" "toString" []]

def string : ClassDecl := decl "String" [
  method "int" "length" [],
  method "boolean" "equals" [("Object", "o")],
  method "String" "toString" [],
  method "String" "substring" [("int", "begin"), ("int", "end")],
  method "String" "concat" [("String", "s")]]

def textIO : ClassDecl := decl "TextIO" [
  method "void" "readStdin" [],
  method "void" "readFile" [("String", "file")],
  method "void" "writeStdout" [],
  method "void" "writeStderr" [],
  method "void" "writeFile" [("String", "file")],
  method "String" "getString" [],
  method "int" "getInt" [],
  method "TextIO" "putString" [("String", "s")],
  method "TextIO" "putInt" [("int", "i")]]

def sys : ClassDecl := decl "Sys" [
  method "void" "exit" [("int", "status")],
  method "int" "time" [],
  method "int" "random" []]

end Builtin

namespace Hierarchy

def installBuiltin (hierarchy : Hierarchy) (decl : ClassDecl) (extendable : Bool) : Hierarchy :=
  if (hierarchy.idOf? decl.name).isSome then hierarchy
  else hierarchy.insert {
    name := decl.name
    origin := .builtin decl
    extendable
    parent := hierarchy.root? }

/-- Registers the built-in classes that are missing, the root first. -/
def installBuiltins (hierarchy : Hierarchy) : Hierarchy :=
  let rooted := hierarchy.installBuiltin Builtin.object true
  let installed := [Builtin.string, Builtin.textIO, Builtin.sys].foldl
    (fun hierarchy decl => hierarchy.installBuiltin decl false) rooted
  installed.rebuild

def builtins : Hierarchy := empty.installBuiltins

end Hierarchy

end Bantam
