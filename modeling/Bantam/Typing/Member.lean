import Bantam.Typing.Statement

/-! Typing of the members of a class. -/
namespace Bantam

namespace Hierarchy

def issuesOfField (hierarchy : Hierarchy) (id : ClassId) (field : Field) : List Issue :=
  let ctx := Context.ofClass hierarchy id
  Issue.ofOutcome field.span (ctx.checkType field.type) ++
    match field.init with
    | none => []
    | some init =>
      ctx.issuesOf init ++ ctx.initializerIssues field.type .field field.name init

def returnTypeIssues (hierarchy : Hierarchy) (method : Method) : List Issue :=
  Issue.ofCondition (method.returns != .void && !hierarchy.hasType method.returns) method.span
    (.unknownReturnType method.returns method.name)

/-- The issue of a method that differs in its types from the one that it overrides. -/
def overrideIssues (hierarchy : Hierarchy) (id : ClassId) (method : Method) : List Issue :=
  match (hierarchy.parentOf? id).bind (hierarchy.lookupMethod · method.name) with
  | none => []
  | some inherited =>
    Issue.ofCondition (!(Signature.ofMethod method).sameTypes inherited) method.span
      (.signatureMismatch method.name)

def issuesOfMethod (hierarchy : Hierarchy) (id : ClassId) (method : Method) : List Issue :=
  let ctx := Context.ofMethod hierarchy id method
  hierarchy.returnTypeIssues method ++ hierarchy.overrideIssues id method ++
    method.formals.flatMap
      (fun formal => Issue.ofOutcome formal.span (ctx.checkType formal.type)) ++
    ctx.issuesOfBlock method.body

def issuesOfMember (hierarchy : Hierarchy) (id : ClassId) : Member → List Issue
  | .field field => hierarchy.issuesOfField id field
  | .method method => hierarchy.issuesOfMethod id method

def classDiagnostics (hierarchy : Hierarchy) (id : ClassId) (decl : ClassDecl) : List Diagnostic :=
  (decl.members.flatMap (hierarchy.issuesOfMember id)).map (Issue.toDiagnostic decl.file)

def annotateMember (hierarchy : Hierarchy) (id : ClassId) : Member → Member
  | .field field =>
    .field { field with init := (Context.ofClass hierarchy id).annotateOption field.init }
  | .method method =>
    .method { method with body := (Context.ofMethod hierarchy id method).annotateBlock method.body }

def annotateClass (hierarchy : Hierarchy) (id : ClassId) (decl : ClassDecl) : ClassDecl :=
  { decl with members := decl.members.map (hierarchy.annotateMember id) }

end Hierarchy

end Bantam
