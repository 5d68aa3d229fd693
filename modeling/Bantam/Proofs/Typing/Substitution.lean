import Bantam.Proofs.Typing.ValidMembers

/-! Substitution. A method is compared only with the nearest one that it overrides; along a chain of
classes this makes all methods of a name alike, so an object can be called wherever an object of a
class above its own can be. -/
namespace Bantam
open Relation Typing

theorem Signature.sameTypes_iff {left right : Signature} :
    left.sameTypes right ↔ left.returns = right.returns ∧ left.types = right.types := by
  rw [sameTypes, Bool.and_eq_true, beq_iff_eq, beq_iff_eq]

theorem Hierarchy.lookupMethod_root {program : Program} {name : String} :
    program.hierarchy.lookupMethod 0 name =
      program.hierarchy.own ClassNode.methods name 0 := by
  have parentless : program.hierarchy.parentOf? 0 = none :=
    (parentOf?_bindMembers 0).trans (rooted_ofProgram program).parentless
  rw [lookupMethod_eq (closed_hierarchy program) (acyclic_hierarchy program)
    (chained_hierarchy program).2, ancestors_of_parentless parentless, List.findSome?_singleton]

namespace Program.Valid
open Hierarchy
variable {program typed : Program} (valid : program.Valid typed) {lower upper : ClassId}
  {name : String}
include valid

theorem builtin_of_root {decl : ClassDecl} (isClass : program.HasClass 0 decl) :
    ∃ node, builtins.node? 0 = some node ∧ node.origin = .builtin decl := by
  cases isClass with
  | builtin found origin => exact ⟨_, found, origin⟩
  | declared member registered =>
    have positive := valid.classes.enrolls.bindMembers.numberOf_pos member
    rw [numberOf, show ((ofProgram program).1.bindMembers program).idOf? decl.name = some 0
      from registered] at positive
    contradiction

theorem sameTypes_of_overrides {own inherited : Signature}
    (step : program.hierarchy.Extends lower upper)
    (found : program.hierarchy.own ClassNode.methods name lower = some own)
    (inherits : program.hierarchy.lookupMethod upper name = some inherited) :
    own.sameTypes inherited := by
  obtain ⟨decl, isClass, method, isMethod, named, rfl⟩ := valid.own_method found
  cases isClass with
  | builtin isBuiltin origin =>
    obtain rfl := builtin_extends isBuiltin step
    rw [lookupMethod_root] at inherits
    obtain ⟨root, isRoot, other, isOther, sameName, rfl⟩ := valid.own_method inherits
    obtain ⟨node, foundRoot, originRoot⟩ := valid.builtin_of_root isRoot
    exact builtin_overrides isBuiltin origin foundRoot originRoot method isMethod other isOther
      (named.trans sameName.symm)
  | declared member registered =>
    obtain ⟨member', typed⟩ := valid.memberTyped member registered (ClassDecl.mem_methods.mp isMethod)
    cases typed with
    | method returns overrides formals checked =>
      exact overrides upper inherited step (by rw [named]; exact inherits)

/-- What a class has, the classes below it have with the same types. -/
theorem lookupMethod_of_below {signature : Signature}
    (below : ReflTransGen program.hierarchy.Extends lower upper)
    (found : program.hierarchy.lookupMethod upper name = some signature) :
    ∃ own, program.hierarchy.lookupMethod lower name = some own ∧
      own.returns = signature.returns ∧ own.types = signature.types := by
  induction below using ReflTransGen.head_induction_on with
  | refl => exact ⟨signature, found, rfl, rfl⟩
  | @head lower middle step _ ih =>
    obtain ⟨inherited, inherits, returns, types⟩ := ih
    rw [lookupMethod_of_extends (closed_hierarchy program) (acyclic_hierarchy program)
      (chained_hierarchy program).2 step]
    cases isOwn : program.hierarchy.own ClassNode.methods name lower with
    | none => exact ⟨inherited, inherits, returns, types⟩
    | some own =>
      have same := valid.sameTypes_of_overrides step isOwn inherits
      obtain ⟨sameReturns, sameTypes⟩ := Signature.sameTypes_iff.mp same
      exact ⟨own, rfl, sameReturns.trans returns, sameTypes.trans types⟩

end Program.Valid

namespace Context
variable {ctx : Context} {receiver : Option Expr} {owner : ClassId} {method : String}
  {arguments : List Expr}

def owner? (ctx : Context) (receiver : Option Expr) : Option ClassId :=
  ctx.receiverClass? ((ctx.qualifierOf receiver).map Qualifier.type)

theorem receiverIssues_of_owner (known : ctx.owner? receiver = some owner) :
    ctx.receiverIssues method receiver = [] := by
  cases receiver with
  | none => rfl
  | some expr =>
    have isClass : ctx.hierarchy.classOf? (ctx.typeOf expr) = some owner := known
    rw [receiverIssues, isClass]
    rfl

theorem callIssues_eq_nil {span : Span} (known : ctx.owner? receiver = some owner) :
    ctx.callIssues span receiver method arguments = [] ↔
      ∃ signature, ctx.hierarchy.lookupMethod owner method = some signature ∧
        signature.types.length = arguments.length ∧
        ctx.argumentIssues method 1 signature.types arguments = [] := by
  rw [owner?] at known
  rw [callIssues, known]
  dsimp only
  cases found : ctx.hierarchy.lookupMethod owner method with
  | none => simp
  | some signature => by_cases count : signature.types.length = arguments.length <;> simp [count]

theorem typeOf_call {info : Info} {signature : Signature} (known : ctx.owner? receiver = some owner)
    (found : ctx.hierarchy.lookupMethod owner method = some signature) :
    ctx.typeOf (.call info receiver method arguments) = signature.returns := by
  rw [owner?] at known
  rw [typeOf, callType, calledMethod?, known, Option.bind_some, found]
  rfl

/-- A call depends on its receiver through the types of the called method alone. -/
theorem call_of_same_types {receiver' : Option Expr} {owner' : ClassId} {info : Info}
    (known : ctx.owner? receiver = some owner) (known' : ctx.owner? receiver' = some owner')
    (inherits : ∀ signature, ctx.hierarchy.lookupMethod owner method = some signature →
      ∃ own, ctx.hierarchy.lookupMethod owner' method = some own ∧
        own.returns = signature.returns ∧ own.types = signature.types)
    (before : ctx.issuesOfOption receiver' = [])
    (clean : ctx.issuesOf (.call info receiver method arguments) = []) :
    ctx.issuesOf (.call info receiver' method arguments) = [] ∧
      ctx.typeOf (.call info receiver' method arguments) =
        ctx.typeOf (.call info receiver method arguments) := by
  simp only [issuesOf, List.append_eq_nil_iff, callIssues_eq_nil known] at clean
  obtain ⟨⟨-, inside⟩, signature, found, count, fits⟩ := clean
  obtain ⟨own, foundOwn, returns, types⟩ := inherits signature found
  constructor
  · simp only [issuesOf, List.append_eq_nil_iff, callIssues_eq_nil known']
    exact ⟨⟨⟨before, receiverIssues_of_owner known'⟩, inside⟩, own, foundOwn,
      by rw [types]; exact count, by rw [types]; exact fits⟩
  · rw [typeOf_call known' foundOwn, typeOf_call known found, returns]

end Context

/-- Where an analysis succeeds, a class has all methods of the classes above it with the same types,
and a call that is right for a receiver of the upper class is right, with the same arguments and the
same result, for a receiver of the lower one. -/
theorem subclass_substitutes {earlier : List Diagnostic} {program : Program} {hierarchy : Hierarchy}
    (accepted : (analyzeAfter earlier program).outcome = .ok hierarchy) {lower upper : ClassId}
    (below : hierarchy.isSubclass lower upper) :
    (∀ name signature, hierarchy.lookupMethod upper name = some signature →
      ∃ own, hierarchy.lookupMethod lower name = some own ∧
        own.returns = signature.returns ∧ own.types = signature.types) ∧
    ∀ (ctx : Context) (receiver receiver' : Option Expr), ctx.hierarchy = hierarchy →
      ctx.owner? receiver = some upper → ctx.owner? receiver' = some lower →
      ctx.issuesOfOption receiver' = [] →
      ∀ info name arguments, ctx.issuesOf (.call info receiver name arguments) = [] →
        ctx.issuesOf (.call info receiver' name arguments) = [] ∧
          ctx.typeOf (.call info receiver' name arguments) =
            ctx.typeOf (.call info receiver name arguments) := by
  obtain ⟨valid, rfl⟩ := valid_of_accepted accepted
  rw [Hierarchy.isSubclass_iff (Hierarchy.closed_hierarchy program)] at below
  have inherits (name : String) (signature : Signature)
      (found : program.hierarchy.lookupMethod upper name = some signature) :=
    valid.lookupMethod_of_below below found
  refine ⟨inherits, ?_⟩
  rintro ctx receiver receiver' same known known' before info name arguments clean
  rw [← same] at inherits
  exact Context.call_of_same_types known known' (inherits name) before clean

-- Three classes in a row. The last one declares again what the first one declares.
def overriding : Program := ⟨[
  ⟨"Main", none, [.method ⟨.void, "main", [], [], default⟩], "Main.btm", default⟩,
  ⟨"A", none, [.method ⟨.object, "get", [⟨.int, "key", default⟩],
    [.giveBack default (some (.var ⟨default, none⟩ none "null" none))], default⟩], "A.btm", default⟩,
  ⟨"B", some "A", [], "B.btm", default⟩,
  ⟨"C", some "B", [.method ⟨.object, "get", [⟨.int, "index", default⟩],
    [.giveBack default (some (.var ⟨default, none⟩ none "this" none))], default⟩], "C.btm", default⟩]⟩

theorem subclass_substitutes_overriding :
    (analyzeAfter [] overriding).outcome = .ok overriding.hierarchy ∧
      overriding.hierarchy.isSubclass 7 5 ∧
      (∃ own, overriding.hierarchy.lookupMethod 7 "get" = some own ∧ own.returns = .object ∧
        own.types = [.int]) ∧
      (Context.ofClass overriding.hierarchy 4).issuesOf (.call ⟨default, none⟩
        (some (.new ⟨default, none⟩ "C")) "get" [.int ⟨default, none⟩ 1]) = [] := by
  have accepted : (analyzeAfter [] overriding).outcome = .ok overriding.hierarchy := by rfl
  have below : overriding.hierarchy.isSubclass 7 5 := by rfl
  obtain ⟨methods, calls⟩ := subclass_substitutes accepted below
  have call := calls (Context.ofClass overriding.hierarchy 4) (some (.new ⟨default, none⟩ "A"))
    (some (.new ⟨default, none⟩ "C")) rfl rfl rfl rfl ⟨default, none⟩ "get" [.int ⟨default, none⟩ 1] rfl
  exact ⟨accepted, below, methods "get" _ rfl, call.1⟩

end Bantam
