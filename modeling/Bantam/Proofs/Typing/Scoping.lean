import Bantam.Proofs.Hierarchy.MemberBinding
import Bantam.Proofs.Typing.Pieces

/-! Where variables are in scope. At every moment of the check of a body, the open scopes together
bind what is declared around the piece that is checked, each name once: what is declared in a block
or in a branch behind it is gone, and what is declared further on has not been bound. So a name that
stands for a variable stands for the one declaration around it that has this name. -/
namespace Bantam
open Typing

/-- The table has open scopes, over which the accepted ones of some declarations are spread. -/
structure SymbolTable.Spreads {α : Type} (table : SymbolTable α) (entries : List (Entry α)) :
    Prop where
  isOpen : table.scopes ≠ []
  perm : table.scopes.flatten.Perm ((Entry.accepted entries).map Entry.binding)

theorem SymbolTable.lookupChain_eq_lookup {α : Type} (table : SymbolTable α) (name : String) :
    table.lookupChain name = table.scopes.flatten.lookup name := by
  rw [lookupChain]
  induction table.scopes with
  | nil => rfl
  | cons scope others ih =>
    rw [List.findSome?_cons, List.flatten_cons, List.lookup_append, ih]
    cases scope.lookup name <;> rfl

theorem Scope.lookup_of_mem {α : Type} {scope : Scope α} {name : String} {value : α}
    (distinct : (scope.map Prod.fst).Nodup) (bound : (name, value) ∈ scope) :
    scope.lookup name = some value := by
  induction scope with
  | nil => contradiction
  | cons binding rest ih =>
    obtain ⟨other, old⟩ := binding
    rw [List.map_cons, List.nodup_cons] at distinct
    rw [Scope.lookup_cons]
    cases bound with
    | head => exact if_pos rfl
    | tail _ bound =>
      have different : name ≠ other := by
        rintro rfl
        exact distinct.1 (List.mem_map.mpr ⟨_, bound, rfl⟩)
      rw [if_neg different]
      exact ih distinct.2 bound

namespace SymbolTable.Spreads
variable {α : Type} {table : SymbolTable α} {entries : List (Entry α)}
  (spreads : table.Spreads entries)
include spreads

theorem names : (table.scopes.flatten.map Prod.fst).Perm
    ((Entry.accepted entries).map Entry.name) := by
  have names := spreads.perm.map Prod.fst
  rwa [List.map_map] at names

theorem nodup_names : (table.scopes.flatten.map Prod.fst).Nodup :=
  spreads.names.nodup_iff.mpr Entry.nodup_accepted

theorem disjoint : (table.scopes.map fun scope => scope.map Prod.fst).Pairwise List.Disjoint := by
  have distinct := spreads.nodup_names
  rw [List.map_flatten] at distinct
  exact (List.nodup_flatten.mp distinct).2

theorem lookupChain {entry : Entry α} (accepted : entry ∈ Entry.accepted entries) :
    table.lookupChain entry.name = some entry.value := by
  rw [lookupChain_eq_lookup]
  refine Scope.lookup_of_mem spreads.nodup_names (spreads.perm.mem_iff.mpr ?_)
  exact List.mem_map.mpr ⟨entry, accepted, rfl⟩

theorem lookupChain_eq_none {name : String} :
    table.lookupChain name = none ↔ name ∉ (Entry.accepted entries).map Entry.name := by
  rw [lookupChain_eq_lookup, ← spreads.names.mem_iff, ← Scope.isSome_lookup,
    Option.not_isSome_iff_eq_none]

theorem push : table.push.Spreads entries :=
  ⟨List.cons_ne_nil _ _, spreads.perm⟩

theorem issue?_eq_none_iff {entry : Entry α} : entry.issue? entries = none ↔
    isReserved entry.name = false ∧ table.lookupChain entry.name = none := by
  rw [Entry.issue?_eq_none, spreads.lookupChain_eq_none, Entry.mem_names_accepted]
  refine and_congr_right fun unreserved => ?_
  simp [unreserved]

/-- One more declaration is bound in the innermost scope, if nothing is wrong with it. -/
theorem add {entry : Entry α} (free : entry.issue? entries = none) :
    (table.add entry.name entry.value).Spreads (entries ++ [entry]) := by
  obtain ⟨innermost, others, scopes⟩ := List.exists_cons_of_ne_nil spreads.isOpen
  obtain ⟨-, unbound⟩ := spreads.issue?_eq_none_iff.mp free
  have perm := spreads.perm
  rw [SymbolTable.lookupChain, scopes, List.findSome?_eq_none_iff] at unbound
  rw [scopes, List.flatten_cons] at perm
  have grown := Scope.perm_insert entry.value (unbound innermost List.mem_cons_self)
  refine ⟨List.cons_ne_nil _ _, ?_⟩
  rw [Entry.accepted_concat, free, SymbolTable.add, scopes, List.map_append]
  exact ((grown.append_right _).trans (perm.cons _)).trans (List.perm_append_singleton _ _).symm

theorem pass {entry : Entry α} {issue : Issue} (blamed : entry.issue? entries = some issue) :
    table.Spreads (entries ++ [entry]) := by
  refine ⟨spreads.isOpen, ?_⟩
  rw [Entry.accepted_concat, blamed]
  exact (List.append_nil (Entry.accepted entries)).symm ▸ spreads.perm

end SymbolTable.Spreads

def Stmt.declared? (method : String) : Stmt → Option (Entry Ty)
  | decl span type name _ => some ⟨name, type, span, .duplicateVariable name method⟩
  | _ => none

/-- A piece of a body with the declarations around it: those of the formals and, in every block that
it is in, those further up. -/
structure Site where
  piece : Piece
  enclosing : List (Entry Ty)

mutual

def Stmt.sites (method : String) (enclosing : List (Entry Ty)) (stmt : Stmt) : List Site :=
  ⟨.stmt stmt, enclosing⟩ :: stmt.exprs.map (fun expr => ⟨.expr expr, enclosing⟩) ++
    match stmt with
    | .block _ body => blockSites method enclosing body
    | .branch _ _ thenBranch elseBranch =>
      thenBranch.sites method enclosing ++ elseSites method enclosing elseBranch
    | .whileLoop _ _ body | .forLoop _ _ _ _ body => body.sites method enclosing
    | _ => []

def elseSites (method : String) (enclosing : List (Entry Ty)) : Option Stmt → List Site
  | none => []
  | some stmt => stmt.sites method enclosing

def blockSites (method : String) (enclosing : List (Entry Ty)) : List Stmt → List Site
  | [] => []
  | stmt :: rest =>
    stmt.sites method enclosing ++
      blockSites method (enclosing ++ (stmt.declared? method).toList) rest

end

def Method.sites (method : Method) : List Site :=
  blockSites method.name method.formalEntries method.body

theorem Context.locals_after (ctx : Context) (stmt : Stmt) :
    (ctx.after stmt).locals = ctx.locals ∨
      ∃ span type name init, stmt = .decl span type name init ∧ isReserved name = false ∧
        ctx.locals.lookupChain name = none ∧
        (ctx.after stmt).locals = ctx.locals.add name type := by
  cases stmt with
  | decl span type name init =>
    rw [after, declareVariable]
    cases reserved : isReserved name with
    | true => exact .inl rfl
    | false =>
      cases bound : ctx.locals.lookupChain name with
      | some => exact .inl rfl
      | none => exact .inr ⟨span, type, name, init, rfl, reserved, bound, rfl⟩
  | _ => exact .inl rfl

theorem Context.pop_after (ctx : Context) (stmt : Stmt) :
    (ctx.after stmt).locals.pop = ctx.locals.pop := by
  obtain same | ⟨_, type, name, _, -, -, -, added⟩ := ctx.locals_after stmt
  · rw [same]
  · rw [added, SymbolTable.pop_add]

/-- Behind a declaration, its variable is in scope with the others. -/
theorem Context.spreads_after (ctx : Context) {enclosing : List (Entry Ty)}
    (spreads : ctx.locals.Spreads enclosing) (stmt : Stmt) :
    (ctx.after stmt).locals.Spreads (enclosing ++ (stmt.declared? ctx.method).toList) := by
  cases stmt with
  | decl span type name init =>
    let entry : Entry Ty := ⟨name, type, span, .duplicateVariable name ctx.method⟩
    have isFree : entry.issue? enclosing = none ↔ _ := spreads.issue?_eq_none_iff
    change (ctx.after (.decl span type name init)).locals.Spreads (enclosing ++ [entry])
    cases found : entry.issue? enclosing with
    | none =>
      obtain ⟨unreserved, unbound⟩ := isFree.mp found
      have bound := spreads.add found
      simpa [after, declareVariable, entry, unreserved, unbound] using bound
    | some issue =>
      have kept : (ctx.after (.decl span type name init)).locals = ctx.locals := by
        obtain same | ⟨_, _, _, _, isDecl, unreserved, unbound, -⟩ :=
          ctx.locals_after (.decl span type name init)
        · exact same
        · cases isDecl
          rw [isFree.mpr ⟨unreserved, unbound⟩] at found
          contradiction
      rw [kept]
      exact spreads.pass found
  | _ => exact (List.append_nil enclosing).symm ▸ spreads

theorem Method.spreads_environment (method : Method) :
    method.environment.Spreads method.formalEntries := by
  rw [← method.table_bindFormals, method.bindFormals_scope]
  refine ⟨List.cons_ne_nil _ _, ?_⟩
  rw [SymbolTable.empty, List.flatten_singleton]
  exact Entry.scope_perm _

/-- What names stand for at a place with some declarations around it: a name for the one declaration
of it with which nothing is wrong, or else for a field. -/
structure Context.Scoped (ctx : Context) (enclosing : List (Entry Ty)) : Prop where
  disjoint : (ctx.locals.scopes.map fun scope => scope.map Prod.fst).Pairwise List.Disjoint
  unique : ((Entry.accepted enclosing).map Entry.name).Nodup
  declared : ∀ entry ∈ Entry.accepted enclosing, ctx.resolveName entry.name = .ok entry.value
  inherited : ∀ name, name ∉ specialNames → name ∉ (Entry.accepted enclosing).map Entry.name →
    ctx.resolveName name = match ctx.hierarchy.lookupField ctx.classId name with
      | some type => .ok type
      | none => .error (.undeclaredVariable name)

theorem Context.resolveName_ordinary (ctx : Context) {name : String}
    (ordinary : name ∉ specialNames) : ctx.resolveName name =
      match ctx.locals.lookupChain name <|> ctx.hierarchy.lookupField ctx.classId name with
      | some type => .ok type
      | none => .error (.undeclaredVariable name) := by
  simp only [mem_specialNames, not_or] at ordinary
  exact (if_neg ordinary.1).trans ((if_neg ordinary.2.1).trans (if_neg ordinary.2.2))

theorem Context.scoped_of_spreads {ctx : Context} {enclosing : List (Entry Ty)}
    (spreads : ctx.locals.Spreads enclosing) : ctx.Scoped enclosing where
  disjoint := spreads.disjoint
  unique := Entry.nodup_accepted
  declared entry accepted := by
    obtain ⟨unreserved, -⟩ := Entry.mem_names_accepted.mp (List.mem_map_of_mem accepted)
    have ordinary : entry.name ∉ specialNames := fun special => by
      have reserved : ∀ name ∈ specialNames, isReserved name = true := by decide
      rw [reserved _ special] at unreserved
      contradiction
    rw [ctx.resolveName_ordinary ordinary, spreads.lookupChain accepted]
    rfl
  inherited name ordinary absent := by
    rw [ctx.resolveName_ordinary ordinary, spreads.lookupChain_eq_none.mpr absent]
    rfl

end Bantam
