import Bantam.Proofs.Typing.StatementAdequate
import Bantam.Proofs.Typing.Validity

/-! Members. Declarations can be bound without issues if and only if their names are proper, and
then the members of a class have no issues if and only if they have derivations. -/
namespace Bantam
open Typing

theorem properNames_nil : ProperNames [] := ⟨List.nodup_nil, by simp⟩

theorem properNames_cons {name : String} {names : List String} :
    ProperNames (name :: names) ↔ (isReserved name = false ∧ name ∉ names) ∧ ProperNames names := by
  constructor
  · rintro ⟨distinct, unreserved⟩
    obtain ⟨new, distinct⟩ := List.nodup_cons.mp distinct
    obtain ⟨first, unreserved⟩ := List.forall_mem_cons.mp unreserved
    exact ⟨⟨first, new⟩, distinct, unreserved⟩
  · rintro ⟨⟨first, new⟩, distinct, unreserved⟩
    exact ⟨List.nodup_cons.mpr ⟨new, distinct⟩, List.forall_mem_cons.mpr ⟨first, unreserved⟩⟩

namespace SymbolTable
variable {α : Type} {table : SymbolTable α} {name : String} {names : List String}

def Free (table : SymbolTable α) (names : List String) : Prop :=
  ∀ name ∈ names, table.peek name = none

theorem free_push : table.push.Free names := fun _ _ => rfl

theorem free_cons : table.Free (name :: names) ↔ table.peek name = none ∧ table.Free names :=
  List.forall_mem_cons

theorem free_add {value : α} :
    (table.add name value).Free names ↔ name ∉ names ∧ table.Free names := by
  constructor
  · intro free
    refine ⟨fun again => ?_, fun other member => ?_⟩
    · have bound := free name again
      rw [peek_add, if_pos rfl] at bound
      contradiction
    · have unbound := free other member
      rw [peek_add] at unbound
      split at unbound
      · contradiction
      · exact unbound
  · rintro ⟨new, free⟩ other member
    have different : other ≠ name := fun same => new (same ▸ member)
    rw [peek_add, if_neg different]
    exact free other member

end SymbolTable

namespace Binding
variable {α : Type} {binding : Binding α} {name : String} {value : α} {span : Span}
  {taken : SemanticError}

/-- Nothing was wrong so far, and nothing will be if the names are bound next. -/
structure Accepts (binding : Binding α) (names : List String) : Prop where
  issues : binding.issues = []
  proper : ProperNames names
  free : binding.table.Free names

theorem accepts_nil : binding.Accepts [] ↔ binding.issues = [] :=
  ⟨Accepts.issues, fun issues => ⟨issues, properNames_nil, by simp [SymbolTable.Free]⟩⟩

theorem declare_eq (unreserved : isReserved name = false) (free : binding.table.peek name = none) :
    binding.declare name value span taken =
      { binding with table := binding.table.add name value } := by
  rw [declare, unreserved, free]
  rfl

theorem accepts_declare {names : List String} :
    (binding.declare name value span taken).Accepts names ↔ binding.Accepts (name :: names) := by
  constructor
  · rintro ⟨issues, proper, free⟩
    unfold declare at issues free
    split at issues
    · simp at issues
    · next unreserved =>
      rw [if_neg unreserved] at free
      rw [Bool.not_eq_true] at unreserved
      split at issues
      · simp at issues
      · next unbound =>
        rw [if_neg unbound] at free
        obtain ⟨new, free⟩ := SymbolTable.free_add.mp free
        exact ⟨issues, properNames_cons.mpr ⟨⟨unreserved, new⟩, proper⟩,
          SymbolTable.free_cons.mpr ⟨Option.not_isSome_iff_eq_none.mp unbound, free⟩⟩
  · rintro ⟨issues, proper, free⟩
    obtain ⟨⟨unreserved, new⟩, proper⟩ := properNames_cons.mp proper
    obtain ⟨unbound, free⟩ := SymbolTable.free_cons.mp free
    rw [declare_eq unreserved unbound]
    exact ⟨issues, proper, SymbolTable.free_add.mpr ⟨new, free⟩⟩

variable {blame : Formal → SemanticError}

def declareAll (binding : Binding Ty) (blame : Formal → SemanticError) (formals : List Formal) :
    Binding Ty :=
  formals.foldl
    (fun binding formal => binding.declare formal.name formal.type formal.span (blame formal))
    binding

theorem declareAll_issues {binding : Binding Ty} (formals : List Formal) :
    (binding.declareAll blame formals).issues = [] ↔
      binding.Accepts (formals.map Formal.name) := by
  induction formals generalizing binding with
  | nil => exact accepts_nil.symm
  | cons formal rest ih =>
    rw [declareAll, List.foldl_cons, ← declareAll, ih, accepts_declare]
    rfl

theorem declareAll_lookup {binding : Binding Ty} (formals : List Formal)
    (accepts : binding.Accepts (formals.map Formal.name)) (name : String) :
    (binding.declareAll blame formals).table.lookupChain name =
      ((formals.find? (·.name == name)).map Formal.type).or (binding.table.lookupChain name) := by
  induction formals generalizing binding with
  | nil => rfl
  | cons formal rest ih =>
    obtain ⟨⟨unreserved, new⟩, -⟩ := properNames_cons.mp accepts.proper
    obtain ⟨unbound, -⟩ := SymbolTable.free_cons.mp accepts.free
    have accepts : (binding.declare formal.name formal.type formal.span (blame formal)).Accepts
        (rest.map Formal.name) := accepts_declare.mpr accepts
    rw [declareAll, List.foldl_cons, ← declareAll, ih accepts, declare_eq unreserved unbound,
      SymbolTable.lookupChain_add, List.find?_cons]
    by_cases same : name = formal.name
    -- No formal behind this one has its name, so nothing hides it.
    · subst same
      have last : rest.find? (·.name == formal.name) = none := by
        rw [List.find?_eq_none]
        intro other member found
        exact new (List.mem_map.mpr ⟨other, member, beq_iff_eq.mp found⟩)
      rw [last]
      simp
    · simp [same, beq_false_of_ne (Ne.symm same)]

end Binding

namespace Method
variable {method : Method}

theorem bindFormals_eq (table : SymbolTable Ty) : method.bindFormals table =
    Binding.declareAll ⟨table.push, []⟩ (fun formal => .duplicateFormal formal.name method.name)
      method.formals := rfl

theorem bindFormals_issues (table : SymbolTable Ty) :
    (method.bindFormals table).issues = [] ↔ ProperNames (method.formals.map Formal.name) := by
  rw [bindFormals_eq, Binding.declareAll_issues]
  constructor
  · exact Binding.Accepts.proper
  · exact fun proper => ⟨rfl, proper, SymbolTable.free_push⟩

theorem bindFormals_lookup (proper : ProperNames (method.formals.map Formal.name)) (name : String) :
    (method.bindFormals .empty).table.lookupChain name =
      (method.formals.find? (·.name == name)).map Formal.type := by
  rw [bindFormals_eq, Binding.declareAll_lookup _ ⟨rfl, proper, SymbolTable.free_push⟩]
  exact Option.or_none

end Method

namespace MemberTables
variable {tables : MemberTables}

/-- Nothing was wrong so far, and nothing will be if the members are bound next. -/
structure Accepts (tables : MemberTables) (members : List Member) : Prop where
  issues : tables.issues = []
  fields : Binding.Accepts ⟨tables.fields, []⟩
    ((members.filterMap Member.field?).map Field.name)
  methods : Binding.Accepts ⟨tables.methods, []⟩
    ((members.filterMap Member.method?).map Method.name)
  formals : ∀ method ∈ members.filterMap Member.method?,
    ProperNames (method.formals.map Formal.name)

theorem accepts_nil : tables.Accepts [] ↔ tables.issues = [] := by
  constructor
  · exact Accepts.issues
  · exact fun issues => ⟨issues, Binding.accepts_nil.mpr rfl, Binding.accepts_nil.mpr rfl, by simp⟩

theorem accepts_declare {className : String} {member : Member} {rest : List Member} :
    (tables.declare className member).Accepts rest ↔ tables.Accepts (member :: rest) := by
  cases member with
  | field field =>
    constructor
    · rintro ⟨issues, fields, methods, formals⟩
      obtain ⟨issues, bound⟩ := List.append_eq_nil_iff.mp issues
      exact ⟨issues, Binding.accepts_declare.mp ⟨bound, fields.proper, fields.free⟩, methods,
        formals⟩
    · rintro ⟨issues, fields, methods, formals⟩
      obtain ⟨bound, proper, free⟩ := Binding.accepts_declare.mpr fields
      exact ⟨List.append_eq_nil_iff.mpr ⟨issues, bound⟩, ⟨rfl, proper, free⟩, methods, formals⟩
  | method method =>
    have unchanged := fields_declare_method className tables method
    constructor
    · rintro ⟨issues, fields, methods, formals⟩
      obtain ⟨issues, own⟩ := List.append_eq_nil_iff.mp issues
      obtain ⟨issues, bound⟩ := List.append_eq_nil_iff.mp issues
      rw [unchanged] at fields
      exact ⟨issues, fields, Binding.accepts_declare.mp ⟨bound, methods.proper, methods.free⟩,
        List.forall_mem_cons.mpr ⟨(Method.bindFormals_issues _).mp own, formals⟩⟩
    · rintro ⟨issues, fields, methods, formals⟩
      obtain ⟨own, formals⟩ := List.forall_mem_cons.mp formals
      obtain ⟨bound, proper, free⟩ := Binding.accepts_declare.mpr methods
      refine ⟨?_, by rw [unchanged]; exact fields, ⟨rfl, proper, free⟩, formals⟩
      exact List.append_eq_nil_iff.mpr ⟨List.append_eq_nil_iff.mpr ⟨issues, bound⟩,
        (Method.bindFormals_issues _).mpr own⟩

theorem foldl_declare_issues {className : String} (members : List Member) :
    (members.foldl (declare className) tables).issues = [] ↔ tables.Accepts members := by
  induction members generalizing tables with
  | nil => exact accepts_nil.symm
  | cons member rest ih => rw [List.foldl_cons, ih, accepts_declare]

theorem ofClass_issues (decl : ClassDecl) : (ofClass decl).issues = [] ↔ decl.ProperMembers := by
  rw [ofClass, foldl_declare_issues]
  constructor
  · exact fun accepts => ⟨accepts.fields.proper, accepts.methods.proper, accepts.formals⟩
  · rintro ⟨fields, methods, formals⟩
    exact ⟨rfl, ⟨rfl, fields, SymbolTable.free_push⟩, ⟨rfl, methods, SymbolTable.free_push⟩, formals⟩

end MemberTables

namespace Context

theorem env_ofClass (hierarchy : Hierarchy) (id : ClassId) :
    (ofClass hierarchy id).env = Env.ofClass hierarchy id := rfl

theorem env_ofMethod {method : Method} (proper : ProperNames (method.formals.map Formal.name))
    (hierarchy : Hierarchy) (id : ClassId) :
    (ofMethod hierarchy id method).env = Env.ofMethod hierarchy id method := by
  simp only [env, ofMethod, Env.ofMethod, Env.mk.injEq, true_and, and_true]
  funext name
  rw [SymbolTable.lookupChain_push]
  exact Method.bindFormals_lookup proper name

end Context

namespace Hierarchy
variable {hierarchy : Hierarchy} {id parent : ClassId}
  (inherits : hierarchy.parentOf? id = some parent)

theorem returnTypeIssues_eq_nil {method : Method} : hierarchy.returnTypeIssues method = [] ↔
    method.returns = .void ∨ hierarchy.hasType method.returns := by
  rw [returnTypeIssues, Issue.ofCondition_eq_nil, Bool.and_eq_false_iff, bne_eq_false_iff_eq,
    Bool.not_eq_false']

theorem overrideIssues_eq_nil {method : Method} : hierarchy.overrideIssues id method = [] ↔
    ∀ parent inherited, hierarchy.parentOf? id = some parent →
      hierarchy.lookupMethod parent method.name = some inherited →
        (Signature.ofMethod method).sameTypes inherited := by
  unfold overrideIssues
  split
  · next absent =>
    simp only [true_iff]
    intro parent inherited isParent found
    rw [isParent, Option.bind_some, found] at absent
    contradiction
  · next inherited present =>
    obtain ⟨parent, isParent, found⟩ := Option.bind_eq_some_iff.mp present
    rw [Issue.ofCondition_eq_nil, Bool.not_eq_false']
    constructor
    · intro same other signature isOther foundOther
      obtain rfl : parent = other := Option.some.inj (isParent.symm.trans isOther)
      obtain rfl : inherited = signature := Option.some.inj (found.symm.trans foundOther)
      exact same
    · exact fun same => same parent inherited isParent found

theorem formalIssues_eq_nil {ctx : Context} {formals : List Formal} :
    formals.flatMap (fun formal => Issue.ofOutcome formal.span (ctx.checkType formal.type)) = [] ↔
      ∀ formal ∈ formals, ctx.env.IsValueType formal.type := by
  simp only [List.flatMap_eq_nil_iff, Issue.ofOutcome_eq_nil, Context.checkType_eq_ok]
  simp

include inherits

theorem placed_ofClass : (Context.ofClass hierarchy id).Placed :=
  ⟨⟨parent, inherits⟩, .inl rfl⟩

theorem fieldTyped_iff {field : Field} {member' : Member} :
    MemberTyped hierarchy id (.field field) member' ↔
      hierarchy.issuesOfField id field = [] ∧
        hierarchy.annotateMember id (.field field) = member' := by
  have placed := placed_ofClass inherits
  obtain ⟨type, name, init, span⟩ := field
  simp only [issuesOfField, List.append_eq_nil_iff, Issue.ofOutcome_eq_nil,
    Context.checkType_eq_ok]
  constructor
  · intro derived
    cases derived with
    | field isType => exact ⟨⟨⟨type, isType, rfl⟩, rfl⟩, rfl⟩
    | initialized isType typed fits =>
      rw [← Context.env_ofClass] at isType
      obtain ⟨clean, rfl, rfl⟩ := placed.typed_iff.mp typed
      refine ⟨⟨⟨type, isType, rfl⟩, ?_⟩, rfl⟩
      exact List.append_eq_nil_iff.mpr ⟨clean, (Context.initializerIssues_eq_nil isType).mpr fits⟩
  · rintro ⟨⟨⟨_, isType, rfl⟩, clean⟩, rfl⟩
    cases init with
    | none => exact .field isType
    | some init =>
      obtain ⟨clean, fits⟩ := List.append_eq_nil_iff.mp clean
      exact .initialized isType (placed.typed clean)
        ((Context.initializerIssues_eq_nil isType).mp fits)

theorem methodTyped_iff {method : Method} {member' : Member}
    (proper : ProperNames (method.formals.map Formal.name)) :
    MemberTyped hierarchy id (.method method) member' ↔
      hierarchy.issuesOfMethod id method = [] ∧
        hierarchy.annotateMember id (.method method) = member' := by
  have same := Context.env_ofMethod proper hierarchy id
  simp only [issuesOfMethod, List.append_eq_nil_iff, returnTypeIssues_eq_nil,
    overrideIssues_eq_nil, formalIssues_eq_nil, same]
  constructor
  · intro derived
    cases derived with
    | method returns overrides formals checked =>
      have placed : (Context.ofMethod hierarchy id method).Placed := ⟨⟨parent, inherits⟩, returns⟩
      rw [← same] at checked
      obtain ⟨clean, rfl⟩ := (Context.checkedAll_iff placed).mp checked
      exact ⟨⟨⟨⟨returns, overrides⟩, formals⟩, clean⟩, rfl⟩
  · rintro ⟨⟨⟨⟨returns, overrides⟩, formals⟩, clean⟩, rfl⟩
    have placed : (Context.ofMethod hierarchy id method).Placed := ⟨⟨parent, inherits⟩, returns⟩
    have checked := Context.checkedAll_of_issues placed method.body clean
    rw [same] at checked
    exact .method returns overrides formals checked

theorem memberTyped_iff {decl : ClassDecl} (proper : decl.ProperMembers) {member member' : Member}
    (declared : member ∈ decl.members) :
    MemberTyped hierarchy id member member' ↔
      hierarchy.issuesOfMember id member = [] ∧ hierarchy.annotateMember id member = member' := by
  cases member with
  | field field => exact fieldTyped_iff inherits
  | method method =>
    have own : method ∈ decl.methods := List.mem_filterMap.mpr ⟨_, declared, rfl⟩
    exact methodTyped_iff inherits (proper.formals method own)

end Hierarchy

/-- A relation that is a function where it holds at all is the function on lists as well. -/
theorem forall₂_iff_map {α β : Type} {related : α → β → Prop} {clean : α → Prop} {image : α → β}
    {items : List α} {images : List β}
    (each : ∀ item ∈ items, ∀ other, related item other ↔ clean item ∧ image item = other) :
    List.Forall₂ related items images ↔ (∀ item ∈ items, clean item) ∧ items.map image = images := by
  induction items generalizing images with
  | nil => simp [eq_comm]
  | cons item rest ih =>
    obtain ⟨first, each⟩ := List.forall_mem_cons.mp each
    rw [List.forall₂_cons_left_iff, List.forall_mem_cons, List.map_cons]
    constructor
    · rintro ⟨other, others, here, there, rfl⟩
      obtain ⟨clean, rfl⟩ := (first other).mp here
      obtain ⟨cleanRest, rfl⟩ := (ih each).mp there
      exact ⟨⟨clean, cleanRest⟩, rfl⟩
    · rintro ⟨⟨clean, cleanRest⟩, rfl⟩
      exact ⟨image item, rest.map image, (first _).mpr ⟨clean, rfl⟩, (ih each).mpr ⟨cleanRest, rfl⟩,
        rfl⟩

theorem Hierarchy.classTyped_iff {hierarchy : Hierarchy} {id parent : ClassId}
    (inherits : hierarchy.parentOf? id = some parent) {decl decl' : ClassDecl}
    (registered : hierarchy.idOf? decl.name = some id) (proper : decl.ProperMembers) :
    ClassTyped hierarchy decl decl' ↔
      hierarchy.classDiagnostics id decl = [] ∧ hierarchy.annotateClass id decl = decl' := by
  have each : ∀ member ∈ decl.members, ∀ member', MemberTyped hierarchy id member member' ↔ _ :=
    fun member declared member' => memberTyped_iff inherits proper declared
  rw [classDiagnostics, List.map_eq_nil_iff, List.flatMap_eq_nil_iff, annotateClass]
  constructor
  · rintro ⟨found, members⟩
    cases registered.symm.trans found
    obtain ⟨clean, rfl⟩ := (forall₂_iff_map each).mp members
    exact ⟨clean, rfl⟩
  · rintro ⟨clean, rfl⟩
    exact .mk registered ((forall₂_iff_map each).mpr ⟨clean, rfl⟩)

end Bantam
