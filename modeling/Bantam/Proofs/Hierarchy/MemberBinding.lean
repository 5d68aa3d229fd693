import Bantam.Proofs.Hierarchy.MemberLookup

/-! Bound or reported. Of the declarations of one sort at one place, those whose name is reserved or
taken by an earlier one are reported, each of them once, and all others are bound, each to what it
declares. Such sorts are the fields of a class, its methods, and the formals of each method, which
are bound twice: for the tables of the class, and again when the body of the method is checked. -/
namespace Bantam

def withEarlier {ι : Type} (items : List ι) : List (List ι × ι) :=
  items.zipIdx.map fun (item, index) => (items.take index, item)

theorem withEarlier_concat {ι : Type} (items : List ι) (item : ι) :
    withEarlier (items ++ [item]) = withEarlier items ++ [(items, item)] := by
  have before : items.zipIdx.map (fun (other, index) => ((items ++ [item]).take index, other)) =
      withEarlier items := by
    refine List.map_congr_left fun ⟨other, index⟩ member => ?_
    have inside := (List.mem_zipIdx' member).1
    dsimp only
    rw [List.take_append_of_le_length inside.le]
  rw [withEarlier, List.zipIdx_append, List.map_append, before]
  simp

/-- A declaration among others of its sort: its name, what the name would stand for, its place, and
what it is blamed for if the name is taken. -/
structure Entry (α : Type) where
  name : String
  value : α
  span : Span
  taken : SemanticError

namespace Entry
variable {α : Type} {entries : List (Entry α)}

/-- What is wrong with a declaration behind others: its name is reserved, or that of an earlier one
that is not. -/
def issue? (earlier : List (Entry α)) (entry : Entry α) : Option Issue :=
  if isReserved entry.name then some ⟨entry.span, .reservedName entry.name⟩
  else if ∃ other ∈ earlier, isReserved other.name = false ∧ other.name = entry.name then
    some ⟨entry.span, entry.taken⟩
  else none

def issues (entries : List (Entry α)) : List Issue :=
  (withEarlier entries).filterMap fun (earlier, entry) => entry.issue? earlier

def accepted (entries : List (Entry α)) : List (Entry α) :=
  ((withEarlier entries).filter fun (earlier, entry) => (entry.issue? earlier).isNone).map Prod.snd

def binding (entry : Entry α) : String × α := (entry.name, entry.value)

def scope (entries : List (Entry α)) : Scope α :=
  (accepted entries).foldl (fun scope entry => scope.insert entry.name entry.value) []

theorem issues_concat (entries : List (Entry α)) (entry : Entry α) :
    issues (entries ++ [entry]) = issues entries ++ (entry.issue? entries).toList := by
  rw [issues, withEarlier_concat, List.filterMap_append]
  rfl

theorem accepted_concat (entries : List (Entry α)) (entry : Entry α) :
    accepted (entries ++ [entry]) =
      accepted entries ++ if (entry.issue? entries).isNone then [entry] else [] := by
  rw [accepted, withEarlier_concat, List.filter_append, List.map_append]
  congr 1
  cases found : entry.issue? entries <;> simp [found]

theorem issue?_eq_none {earlier : List (Entry α)} {entry : Entry α} :
    entry.issue? earlier = none ↔ isReserved entry.name = false ∧
      ∀ other ∈ earlier, other.name ≠ entry.name := by
  unfold issue?
  split
  · next reserved => simp [reserved]
  · next unreserved =>
    rw [Bool.not_eq_true] at unreserved
    split
    · next taken =>
      obtain ⟨other, member, -, same⟩ := taken
      refine iff_of_false (by simp) fun free => free.2 other member same
    · next free =>
      refine iff_of_true rfl ⟨unreserved, fun other member same => free ⟨other, member, ?_, same⟩⟩
      rwa [same]

theorem mem_names_accepted {name : String} : name ∈ (accepted entries).map Entry.name ↔
    isReserved name = false ∧ name ∈ entries.map Entry.name := by
  induction entries using List.reverseRecOn with
  | nil => simp [accepted, withEarlier]
  | append_singleton entries entry ih =>
    rw [accepted_concat, List.map_append, List.map_append, List.mem_append, List.mem_append, ih]
    by_cases free : entry.issue? entries = none
    · obtain ⟨unreserved, -⟩ := issue?_eq_none.mp free
      simp only [free, Option.isNone_none, if_true, List.map_cons, List.map_nil,
        List.mem_singleton]
      constructor
      · rintro (⟨other, member⟩ | rfl)
        · exact ⟨other, .inl member⟩
        · exact ⟨unreserved, .inr rfl⟩
      · rintro ⟨other, member | rfl⟩
        · exact .inl ⟨other, member⟩
        · exact .inr rfl
    · have known : name = entry.name → isReserved name = false → name ∈ entries.map Entry.name := by
        rintro rfl unreserved
        by_contra fresh
        refine free (issue?_eq_none.mpr ⟨unreserved, fun other member same => fresh ?_⟩)
        exact List.mem_map.mpr ⟨other, member, same⟩
      simp only [Option.isNone_iff_eq_none, free, if_false, List.map_nil, List.not_mem_nil,
        or_false, List.map_cons, List.mem_singleton]
      constructor
      · rintro ⟨unreserved, member⟩
        exact ⟨unreserved, .inl member⟩
      · rintro ⟨unreserved, member | same⟩
        · exact ⟨unreserved, member⟩
        · exact ⟨unreserved, known same unreserved⟩

theorem nodup_accepted : ((accepted entries).map Entry.name).Nodup := by
  induction entries using List.reverseRecOn with
  | nil => exact List.nodup_nil
  | append_singleton entries entry ih =>
    rw [accepted_concat]
    split
    · next free =>
      obtain ⟨-, fresh⟩ := issue?_eq_none.mp (Option.isNone_iff_eq_none.mp free)
      rw [List.map_append, List.nodup_append]
      refine ⟨ih, List.nodup_singleton _, fun name member other isEntry same => ?_⟩
      obtain rfl := List.mem_singleton.mp isEntry
      obtain ⟨known, isKnown, named⟩ := List.mem_map.mp (mem_names_accepted.mp member).2
      exact fresh known isKnown (named.trans same)
    · rwa [List.append_nil]

end Entry

theorem Scope.perm_insert {α : Type} {scope : Scope α} {name : String} (value : α)
    (fresh : scope.lookup name = none) :
    (scope.insert name value).Perm ((name, value) :: scope) := by
  induction scope with
  | nil => exact .refl _
  | cons binding rest ih =>
    obtain ⟨other, old⟩ := binding
    rw [Scope.lookup_cons] at fresh
    split at fresh
    · contradiction
    · next different =>
      rw [Scope.insert, if_neg different]
      split
      · exact .refl _
      · exact ((ih fresh).cons _).trans (.swap ..)

theorem Scope.isSome_lookup {α : Type} {scope : Scope α} {name : String} :
    (scope.lookup name).isSome ↔ name ∈ scope.map Prod.fst := by
  induction scope with
  | nil => simp
  | cons binding rest ih =>
    obtain ⟨other, value⟩ := binding
    rw [Scope.lookup_cons, List.map_cons, List.mem_cons, ← ih]
    by_cases same : name = other <;> simp [same]

namespace Entry
variable {α : Type} {entries : List (Entry α)}

/-- A scope binds what is accepted, and nothing else. -/
theorem scope_perm (entries : List (Entry α)) :
    (scope entries).Perm ((accepted entries).map binding) := by
  induction entries using List.reverseRecOn with
  | nil => exact .refl _
  | append_singleton entries entry ih =>
    rw [scope, accepted_concat]
    split
    · next free =>
      obtain ⟨-, fresh⟩ := issue?_eq_none.mp (Option.isNone_iff_eq_none.mp free)
      rw [List.foldl_append, List.map_append]
      have unbound : (scope entries).lookup entry.name = none := by
        rw [← Option.not_isSome_iff_eq_none, Scope.isSome_lookup, (ih.map Prod.fst).mem_iff,
          List.map_map]
        intro member
        obtain ⟨known, isKnown, named⟩ := List.mem_map.mp (mem_names_accepted.mp member).2
        exact fresh known isKnown named
      exact ((Scope.perm_insert entry.value unbound).trans (ih.cons _)).trans
        (List.perm_append_singleton _ _).symm
    · rw [List.append_nil]
      exact ih

theorem isSome_lookup_scope {name : String} (unreserved : isReserved name = false) :
    ((scope entries).lookup name).isSome ↔ name ∈ entries.map Entry.name := by
  rw [Scope.isSome_lookup, ((scope_perm entries).map Prod.fst).mem_iff, List.map_map]
  exact mem_names_accepted.trans (and_iff_right unreserved)

/-- Declared behind others, a declaration is bound or reported. -/
theorem declare_scope (entries : List (Entry α)) (entry : Entry α) (below : List (Scope α))
    (parent : Option Nat) (found : List Issue) :
    (Binding.mk ⟨scope entries :: below, parent⟩ found).declare entry.name entry.value entry.span
        entry.taken =
      ⟨⟨scope (entries ++ [entry]) :: below, parent⟩, found ++ (entry.issue? entries).toList⟩ := by
  have peek : (SymbolTable.mk (scope entries :: below) parent).peek entry.name =
      (scope entries).lookup entry.name := rfl
  have next : scope (entries ++ [entry]) =
      if (entry.issue? entries).isNone then (scope entries).insert entry.name entry.value
      else scope entries := by
    rw [scope, accepted_concat]
    split
    · rw [List.foldl_append]
      rfl
    · rw [List.append_nil]
      rfl
  unfold Binding.declare
  rw [peek, next]
  cases reserved : isReserved entry.name with
  | true => simp [issue?, reserved]
  | false =>
    rw [if_neg Bool.false_ne_true]
    split
    · next bound =>
      have known := (isSome_lookup_scope reserved).mp bound
      have taken : ∃ other ∈ entries, isReserved other.name = false ∧ other.name = entry.name := by
        obtain ⟨other, member, same⟩ := List.mem_map.mp known
        exact ⟨other, member, by rwa [same], same⟩
      simp [issue?, reserved, if_pos taken]
    · next unbound =>
      have free : entry.issue? entries = none :=
        issue?_eq_none.mpr ⟨reserved, fun other member same => unbound
          ((isSome_lookup_scope reserved).mpr (List.mem_map.mpr ⟨other, member, same⟩))⟩
      simp [free, SymbolTable.add]

theorem foldl_declare (entries : List (Entry α)) (table : SymbolTable α) :
    entries.foldl (fun (binding : Binding α) entry =>
        binding.declare entry.name entry.value entry.span entry.taken) ⟨table.push, []⟩ =
      ⟨{ table with scopes := scope entries :: table.scopes }, issues entries⟩ := by
  induction entries using List.reverseRecOn with
  | nil => rfl
  | append_singleton entries entry ih =>
    rw [List.foldl_append, ih, List.foldl_cons, List.foldl_nil, issues_concat]
    exact declare_scope ..

end Entry

def Field.entry (className : String) (field : Field) : Entry Ty :=
  ⟨field.name, field.type, field.span, .duplicateField field.name className⟩

def Method.entry (className : String) (method : Method) : Entry Signature :=
  ⟨method.name, .ofMethod method, method.span, .duplicateMethod method.name className⟩

def Method.formalEntries (method : Method) : List (Entry Ty) :=
  method.formals.map fun formal =>
    ⟨formal.name, formal.type, formal.span, .duplicateFormal formal.name method.name⟩

def fieldEntries (className : String) (members : List Member) : List (Entry Ty) :=
  (members.filterMap Member.field?).map (Field.entry className)

def methodEntries (className : String) (members : List Member) : List (Entry Signature) :=
  (members.filterMap Member.method?).map (Method.entry className)

def Member.declarationIssues (className : String) (earlier : List Member) : Member → List Issue
  | field f => ((f.entry className).issue? (fieldEntries className earlier)).toList
  | method m =>
    ((m.entry className).issue? (methodEntries className earlier)).toList ++
      Entry.issues m.formalEntries

def ClassDecl.declarationIssues (decl : ClassDecl) : List Issue :=
  (withEarlier decl.members).flatMap fun (earlier, member) =>
    member.declarationIssues decl.name earlier

theorem Method.bindFormals_scope (method : Method) (table : SymbolTable Ty) :
    method.bindFormals table =
      ⟨{ table with scopes := Entry.scope method.formalEntries :: table.scopes },
        Entry.issues method.formalEntries⟩ := by
  rw [← Entry.foldl_declare, formalEntries, List.foldl_map]
  rfl

theorem MemberTables.ofClass_eq (decl : ClassDecl) : ofClass decl =
    { fields := ⟨[Entry.scope (fieldEntries decl.name decl.members)], none⟩
      methods := ⟨[Entry.scope (methodEntries decl.name decl.members)], none⟩
      issues := decl.declarationIssues } := by
  rw [ofClass, ClassDecl.declarationIssues]
  generalize decl.members = members
  induction members using List.reverseRecOn with
  | nil => rfl
  | append_singleton members member ih =>
    rw [List.foldl_append, ih, List.foldl_cons, List.foldl_nil, withEarlier_concat,
      List.flatMap_append, List.flatMap_singleton]
    cases member with
    | field field =>
      have fields : fieldEntries decl.name (members ++ [.field field]) =
          fieldEntries decl.name members ++ [field.entry decl.name] := by
        simp [fieldEntries, Member.field?]
      have methods : methodEntries decl.name (members ++ [.field field]) =
          methodEntries decl.name members := by
        simp [methodEntries, Member.method?]
      have bound := Entry.declare_scope (fieldEntries decl.name members) (field.entry decl.name) []
        none []
      rw [← fields] at bound
      rw [declare, methods]
      exact congrArg (fun binding : Binding Ty => MemberTables.mk binding.table _
        (_ ++ binding.issues)) bound
    | method method =>
      have fields : fieldEntries decl.name (members ++ [.method method]) =
          fieldEntries decl.name members := by
        simp [fieldEntries, Member.field?]
      have methods : methodEntries decl.name (members ++ [.method method]) =
          methodEntries decl.name members ++ [method.entry decl.name] := by
        simp [methodEntries, Member.method?]
      have bound := Entry.declare_scope (methodEntries decl.name members) (method.entry decl.name)
        [] none []
      rw [← methods] at bound
      rw [declare, Method.bindFormals_scope, fields]
      dsimp only [Member.declarationIssues]
      rw [← List.append_assoc]
      exact congrArg (fun binding : Binding Signature => MemberTables.mk _ binding.table
        (_ ++ binding.issues ++ _)) bound

/-- The formals of a method as they are bound again when its body is checked. What cannot be bound
has been reported, and is passed over. -/
def Method.environment (method : Method) : SymbolTable Ty :=
  method.formals.foldl
    (fun table formal =>
      if !isReserved formal.name && (table.peek formal.name).isNone then
        table.add formal.name formal.type
      else table)
    SymbolTable.empty.push

theorem Method.table_bindFormals (method : Method) :
    (method.bindFormals .empty).table = method.environment := by
  refine (List.foldl_hom Binding.table fun binding formal => ?_).symm
  unfold Binding.declare
  cases isReserved formal.name with
  | true => rfl
  | false => cases binding.table.peek formal.name <;> rfl

def SymbolTable.Binds {α : Type} (table : SymbolTable α) (entries : List (Entry α)) : Prop :=
  ∃ scope, table.scopes = [scope] ∧ (scope.map Prod.fst).Nodup ∧
    scope.Perm ((Entry.accepted entries).map Entry.binding)

theorem Entry.nodup_scope {α : Type} (entries : List (Entry α)) :
    ((scope entries).map Prod.fst).Nodup := by
  rw [((scope_perm entries).map Prod.fst).nodup_iff, List.map_map]
  exact nodup_accepted

/-- The declarations of a class are bound or reported. What is reported of members is, class by
class and in the order of their declarations, one issue for each field, method or formal whose name
is reserved or that of an earlier one of its sort. The tables of a class bind all its other fields
and methods to their types and signatures, and nothing else. The formals of a method are bound in
the same scope whatever they stand above, and in that scope its body finds them. -/
theorem members_bound_or_reported (program : Program) :
    ((Hierarchy.ofProgram program).1.memberDiagnostics program =
      ((Hierarchy.ofProgram program).1.nodes.filterMap (·.origin.decl? program)).flatMap
        fun decl => decl.declarationIssues.map (Issue.toDiagnostic decl.file)) ∧
    (∀ id node, program.hierarchy.node? id = some node →
      ∃ decl, program.hierarchy.declOf? program id = some decl ∧ decl.name = node.name ∧
        node.fields.Binds (fieldEntries decl.name decl.members) ∧
        node.methods.Binds (methodEntries decl.name decl.members)) ∧
    ∀ method : Method, method.environment.Binds method.formalEntries ∧
      (∀ table, (method.bindFormals table).table.scopes =
          method.environment.scopes ++ table.scopes ∧
        (method.bindFormals table).issues = Entry.issues method.formalEntries) ∧
      ∀ hierarchy id,
        (Context.ofMethod hierarchy id method).locals = method.environment.push := by
  refine ⟨?_, fun id node found => ?_, fun method => ⟨?_, fun table => ?_, fun _ _ => ?_⟩⟩
  · simp only [Hierarchy.memberDiagnostics, MemberTables.ofClass_eq]
  · obtain ⟨decl, isDecl, named, fields, methods⟩ := Hierarchy.exists_decl_hierarchy found
    rw [MemberTables.ofClass_eq] at fields methods
    refine ⟨decl, isDecl, named, ?_, ?_⟩
    · rw [fields]
      exact ⟨_, rfl, Entry.nodup_scope _, Entry.scope_perm _⟩
    · rw [methods]
      exact ⟨_, rfl, Entry.nodup_scope _, Entry.scope_perm _⟩
  · rw [← method.table_bindFormals, method.bindFormals_scope]
    exact ⟨_, rfl, Entry.nodup_scope _, Entry.scope_perm _⟩
  · rw [← method.table_bindFormals, method.bindFormals_scope, method.bindFormals_scope]
    exact ⟨rfl, rfl⟩
  · rw [← method.table_bindFormals]
    rfl

end Bantam
