import Bantam.Proofs.Typing.Pieces

/-! Values of type void. Where no class is called void, nothing but void itself conforms to void or
is what void conforms to. No variable has that type, so wherever the rules ask for a value of some
type, they do not take a void one. Comparisons ask only that their operands be related, and two void
values are. -/
namespace Bantam
open Typing

namespace Hierarchy
variable {hierarchy : Hierarchy} (unnamed : hierarchy.idOf? "void" = none) {type : Ty}
include unnamed

theorem eq_void_of_void_conforms (conforms : hierarchy.conforms .void type) : type = .void := by
  unfold Hierarchy.conforms at conforms
  rw [Bool.or_eq_true, beq_iff_eq] at conforms
  rcases conforms with same | above
  · exact same.symm
  · simp [unnamed] at above

theorem eq_void_of_conforms_void (conforms : hierarchy.conforms type .void) : type = .void := by
  unfold Hierarchy.conforms at conforms
  rw [Bool.or_eq_true, beq_iff_eq] at conforms
  rcases conforms with same | above
  · exact same
  · cases type with
    | array => contradiction
    | named name => simp [classOf?, unnamed, Ty.isArray] at above

end Hierarchy

namespace Typing

def NoVoid (exprs : List Expr) : Prop := ∀ expr ∈ exprs, expr.type? ≠ some .void

/-- The piece compares two values of type void with each other. -/
inductive ComparesVoid : Piece → Prop
  | mk {info : Info} {op : BinaryOp} {left right : Expr} (isEquality : op.isEquality)
      (first : left.type? = some .void) (second : right.type? = some .void) :
      ComparesVoid (.expr (.binary info op left right))

section NoVoid
variable {env : Env} {expr expr' : Expr} {exprs : List Expr} {type : Ty}

theorem noVoid_nil : NoVoid [] := fun _ none => nomatch none

theorem noVoid_cons : NoVoid (expr :: exprs) ↔ expr.type? ≠ some .void ∧ NoVoid exprs :=
  List.forall_mem_cons

theorem noVoid_append {others : List Expr} :
    NoVoid (exprs ++ others) ↔ NoVoid exprs ∧ NoVoid others := List.forall_mem_append

theorem Typed.type?_ne_void (typed : Typed env expr type expr') (notVoid : type ≠ .void) :
    expr'.type? ≠ some .void := by
  rw [typed.type?]
  exact fun same => notVoid (Option.some.inj same)

theorem Typed.noVoid (typed : Typed env expr type expr') (notVoid : type ≠ .void) :
    NoVoid [expr'] := noVoid_cons.mpr ⟨typed.type?_ne_void notVoid, noVoid_nil⟩

theorem Optional.noVoid {expr expr' : Option Expr} (typed : Optional env type expr expr')
    (notVoid : type ≠ .void) : NoVoid expr'.toList := by
  cases typed with
  | missing => exact noVoid_nil
  | present typed => exact typed.noVoid notVoid

end NoVoid

/-- No class is called void, and whatever is declared has a type that values can have. -/
structure Env.Voidless (env : Env) : Prop where
  unnamed : env.hierarchy.idOf? "void" = none
  locals : ∀ name type, env.locals name = some type → env.IsValueType type
  fields : ∀ id name type, env.hierarchy.lookupField id name = some type → env.IsValueType type
  formals : ∀ id name signature, env.hierarchy.lookupMethod id name = some signature →
    ∀ type ∈ signature.types, env.IsValueType type

namespace Env.Voidless
variable {env : Env} (voidless : env.Voidless) {actual type : Ty}
include voidless

theorem ne_void_of_fits (fits : env.Fits actual type) (notVoid : type ≠ .void) :
    actual ≠ .void := by
  rintro rfl
  exact notVoid (Hierarchy.eq_void_of_void_conforms voidless.unnamed fits)

theorem eq_void_of_related (related : env.Related actual type) :
    actual = .void ↔ type = .void := by
  constructor
  · rintro rfl
    exact related.elim (Hierarchy.eq_void_of_void_conforms voidless.unnamed)
      (Hierarchy.eq_void_of_conforms_void voidless.unnamed)
  · rintro rfl
    exact related.elim (Hierarchy.eq_void_of_conforms_void voidless.unnamed)
      (Hierarchy.eq_void_of_void_conforms voidless.unnamed)

theorem nameOf_ne_void (id : ClassId) : Ty.named (env.hierarchy.nameOf id) ≠ .void := by
  intro same
  have named : env.hierarchy.nameOf id = "void" := Ty.named.inj same
  have known := Hierarchy.isSome_idOf?_of_nameOf named (by decide)
  rw [voidless.unnamed] at known
  contradiction

theorem special_ne_void {name : String} (means : Special env name type) : type ≠ .void := by
  cases means with
  | this => exact voidless.nameOf_ne_void _
  | super => exact voidless.nameOf_ne_void _
  | null => decide

theorem isValueType_of_variable {name : String} (means : Variable env name type) :
    env.IsValueType type := by
  cases means with
  | inScope _ found => exact voidless.locals name type found
  | field _ _ inherits => exact voidless.fields _ name type inherits

theorem element_ne_void (isType : env.IsValueType (.array type)) : type ≠ .void := by
  rintro rfl
  simpa [Hierarchy.hasType, Hierarchy.isElement, voidless.unnamed] using isType.2

theorem named_ne_void {writing : Bool} {qualifier index qualifier' index' : Option Expr}
    {name : String} (named : Named env writing qualifier name index type qualifier' index') :
    type ≠ .void := by
  cases named with
  | whole selected =>
    cases selected with
    | special means => exact voidless.special_ne_void means
    | plain means => exact (voidless.isValueType_of_variable means).1
    | field _ _ inherits => exact (voidless.fields _ name type inherits).1
    | length => decide
  | element selected =>
    cases selected with
    | special means => nomatch means
    | plain means => exact voidless.element_ne_void (voidless.isValueType_of_variable means)
    | field _ _ inherits => exact voidless.element_ne_void (voidless.fields _ name _ inherits)

theorem noVoid_qualifier {writing indexed : Bool} {qualifier qualifier' : Option Expr}
    {name : String} (selected : Selected env writing indexed qualifier name type qualifier') :
    NoVoid qualifier'.toList := by
  cases selected with
  | special => exact noVoid_nil
  | plain => exact noVoid_nil
  | field before =>
    cases before with
    | var named => exact (Typed.var named).noVoid (voidless.named_ne_void named)
  | length before => exact before.noVoid (fun impossible => nomatch impossible)

theorem noVoid_named {writing : Bool} {qualifier index qualifier' index' : Option Expr}
    {name : String} (named : Named env writing qualifier name index type qualifier' index') :
    NoVoid (qualifier'.toList ++ index'.toList) := by
  rw [noVoid_append]
  cases named with
  | whole selected => exact ⟨voidless.noVoid_qualifier selected, noVoid_nil⟩
  | element selected position =>
    exact ⟨voidless.noVoid_qualifier selected, position.noVoid (by decide)⟩

theorem noVoid_receiver {receiver receiver' : Option Expr} {owner : ClassId}
    (called : Receiver env receiver owner receiver') : NoVoid receiver'.toList := by
  cases called with
  | own => exact noVoid_nil
  | object given isClass =>
    refine given.noVoid ?_
    rintro rfl
    rw [Hierarchy.classOf?, voidless.unnamed] at isClass
    contradiction

theorem noVoid_arguments {types : List Ty} {arguments arguments' : List Expr} :
    Arguments env types arguments arguments' → (∀ type ∈ types, env.IsValueType type) →
      NoVoid arguments'
  | .nil, _ => noVoid_nil
  | .cons given fits others, areTypes => by
    obtain ⟨isType, areTypes⟩ := List.forall_mem_cons.mp areTypes
    have notVoid := voidless.ne_void_of_fits fits isType.1
    exact noVoid_cons.mpr ⟨given.type?_ne_void notVoid, noVoid_arguments others areTypes⟩

/-- Only comparisons use values of type void. -/
theorem noVoid_parts {expr expr' : Expr} (typed : Typed env expr type expr') :
    NoVoid expr'.parts ∨ ComparesVoid (.expr expr') := by
  cases typed with
  | int | bool | string | new => exact .inl noVoid_nil
  | var named => exact .inl (voidless.noVoid_named named)
  | assign target given fits =>
    have notVoid := voidless.ne_void_of_fits fits (voidless.named_ne_void target)
    exact .inl (noVoid_append.mpr ⟨voidless.noVoid_named target, given.noVoid notVoid⟩)
  | call called found given =>
    have areTypes := voidless.formals _ _ _ found
    exact .inl (noVoid_append.mpr
      ⟨voidless.noVoid_receiver called, voidless.noVoid_arguments given areTypes⟩)
  | newArray sized => exact .inl (sized.noVoid (by decide))
  | instanceOf tested isType fits =>
    exact .inl (tested.noVoid (voidless.ne_void_of_fits fits isType.1))
  | cast converted isType related =>
    exact .inl (converted.noVoid fun isVoid =>
      isType.1 ((voidless.eq_void_of_related related).mp isVoid))
  | arithmetic _ first second | relational _ first second | logical _ first second =>
    have second := second.noVoid (by decide)
    exact .inl (noVoid_cons.mpr ⟨first.type?_ne_void (by decide), second⟩)
  | @equality _ _ _ _ _ _ one other isEquality first second related =>
    by_cases isVoid : one = .void
    · have isVoidOther := (voidless.eq_void_of_related related).mp isVoid
      exact .inr (.mk isEquality (isVoid ▸ first.type?) (isVoidOther ▸ second.type?))
    · have notVoid : other ≠ .void := fun isVoidOther =>
        isVoid ((voidless.eq_void_of_related related).mpr isVoidOther)
      exact .inl (noVoid_cons.mpr ⟨first.type?_ne_void isVoid, second.noVoid notVoid⟩)
  | neg inner | not inner => exact .inl (inner.noVoid (by decide))
  | step _ _ inner => exact .inl (inner.noVoid (by decide))

theorem noVoid_exprs {stmt stmt' : Stmt} {behind : Env} (checked : Checked env stmt stmt' behind) :
    NoVoid stmt'.exprs ∨ ∃ span value, stmt' = .expr span value := by
  cases checked with
  | expr => exact .inr ⟨_, _, rfl⟩
  | block | leave | giveNothing => exact .inl noVoid_nil
  | decl isType typed fits =>
    exact .inl (typed.noVoid (voidless.ne_void_of_fits fits isType.1))
  | giveBack notVoid typed fits =>
    exact .inl (typed.noVoid (voidless.ne_void_of_fits fits notVoid))
  | branch test => exact .inl (test.noVoid (by decide))
  | branchElse test => exact .inl (test.noVoid (by decide))
  | whileLoop test => exact .inl (test.noVoid (by decide))
  | forLoop before test after =>
    have clauses := noVoid_append.mpr ⟨before.noVoid (by decide), test.noVoid (by decide)⟩
    exact .inl (noVoid_append.mpr ⟨clauses, after.noVoid (by decide)⟩)

end Env.Voidless

end Typing

namespace Program.Valid
variable {program typed : Program} (valid : program.Valid typed)
  (unnamed : program.hierarchy.idOf? "void" = none)
include valid unnamed

theorem voidless {env : Env} (proper : env.Proper program.hierarchy) : env.Voidless := by
  obtain ⟨same, locals⟩ := proper
  refine ⟨same ▸ unnamed, locals, fun id name type found => ?_, fun id name signature found => ?_⟩
  · rw [same] at found
    rw [Env.IsValueType, same]
    exact valid.isValueType_of_lookupField found
  · rw [same] at found
    intro type isType
    rw [Env.IsValueType, same]
    exact valid.isValueType_of_lookupMethod found type isType

theorem noVoid_of_derived {piece piece' : Piece}
    (derived : Derived program.hierarchy piece piece') : NoVoid piece'.exprs ∨
      ComparesVoid piece' ∨ ∃ span value, piece' = .stmt (.expr span value) := by
  cases derived with
  | @field self _ _ typed =>
    have voidless := valid.voidless unnamed (Env.proper_ofClass self)
    cases typed with
    | field => exact .inl noVoid_nil
    | initialized isType typed fits =>
      exact .inl (typed.noVoid (voidless.ne_void_of_fits fits isType.1))
  | stmt proper checked =>
    rcases (valid.voidless unnamed proper).noVoid_exprs checked with none | ⟨span, value, rfl⟩
    · exact .inl none
    · exact .inr (.inr ⟨span, value, rfl⟩)
  | expr proper typed =>
    exact ((valid.voidless unnamed proper).noVoid_parts typed).imp id .inl

end Program.Valid

/-- Where an analysis succeeds, a value of type void is the whole of an expression statement, or it
is compared with another one, or the program declares a class that is called void. -/
theorem void_value_cases {earlier : List Diagnostic} {program : Program} {hierarchy : Hierarchy}
    (accepted : (analyzeAfter earlier program).outcome = .ok hierarchy) {piece : Piece}
    (contained : (analyzeAfter earlier program).program.Contains piece) {value : Expr}
    (inPiece : value ∈ piece.exprs) (isVoid : value.type? = some .void) :
    (∃ span, piece = .stmt (.expr span value)) ∨ ComparesVoid piece ∨
      ∃ decl ∈ program.classes, decl.name = "void" := by
  obtain ⟨valid, -⟩ := valid_of_accepted accepted
  cases known : program.hierarchy.idOf? "void" with
  | some id =>
    rcases valid.declared_of_idOf? (by rw [known]; rfl) with builtin | declared
    · exact absurd builtin (by decide)
    · exact .inr (.inr declared)
  | none =>
    obtain ⟨source, -, derived⟩ := valid.derived_of_typed contained
    rcases valid.noVoid_of_derived known derived with none | compares | ⟨span, other, rfl⟩
    · exact absurd isVoid (none value inPiece)
    · exact .inr (.inl compares)
    · obtain rfl := List.mem_singleton.mp inPiece
      exact .inl ⟨span, rfl⟩

-- A method without a value is called twice, and the two calls are compared. The types are those
-- that are known of a call and of the comparison.
def voidComparison (call comparison : Option Ty) : Program := ⟨[
  ⟨"Main", none, [.method ⟨.void, "main", [], [
    .expr default (.binary ⟨default, comparison⟩ .eq (.call ⟨default, call⟩ none "main" [])
      (.call ⟨default, call⟩ none "main" []))], default⟩], "Main.btm", default⟩]⟩

theorem accepted_voidComparison : (analyzeAfter [] (voidComparison none none)).outcome =
    .ok (voidComparison none none).hierarchy := by rfl

theorem contains_voidComparison : (analyzeAfter [] (voidComparison none none)).program.Contains
    (.expr (.binary ⟨default, some .boolean⟩ .eq (.call ⟨default, some .void⟩ none "main" [])
      (.call ⟨default, some .void⟩ none "main" []))) := by
  have typed : (analyzeAfter [] (voidComparison none none)).program =
      voidComparison (some .void) (some .boolean) := by rfl
  rw [typed]
  exact .expr (.body List.mem_cons_self List.mem_cons_self List.mem_cons_self) List.mem_cons_self

theorem void_value_cases_comparison :
    (analyzeAfter [] (voidComparison none none)).outcome =
        .ok (voidComparison none none).hierarchy ∧
      ((∃ span, Piece.expr (.binary ⟨default, some .boolean⟩ .eq
          (.call ⟨default, some .void⟩ none "main" []) (.call ⟨default, some .void⟩ none "main" [])) =
          .stmt (.expr span (.call ⟨default, some .void⟩ none "main" []))) ∨
        ComparesVoid (.expr (.binary ⟨default, some .boolean⟩ .eq
          (.call ⟨default, some .void⟩ none "main" [])
          (.call ⟨default, some .void⟩ none "main" []))) ∨
        ∃ decl ∈ (voidComparison none none).classes, decl.name = "void") :=
  ⟨accepted_voidComparison,
    void_value_cases accepted_voidComparison contains_voidComparison List.mem_cons_self rfl⟩

theorem void_value_compared :
    (analyzeAfter [] (voidComparison none none)).outcome =
        .ok (voidComparison none none).hierarchy ∧
      ¬ ∀ piece, (analyzeAfter [] (voidComparison none none)).program.Contains piece →
        ∀ value ∈ piece.exprs, value.type? = some .void →
          ∃ span, piece = .stmt (.expr span value) := by
  refine ⟨accepted_voidComparison, fun whole => ?_⟩
  obtain ⟨span, same⟩ := whole _ contains_voidComparison _ List.mem_cons_self rfl
  contradiction

end Bantam
