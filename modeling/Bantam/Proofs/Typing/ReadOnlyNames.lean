import Bantam.Proofs.Typing.Pieces

/-! Names that can be read only. An assignment never writes to this, super or null, nor to the
length of an array. The operators that step a variable ask only that it be a number, so they do step
the length of an array; this and super are numbers only where a class is called int. -/
namespace Bantam
open Typing

/-- What can be read only: a name with a meaning of its own, and the length of an array, where they
are not indexed. -/
inductive ReadOnly : Option Expr → String → Option Expr → Prop
  | special {name : String} (isSpecial : name ∈ specialNames) : ReadOnly none name none
  | length {qualifier : Expr} {element : Ty} (isArray : qualifier.type? = some (.array element)) :
      ReadOnly (some qualifier) "length" none

namespace Typing
variable {env : Env} {type : Ty} {name : String}

theorem Special.type_cases (means : Special env name type) :
    type = .null ∨ name ≠ "null" ∧ ∃ id, type = .named (env.hierarchy.nameOf id) := by
  cases means with
  | this => exact .inr ⟨by decide, _, rfl⟩
  | super => exact .inr ⟨by decide, _, rfl⟩
  | null => exact .inl rfl

theorem Typed.named_of_var {expr : Expr} {info : Info} {qualifier' index' : Option Expr}
    (typed : Typed env expr type (.var info qualifier' name index')) :
    ∃ qualifier index, Named env false qualifier name index type qualifier' index' := by
  cases typed with
  | var named => exact ⟨_, _, named⟩

theorem Owner.not_isArray {info : Info} {word : String} {owner : ClassId} {qualifier' : Expr}
    (owns : Owner env word owner) (before : Typed env (.var info none word none) type qualifier') :
    type.isArray = false := by
  have isSpecial : word ∈ specialNames := by cases owns <;> decide
  cases before with
  | var named =>
    cases named with
    | whole selected =>
      cases selected with
      | special means => exact means.not_isArray
      | plain means => exact absurd isSpecial means.ordinary

theorem Selected.writable {qualifier qualifier' : Option Expr}
    (selected : Selected env true false qualifier name type qualifier') :
    ¬ ReadOnly qualifier' name none := by
  intro readOnly
  cases selected with
  | plain means =>
    cases readOnly with
    | special isSpecial => exact means.ordinary isSpecial
  | field before owns =>
    cases readOnly with
    | length isArray =>
      rw [before.type?, Option.some_inj] at isArray
      have notArray := owns.not_isArray before
      rw [isArray] at notArray
      contradiction

theorem Named.writable {qualifier index qualifier' index' : Option Expr}
    (named : Named env true qualifier name index type qualifier' index') :
    ¬ ReadOnly qualifier' name index' := by
  cases named with
  | whole selected => exact selected.writable
  | element => exact fun readOnly => nomatch readOnly

/-- What can be read only is the length of an array, or null, or the name of an object. -/
theorem Named.readOnly_cases {writing : Bool} {qualifier index qualifier' index' : Option Expr}
    (named : Named env writing qualifier name index type qualifier' index')
    (readOnly : ReadOnly qualifier' name index') :
    (∃ array, qualifier' = some array ∧ name = "length") ∨
      type = .null ∨ name ≠ "null" ∧ ∃ id, type = .named (env.hierarchy.nameOf id) := by
  cases readOnly with
  | length => exact .inl ⟨_, rfl, rfl⟩
  | special isSpecial =>
    cases named with
    | whole selected =>
      cases selected with
      | special means => exact .inr means.type_cases
      | plain means => exact absurd isSpecial means.ordinary

end Typing

namespace Program.Valid
variable {program typed : Program} (valid : program.Valid typed) {env : Env}
  (proper : env.Proper program.hierarchy)
include valid proper

theorem declares_int {id : ClassId} (named : Ty.int = .named (env.hierarchy.nameOf id)) :
    ∃ decl ∈ program.classes, decl.name = "int" := by
  have named : program.hierarchy.nameOf id = "int" := by
    rw [← proper.hierarchy]
    exact (Ty.named.inj named).symm
  have known := Hierarchy.isSome_idOf?_of_nameOf named (by decide)
  exact (valid.declared_of_idOf? known).resolve_left (by decide)

theorem stepped_readOnly {info info' : Info} {op : UnaryOp} {expr : Expr} {type : Ty}
    {qualifier index : Option Expr} {name : String}
    (stepped : Typed env expr type (.unary info op (.var info' qualifier name index)))
    (isIncrement : op.isIncrement) (readOnly : ReadOnly qualifier name index) :
    (∃ array, qualifier = some array ∧ name = "length") ∨
      name ≠ "null" ∧ ∃ decl ∈ program.classes, decl.name = "int" := by
  cases stepped with
  | neg => contradiction
  | not => contradiction
  | step _ _ operand =>
    obtain ⟨_, _, named⟩ := operand.named_of_var
    rcases named.readOnly_cases readOnly with length | isNull | ⟨notNull, id, isNamed⟩
    · exact .inl length
    · exact absurd isNull (by decide)
    · exact .inr ⟨notNull, valid.declares_int proper isNamed⟩

end Program.Valid

/-- Where an analysis succeeds, no assignment writes to what can be read only. An operator that
steps a variable writes to it only if it is the length of an array, or if it is this or super and
the program declares a class that is called int. -/
theorem readOnly_write_cases {earlier : List Diagnostic} {program : Program} {hierarchy : Hierarchy}
    (accepted : (analyzeAfter earlier program).outcome = .ok hierarchy) :
    (∀ info qualifier name index value,
      (analyzeAfter earlier program).program.Contains
          (.expr (.assign info qualifier name index value)) →
        ¬ ReadOnly qualifier name index) ∧
    ∀ info op info' qualifier name index,
      (analyzeAfter earlier program).program.Contains
          (.expr (.unary info op (.var info' qualifier name index))) →
        op.isIncrement → ReadOnly qualifier name index →
          (∃ array, qualifier = some array ∧ name = "length") ∨
            name ≠ "null" ∧ ∃ decl ∈ program.classes, decl.name = "int" := by
  obtain ⟨valid, -⟩ := valid_of_accepted accepted
  constructor
  · intro info qualifier name index value contained
    obtain ⟨source, -, derived⟩ := valid.derived_of_typed contained
    cases derived with
    | expr proper assigned =>
      cases assigned with
      | assign target => exact target.writable
  · intro info op info' qualifier name index contained isIncrement readOnly
    obtain ⟨source, -, derived⟩ := valid.derived_of_typed contained
    cases derived with
    | expr proper stepped => exact valid.stepped_readOnly proper stepped isIncrement readOnly

-- An array is created, its element is assigned to, and its length is stepped. The types are those
-- that are known of arrays and of numbers.
def lengthStep (array number : Option Ty) : Program := ⟨[
  ⟨"Main", none, [.method ⟨.void, "main", [], [
    .decl default (.array .int) "a" (.newArray ⟨default, array⟩ "int" (.int ⟨default, number⟩ 1)),
    .expr default (.assign ⟨default, number⟩ none "a" (some (.int ⟨default, number⟩ 0))
      (.int ⟨default, number⟩ 2)),
    .expr default (.unary ⟨default, number⟩ .postInc (.var ⟨default, number⟩
      (some (.var ⟨default, array⟩ none "a" none)) "length" none))], default⟩], "Main.btm", default⟩]⟩

theorem accepted_lengthStep :
    (analyzeAfter [] (lengthStep none none)).outcome = .ok (lengthStep none none).hierarchy := by rfl

theorem program_lengthStep : (analyzeAfter [] (lengthStep none none)).program =
    lengthStep (some (.array .int)) (some .int) := by rfl

theorem contains_lengthStep : (analyzeAfter [] (lengthStep none none)).program.Contains
    (.expr (.unary ⟨default, some .int⟩ .postInc (.var ⟨default, some .int⟩
      (some (.var ⟨default, some (.array .int)⟩ none "a" none)) "length" none))) := by
  rw [program_lengthStep]
  have third {first second stmt : Stmt} : stmt ∈ [first, second, stmt] := by simp
  exact .expr (.body List.mem_cons_self List.mem_cons_self third) List.mem_cons_self

theorem contains_lengthStep_assign : (analyzeAfter [] (lengthStep none none)).program.Contains
    (.expr (.assign ⟨default, some .int⟩ none "a" (some (.int ⟨default, some .int⟩ 0))
      (.int ⟨default, some .int⟩ 2))) := by
  rw [program_lengthStep]
  have second {first stmt third : Stmt} : stmt ∈ [first, stmt, third] := by simp
  exact .expr (.body List.mem_cons_self List.mem_cons_self second) List.mem_cons_self

theorem readOnly_write_cases_length :
    (analyzeAfter [] (lengthStep none none)).outcome = .ok (lengthStep none none).hierarchy ∧
      ¬ ReadOnly none "a" (some (.int ⟨default, some .int⟩ 0)) ∧
      ((∃ array, some (Expr.var ⟨default, some (.array .int)⟩ none "a" none) = some array ∧
          "length" = "length") ∨
        "length" ≠ "null" ∧ ∃ decl ∈ (lengthStep none none).classes, decl.name = "int") := by
  obtain ⟨assigned, stepped⟩ := readOnly_write_cases accepted_lengthStep
  exact ⟨accepted_lengthStep, assigned _ _ _ _ _ contains_lengthStep_assign,
    stepped _ _ _ _ _ _ contains_lengthStep rfl (.length rfl)⟩

theorem readOnly_length_stepped :
    (analyzeAfter [] (lengthStep none none)).outcome = .ok (lengthStep none none).hierarchy ∧
      ∃ info info' op qualifier name index, (analyzeAfter [] (lengthStep none none)).program.Contains
          (.expr (.unary info op (.var info' qualifier name index))) ∧
        op.isIncrement ∧ ReadOnly qualifier name index :=
  ⟨accepted_lengthStep, _, _, _, _, _, _, contains_lengthStep, rfl, .length rfl⟩

end Bantam
