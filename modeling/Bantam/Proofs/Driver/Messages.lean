import Bantam.Proofs.Syntax.OneLine
import Bantam.Proofs.Typing.ExpressionIssues

/-! Messages on one line. A message is put together from fixed words, names, types, operators and
numbers, and none of them has a line feed in it as long as the names have none. -/
namespace Bantam

theorem onOneLine_nat (number : Nat) : OnOneLine number.repr := by
  rw [Nat.repr_eq_ofList_toDigits, onOneLine_ofList]
  intro member
  have digit := Nat.isDigit_of_mem_toDigits (by decide) (by decide) member
  contradiction

theorem onOneLine_type {type : Ty} :
    OnOneLine (toString type) ↔ type.Within OnOneLine := by
  show OnOneLine type.text ↔ _
  induction type with
  | named name => exact Iff.rfl
  | array element ih =>
    rw [Ty.text, onOneLine_append, ih]
    exact and_iff_left (by decide)

theorem onOneLine_binarySign (op : BinaryOp) : OnOneLine op.sign := by
  cases op <;> decide

theorem onOneLine_unarySign (op : UnaryOp) : OnOneLine op.sign := by
  cases op <;> decide

theorem onOneLine_declared (declared : Declared) : OnOneLine declared.word := by
  cases declared <;> decide

theorem onOneLine_conditional (construct : Conditional) : OnOneLine construct.word := by
  cases construct <;> decide

theorem onOneLine_clause (clause : Clause) : OnOneLine clause.word := by
  cases clause <;> decide

/-- The message of an error whose names are on one line is on one line. -/
theorem SemanticError.onOneLine_message {error : SemanticError} (within : error.Within OnOneLine) :
    OnOneLine error.message := by
  cases error with
  | missingMainClass | missingMainMethod | misplacedVoid | misplacedBreak | valueInVoidMethod
  | inaccessibleField => exact onOneLine_ofList.mpr (by decide)
  | _ =>
    simp only [Within] at within
    unfold message
    simp only [onOneLine_append, onOneLine_toString, onOneLine_type, Nat.toString_eq_repr,
      onOneLine_nat, onOneLine_binarySign, onOneLine_unarySign, onOneLine_declared,
      onOneLine_conditional, onOneLine_clause, within, and_true, true_and]
    -- All that is left of the message are its fixed parts.
    and_intros <;> exact onOneLine_ofList.mpr (by decide)

end Bantam
