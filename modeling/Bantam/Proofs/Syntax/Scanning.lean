import Bantam.Proofs.Syntax.Grammar

/-! Scanning within a bound. Every token but the last takes a character at least, so the length of
the text bounds the number of tokens; counted down from such a bound, scanning can be carried out
by evaluation. -/
namespace Bantam

/-- The tokens from the cursor on, of which there are at most so many. -/
def Cursor.tokensWithin : Nat → Cursor → List Token
  | 0, _ => []
  | bound + 1, cursor =>
    match cursor.next? with
    | none => [cursor.endOfInput]
    | some (token, behind) => token :: behind.tokensWithin bound

theorem Cursor.tokensWithin_eq {bound : Nat} {cursor : Cursor}
    (enough : cursor.unread.length < bound) : cursor.tokensWithin bound = cursor.tokens := by
  induction bound generalizing cursor with
  | zero => omega
  | succ bound ih =>
    rw [tokensWithin, tokens]
    split
    · next last => rw [last]
    · next token behind next =>
      have shorter := length_unread_of_next? next
      rw [next, ih (by omega)]

theorem scan_eq {source : String} (bound : Nat) (enough : source.toList.length < bound) :
    scan source = (Cursor.ofText source).tokensWithin bound :=
  (Cursor.tokensWithin_eq enough).symm

end Bantam
