import Bantam.Parsing.Declaration

/-! What a reading takes. A reading says what it leaves of its tokens; what it takes is the rest of
them, and readings one after the other take one after the other. -/
namespace Bantam

theorem bind_eq_ok {ε α β : Type} {first : Except ε α} {next : α → Except ε β} {result : β} :
    (first >>= next) = .ok result ↔ ∃ value, first = .ok value ∧ next value = .ok result := by
  cases first <;> simp [bind, Except.bind]

namespace Reading
variable {α β : Type} {tokens : List Token}

/-- The tokens from which the value was read. -/
def taken (reading : Reading α tokens) : List Token :=
  tokens.take (tokens.length - reading.rest.length)

theorem taken_append_rest (reading : Reading α tokens) :
    reading.taken ++ reading.rest = tokens := by
  obtain ⟨value, rest, ⟨front, rfl⟩, shorter⟩ := reading
  simp [taken]

theorem taken_eq {front : List Token} (reading : Reading α tokens)
    (split : front ++ reading.rest = tokens) : reading.taken = front :=
  List.append_cancel_right (reading.taken_append_rest.trans split.symm)

@[simp] theorem taken_give (reading : Reading α tokens) (value : β) :
    (reading.give value).taken = reading.taken := rfl

@[simp] theorem value_give (reading : Reading α tokens) (value : β) :
    (reading.give value).value = value := rfl

@[simp] theorem taken_followedBy (reading : Reading α tokens) (more : Reading β reading.rest) :
    (reading.followedBy more).taken = reading.taken ++ more.taken := by
  apply taken_eq
  show reading.taken ++ more.taken ++ more.rest = tokens
  rw [List.append_assoc, more.taken_append_rest, reading.taken_append_rest]

theorem followedBy_assoc {γ : Type} (reading : Reading α tokens) (more : Reading β reading.rest)
    (last : Reading γ more.rest) :
    (reading.followedBy more).followedBy last = reading.followedBy (more.followedBy last) := rfl

end Reading

section Tokens
variable {α : Type} {choose : Token → Option α} {tokens : List Token}

theorem readToken?_taken {reading : Reading α tokens} (read : readToken? choose tokens = some reading) :
    ∃ token, reading.taken = [token] ∧ choose token = some reading.value := by
  cases tokens with
  | nil => contradiction
  | cons token rest =>
    obtain ⟨value, chosen, rfl⟩ := Option.map_eq_some_iff.mp read
    exact ⟨token, Reading.taken_eq _ rfl, chosen⟩

theorem readToken_taken {expectation : Expectation} {reading : Reading α tokens}
    (read : readToken choose expectation tokens = .ok reading) :
    ∃ token, reading.taken = [token] ∧ choose token = some reading.value := by
  rw [readToken] at read
  split at read
  · next found =>
    cases read
    exact readToken?_taken found
  · contradiction

theorem kind_of_spanOfKind {kind : Kind} {token : Token} {span : Span}
    (chosen : spanOfKind kind token = some span) : token.kind = kind := by
  rw [spanOfKind] at chosen
  split at chosen
  · assumption
  · contradiction

theorem isWord_of_spanOfWord {word : String} {token : Token} {span : Span}
    (chosen : spanOfWord word token = some span) : token.isWord word := by
  rw [spanOfWord] at chosen
  split at chosen
  · assumption
  · contradiction

theorem readKind?_taken {kind : Kind} {reading : Reading Span tokens}
    (read : readKind? kind tokens = some reading) :
    ∃ token, reading.taken = [token] ∧ token.kind = kind := by
  obtain ⟨token, taken, chosen⟩ := readToken?_taken read
  exact ⟨token, taken, kind_of_spanOfKind chosen⟩

theorem readKind_taken {kind : Kind} {reading : Reading Span tokens}
    (read : readKind kind tokens = .ok reading) :
    ∃ token, reading.taken = [token] ∧ token.kind = kind := by
  obtain ⟨token, taken, chosen⟩ := readToken_taken read
  exact ⟨token, taken, kind_of_spanOfKind chosen⟩

theorem readWord?_taken {word : String} {reading : Reading Span tokens}
    (read : readWord? word tokens = some reading) :
    ∃ token, reading.taken = [token] ∧ token.isWord word := by
  obtain ⟨token, taken, chosen⟩ := readToken?_taken read
  exact ⟨token, taken, isWord_of_spanOfWord chosen⟩

theorem readWord_taken {word : String} {reading : Reading Span tokens}
    (read : readWord word tokens = .ok reading) :
    ∃ token, reading.taken = [token] ∧ token.isWord word := by
  obtain ⟨token, taken, chosen⟩ := readToken_taken read
  exact ⟨token, taken, isWord_of_spanOfWord chosen⟩

theorem name_of_ofToken? {token : Token} {name : Name}
    (chosen : Name.ofToken? token = some name) :
    token.isName ∧ name.text = token.spelling := by
  rw [Name.ofToken?] at chosen
  split at chosen
  · next isName => cases chosen; exact ⟨isName, rfl⟩
  · contradiction

theorem readName_taken {reading : Reading Name tokens} (read : readName tokens = .ok reading) :
    ∃ token, reading.taken = [token] ∧ token.isName ∧ reading.value.text = token.spelling := by
  obtain ⟨token, taken, chosen⟩ := readToken_taken read
  exact ⟨token, taken, name_of_ofToken? chosen⟩

end Tokens

end Bantam
