import Bantam.Parsing.Declaration

/-! What a reading leaves. That a text can be read is said by the tokens that follow it: the outcome
is a reading that leaves exactly these. Outcomes of this kind go one after the other. -/
namespace Bantam
variable {α β : Type}

/-- The outcome is a reading that leaves these tokens. -/
def Leaves {tokens : List Token} (outcome : Outcome α tokens) (rest : List Token) : Prop :=
  ∃ reading, outcome = .ok reading ∧ reading.rest = rest

theorem Leaves.ofReading {tokens rest : List Token} {reading : Reading α tokens}
    (left : reading.rest = rest) : Leaves (.ok reading) rest :=
  ⟨reading, rfl, left⟩

theorem Leaves.bind {tokens others middle rest : List Token} {outcome : Outcome α tokens}
    {next : Reading α tokens → Outcome β others} (first : Leaves outcome middle)
    (second : ∀ reading, reading.rest = middle → Leaves (next reading) rest) :
    Leaves (outcome >>= next) rest := by
  obtain ⟨reading, rfl, left⟩ := first
  exact second reading left

section Tokens
variable {tokens rest : List Token} {token : Token}

theorem readToken?_of {choose : Token → Option α} {value : α} (split : tokens = token :: rest)
    (chosen : choose token = some value) :
    ∃ reading, readToken? choose tokens = some reading ∧ reading.value = value ∧
      reading.rest = rest := by
  subst split
  rw [readToken?, chosen]
  exact ⟨_, rfl, rfl, rfl⟩

theorem readToken?_eq_none {choose : Token → Option α}
    (unfit : ∀ token ∈ tokens.head?, choose token = none) : readToken? choose tokens = none := by
  cases tokens with
  | nil => rfl
  | cons token rest => rw [readToken?, unfit token rfl]; rfl

theorem readToken?_skips {choose : Token → Option α} (split : tokens = token :: rest)
    (unfit : choose token = none) : readToken? choose tokens = none := by
  rw [split, readToken?, unfit]
  rfl

theorem readToken_leaves {choose : Token → Option α} {value : α} {expectation : Expectation}
    (split : tokens = token :: rest) (chosen : choose token = some value) :
    Leaves (readToken choose expectation tokens) rest := by
  obtain ⟨reading, found, -, left⟩ := readToken?_of split chosen
  rw [readToken, found]
  exact .ofReading left

theorem spanOfKind_of {kind : Kind} (isKind : token.kind = kind) :
    spanOfKind kind token = some token.span := if_pos isKind

theorem spanOfWord_of {word : String} (isWord : token.isWord word) :
    spanOfWord word token = some token.span := if_pos isWord

theorem readKind?_of {kind : Kind} (split : tokens = token :: rest) (isKind : token.kind = kind) :
    ∃ reading, readKind? kind tokens = some reading ∧ reading.rest = rest := by
  obtain ⟨reading, found, -, left⟩ := readToken?_of split (spanOfKind_of isKind)
  exact ⟨reading, found, left⟩

theorem readKind?_eq_none {kind : Kind} (unfit : ∀ token ∈ tokens.head?, token.kind ≠ kind) :
    readKind? kind tokens = none :=
  readToken?_eq_none fun token isHead => if_neg (unfit token isHead)

theorem readKind?_skips {kind : Kind} (split : tokens = token :: rest) (other : token.kind ≠ kind) :
    readKind? kind tokens = none :=
  readToken?_skips split (if_neg other)

theorem readKind_leaves {kind : Kind} (split : tokens = token :: rest)
    (isKind : token.kind = kind) : Leaves (readKind kind tokens) rest :=
  readToken_leaves split (spanOfKind_of isKind)

theorem readWord?_of {word : String} (split : tokens = token :: rest) (isWord : token.isWord word) :
    ∃ reading, readWord? word tokens = some reading ∧ reading.rest = rest := by
  obtain ⟨reading, found, -, left⟩ := readToken?_of split (spanOfWord_of isWord)
  exact ⟨reading, found, left⟩

theorem readWord?_eq_none {word : String}
    (unfit : ∀ token ∈ tokens.head?, token.isWord word = false) : readWord? word tokens = none :=
  readToken?_eq_none fun token isHead => if_neg (Bool.eq_false_iff.mp (unfit token isHead))

theorem readWord?_skips {word : String} (split : tokens = token :: rest)
    (other : token.isWord word = false) : readWord? word tokens = none :=
  readToken?_skips split (if_neg (Bool.eq_false_iff.mp other))

theorem readWord_leaves {word : String} (split : tokens = token :: rest)
    (isWord : token.isWord word) : Leaves (readWord word tokens) rest :=
  readToken_leaves split (spanOfWord_of isWord)

theorem ofToken?_of (isName : token.isName) :
    Name.ofToken? token = some ⟨token.spelling, token.span⟩ := if_pos isName

theorem readName_leaves (split : tokens = token :: rest) (isName : token.isName) :
    Leaves (readName tokens) rest :=
  readToken_leaves split (ofToken?_of isName)

end Tokens

theorem Token.kind_of_isWord {token : Token} {word : String} (isWord : token.isWord word) :
    token.kind = .identifier := by
  simp only [Token.isWord, Bool.and_eq_true, beq_iff_eq] at isWord
  exact isWord.1

theorem Token.kind_of_isName {token : Token} (isName : token.isName) : token.kind = .identifier := by
  simp only [Token.isName, Bool.and_eq_true, beq_iff_eq] at isName
  exact isName.1

theorem Token.isWord_of_isName {token : Token} {word : String} (isName : token.isName)
    (keyword : isKeyword word) : token.isWord word = false := by
  simp only [Token.isName, Bool.and_eq_true, Bool.not_eq_true'] at isName
  refine Bool.eq_false_iff.mpr fun isWord => ?_
  simp only [Token.isWord, Bool.and_eq_true, beq_iff_eq] at isWord
  rw [isWord.2, keyword] at isName
  exact absurd isName.2 (by decide)

theorem Token.isName_of_isWord {token : Token} {word : String} (isWord : token.isWord word)
    (keyword : isKeyword word) : token.isName = false :=
  Bool.eq_false_iff.mpr fun isName => by
    rw [Token.isWord_of_isName isName keyword] at isWord
    contradiction

theorem Token.isName_of_kind {token : Token} (notWord : token.kind ≠ .identifier) :
    token.isName = false :=
  Bool.eq_false_iff.mpr fun isName => notWord (Token.kind_of_isName isName)

end Bantam
