import Bantam.Proofs.Syntax.Grammar
import Bantam.Proofs.Syntax.Leaves

/-! Beginnings of texts. What a text begins with decides how it is read: the first token whether
there is an expression at all, the first three whether a statement is taken for a declaration. -/
namespace Bantam
open Grammar

/-- A constant, a name or an opening parenthesis. -/
def Token.StartsOperand (token : Token) : Prop :=
  token.kind = .leftParen ∨ (Expr.constant? token).isSome ∨ token.isName

/-- A sign, or a word that creates or converts. -/
def Token.StartsSigned (token : Token) : Prop :=
  (UnaryOp.before? token.kind).isSome ∨ token.isWord "new" ∨ token.isWord "cast"

def Kind.startsOperand : Kind → Bool
  | leftParen | integer | boolean | string | identifier => true
  | _ => false

theorem Token.StartsOperand.kind {token : Token} (starts : token.StartsOperand) :
    token.kind.startsOperand = true := by
  rcases starts with isParen | isConstant | isName
  · rw [isParen]; rfl
  · unfold Expr.constant? at isConstant
    split at isConstant
    · next isInteger => rw [isInteger]; rfl
    · next isBoolean => rw [isBoolean]; rfl
    · next isString => rw [isString]; rfl
    · contradiction
  · rw [Token.kind_of_isName isName]; rfl

theorem Token.StartsOperand.before? {token : Token} (starts : token.StartsOperand) :
    UnaryOp.before? token.kind = none := by
  have isStart := starts.kind
  unfold Kind.startsOperand at isStart
  split at isStart <;> first | contradiction | simp_all [UnaryOp.before?]

theorem Token.StartsOperand.isWord {token : Token} {word : String} (starts : token.StartsOperand)
    (keyword : isKeyword word) : token.isWord word = false := by
  refine Bool.eq_false_iff.mpr fun isWord => ?_
  have isIdentifier := Token.kind_of_isWord isWord
  rcases starts with isParen | isConstant | isName
  · rw [isIdentifier] at isParen; contradiction
  · simp [Expr.constant?, isIdentifier] at isConstant
  · rw [Token.isWord_of_isName isName keyword] at isWord; contradiction

def Token.StartsExpression (token : Token) : Prop := token.StartsOperand ∨ token.StartsSigned

theorem Token.StartsExpression.kind {token : Token} (starts : token.StartsExpression) :
    token.kind.startsOperand = true ∨ (UnaryOp.before? token.kind).isSome := by
  rcases starts with starts | isSign | creates | casts
  · exact .inl starts.kind
  · exact .inr isSign
  · rw [Token.kind_of_isWord creates]; exact .inl rfl
  · rw [Token.kind_of_isWord casts]; exact .inl rfl

/-- Nothing with which a statement opens, and no sign that closes or separates, begins an
expression. -/
theorem Token.StartsExpression.kind_ne {token : Token} {kind : Kind}
    (starts : token.StartsExpression) (unfit : kind.startsOperand = false)
    (noSign : UnaryOp.before? kind = none) : token.kind ≠ kind := by
  rintro rfl
  rcases starts.kind with isStart | isSign
  · rw [unfit] at isStart; contradiction
  · rw [noSign] at isSign; contradiction

theorem Token.StartsExpression.isWord {token : Token} {word : String}
    (starts : token.StartsExpression) (keyword : isKeyword word) (notNew : word ≠ "new")
    (notCast : word ≠ "cast") : token.isWord word = false := by
  refine Bool.eq_false_iff.mpr fun isWord => ?_
  have isIdentifier := Token.kind_of_isWord isWord
  simp only [Token.isWord, Bool.and_eq_true, beq_iff_eq] at isWord
  rcases starts with starts | isSign | creates | casts
  · have := starts.isWord keyword
    simp [Token.isWord, isWord] at this
  · rw [isIdentifier] at isSign; contradiction
  · simp only [Token.isWord, Bool.and_eq_true, beq_iff_eq] at creates
    exact notNew (isWord.2.symm.trans creates.2)
  · simp only [Token.isWord, Bool.and_eq_true, beq_iff_eq] at casts
    exact notCast (isWord.2.symm.trans casts.2)

theorem Token.StartsExpression.opening {token : Token} (starts : token.StartsExpression) :
    Opening.ofToken? token = none := by
  unfold Opening.ofToken?
  split
  · next isBrace => exact absurd isBrace (starts.kind_ne rfl rfl)
  · next isIdentifier =>
    have notWord (word : String) (keyword : isKeyword word) (notNew : word ≠ "new")
        (notCast : word ≠ "cast") : token.spelling ≠ word := by
      have := starts.isWord keyword notNew notCast
      simpa [Token.isWord, isIdentifier] using this
    unfold Opening.ofKeyword?
    split
    · next isIf => exact absurd isIf (notWord "if" (by decide) (by decide) (by decide))
    · next isWhile => exact absurd isWhile (notWord "while" (by decide) (by decide) (by decide))
    · next isFor => exact absurd isFor (notWord "for" (by decide) (by decide) (by decide))
    · next isReturn => exact absurd isReturn (notWord "return" (by decide) (by decide) (by decide))
    · next isBreak => exact absurd isBreak (notWord "break" (by decide) (by decide) (by decide))
    · rfl
  · rfl

def Grammar.Rank.IsOperand (rank : Rank) : Prop := rank = .primary ∨ rank = .variable

theorem Grammar.SignBefore.before? {kind : Kind} {op : UnaryOp} (stands : SignBefore kind op) :
    UnaryOp.before? kind = some op := by
  cases stands <;> rfl

theorem Grammar.Rank.Covers.isOperand {rank tighter : Rank} (covers : rank.Covers tighter)
    (isOperand : rank.IsOperand) : tighter.IsOperand := by
  rcases isOperand with rfl | rfl <;> cases covers
  exact .inr rfl

mutual

theorem Grammar.Expression.begins {rank : Rank} {tokens : List Token} {expr : Expr} :
    Expression rank tokens expr → ∃ token more, tokens = token :: more ∧
      (token.StartsOperand ∨ ¬ rank.IsOperand ∧ token.StartsSigned)
  | .covered covers inner => by
    obtain ⟨token, more, rfl, starts | ⟨notOperand, starts⟩⟩ := inner.begins
    · exact ⟨token, more, rfl, .inl starts⟩
    · exact ⟨token, more, rfl, .inr ⟨fun isOperand => notOperand (covers.isOperand isOperand), starts⟩⟩
  | .assign left _ _ => by
    obtain ⟨token, more, rfl, starts | ⟨notOperand, -⟩⟩ := left.begins
    · exact ⟨token, _, rfl, .inl starts⟩
    · exact absurd (.inr rfl) notOperand
  | .binary _ left _ => by
    obtain ⟨token, more, rfl, starts⟩ := left.begins
    exact ⟨token, _, rfl, starts⟩
  | .instanceOf tested _ _ => by
    obtain ⟨token, more, rfl, starts⟩ := tested.begins
    exact ⟨token, _, rfl, starts⟩
  | .unary stands _ =>
    ⟨_, _, rfl, .inr ⟨by simp [Rank.IsOperand], .inl (by simp [stands.before?])⟩⟩
  | .new creates _ _ _ => ⟨_, _, rfl, .inr ⟨by simp [Rank.IsOperand], .inr (.inl creates)⟩⟩
  | .newArray creates _ _ _ _ => ⟨_, _, rfl, .inr ⟨by simp [Rank.IsOperand], .inr (.inl creates)⟩⟩
  | .cast casts _ _ _ _ _ => ⟨_, _, rfl, .inr ⟨by simp [Rank.IsOperand], .inr (.inr casts)⟩⟩
  | .step inner _ => by
    obtain ⟨token, more, rfl, starts | ⟨notOperand, -⟩⟩ := inner.begins
    · exact ⟨token, _, rfl, .inl starts⟩
    · exact absurd (.inl rfl) notOperand
  | .group opens _ _ => ⟨_, _, rfl, .inl (.inl opens)⟩
  | .int isInteger => ⟨_, _, rfl, .inl (.inr (.inl (by simp [Expr.constant?, isInteger])))⟩
  | .bool isBoolean => ⟨_, _, rfl, .inl (.inr (.inl (by simp [Expr.constant?, isBoolean])))⟩
  | .string isString => ⟨_, _, rfl, .inl (.inr (.inl (by simp [Expr.constant?, isString])))⟩
  | .call qualified isName _ _ _ => by
    obtain ⟨token, more, split, starts⟩ := qualified.begins isName
    exact ⟨token, more, split, .inl starts⟩
  | .var qualified isName => by
    obtain ⟨token, more, split, starts⟩ := qualified.begins isName
    exact ⟨token, more, split, .inl starts⟩
  | .indexed qualified isName _ _ _ => by
    obtain ⟨token, more, split, starts⟩ := qualified.begins isName
    exact ⟨token, more, split, .inl starts⟩

theorem Grammar.Qualifier.begins {front : List Token} {qualifier : Option Expr} {name : Token}
    {others : List Token} : Qualifier front qualifier → name.isName →
      ∃ token more, front ++ name :: others = token :: more ∧ token.StartsOperand
  | .none, isName => ⟨name, others, rfl, .inr (.inr isName)⟩
  | .dotted inner _, _ => by
    obtain ⟨token, more, rfl, starts | ⟨notOperand, -⟩⟩ := inner.begins
    · exact ⟨token, _, rfl, starts⟩
    · exact absurd (.inl rfl) notOperand

end

theorem Grammar.Expression.starts {rank : Rank} {tokens : List Token} {expr : Expr}
    (derived : Expression rank tokens expr) :
    ∃ token more, tokens = token :: more ∧ token.StartsExpression := by
  obtain ⟨token, more, split, starts | ⟨-, starts⟩⟩ := derived.begins
  · exact ⟨token, more, split, .inl starts⟩
  · exact ⟨token, more, split, .inr starts⟩

theorem Grammar.Expression.startsOperand {rank : Rank} {tokens : List Token} {expr : Expr}
    (derived : Expression rank tokens expr) (isOperand : rank.IsOperand) :
    ∃ token more, tokens = token :: more ∧ token.StartsOperand := by
  obtain ⟨token, more, split, starts | ⟨notOperand, -⟩⟩ := derived.begins
  · exact ⟨token, more, split, starts⟩
  · exact absurd isOperand notOperand

/-- Tokens that begin with a name of which the type is tested. -/
inductive TestsName : List Token → Prop
  | mk {name word : Token} {rest : List Token} (isName : name.isName)
      (tests : word.isWord "instanceof") : TestsName (name :: word :: rest)

theorem not_startsDeclaration {token : Token} {rest : List Token} (notName : token.isName = false) :
    startsDeclaration (token :: rest) = false := by
  unfold startsDeclaration
  split <;> simp_all

/-- What makes no declaration of a name before it. -/
def EndsName (rest : List Token) : Prop :=
  ∀ name, startsDeclaration (name :: rest) → TestsName (name :: rest)

theorem EndsName.ofKind {token : Token} {rest : List Token} (notBracket : token.kind ≠ .leftBracket)
    (notWord : token.kind ≠ .identifier) : EndsName (token :: rest) := by
  intro name like
  simp [startsDeclaration, notBracket, notWord] at like

theorem EndsName.ofTest {word : Token} {rest : List Token} (tests : word.isWord "instanceof") :
    EndsName (word :: rest) := by
  intro name like
  simp only [startsDeclaration, Bool.and_eq_true] at like
  exact .mk like.1 tests

/-- Brackets behind a name are empty in declarations only. -/
theorem EndsName.ofIndex {opening token : Token} {rest : List Token}
    (opens : opening.kind = .leftBracket) (starts : token.StartsExpression) :
    EndsName (opening :: token :: rest) := by
  intro name like
  have notClosing : token.kind ≠ .rightBracket := starts.kind_ne rfl rfl
  simp [startsDeclaration, opens, notClosing] at like

theorem Grammar.Rank.Joins.ne {rank tighter : Rank} {kind : Kind} {op : BinaryOp}
    (joins : rank.Joins kind op tighter) : kind ≠ .leftBracket ∧ kind ≠ .identifier := by
  cases joins <;> decide

theorem Grammar.SignBefore.ne {kind : Kind} {op : UnaryOp} (stands : SignBefore kind op) :
    kind ≠ .identifier := by
  cases stands <;> decide

theorem Grammar.SignBehind.ne {kind : Kind} {op : UnaryOp} (stands : SignBehind kind op) :
    kind ≠ .leftBracket ∧ kind ≠ .identifier := by
  cases stands <;> decide

mutual

/-- What begins with an expression is taken for a declaration only where the type of a name is
tested. -/
theorem Grammar.Expression.testsName {rank : Rank} {tokens : List Token} {expr : Expr} :
    Expression rank tokens expr → ∀ {rest}, EndsName rest →
      startsDeclaration (tokens ++ rest) → TestsName (tokens ++ rest)
  | .covered _ inner, _, ends, like => inner.testsName ends like
  | .assign left assigns _, _, _, like => by
    rw [List.append_assoc] at like ⊢
    exact left.testsName (.ofKind (by simp [assigns]) (by simp [assigns])) like
  | .binary joins left _, _, _, like => by
    rw [List.append_assoc] at like ⊢
    exact left.testsName (.ofKind joins.ne.1 joins.ne.2) like
  | .instanceOf tested tests _, _, _, like => by
    rw [List.append_assoc] at like ⊢
    exact tested.testsName (.ofTest tests) like
  | .unary stands _, _, _, like => by
    rw [List.cons_append, not_startsDeclaration (Token.isName_of_kind stands.ne)] at like
    contradiction
  | .new creates _ _ _, _, _, like => by
    rw [List.cons_append, not_startsDeclaration (Token.isName_of_isWord creates (by decide))] at like
    contradiction
  | .newArray creates _ _ _ _, _, _, like => by
    rw [List.cons_append, not_startsDeclaration (Token.isName_of_isWord creates (by decide))] at like
    contradiction
  | .cast casts _ _ _ _ _, _, _, like => by
    rw [List.cons_append, not_startsDeclaration (Token.isName_of_isWord casts (by decide))] at like
    contradiction
  | .step inner stands, _, _, like => by
    rw [List.append_assoc] at like ⊢
    exact inner.testsName (.ofKind stands.ne.1 stands.ne.2) like
  | .group opens _ _, _, _, like => by
    rw [List.cons_append, not_startsDeclaration (Token.isName_of_kind (by simp [opens]))] at like
    contradiction
  | .int isInteger, _, _, like => by
    rw [List.cons_append, not_startsDeclaration (Token.isName_of_kind (by simp [isInteger]))] at like
    contradiction
  | .bool isBoolean, _, _, like => by
    rw [List.cons_append, not_startsDeclaration (Token.isName_of_kind (by simp [isBoolean]))] at like
    contradiction
  | .string isString, _, _, like => by
    rw [List.cons_append, not_startsDeclaration (Token.isName_of_kind (by simp [isString]))] at like
    contradiction
  | .call qualified _ opens _ _, _, _, like => by
    rw [List.append_assoc] at like ⊢
    exact qualified.testsName (.ofKind (by simp [opens]) (by simp [opens])) like
  | .var qualified _, _, ends, like => by
    rw [List.append_assoc] at like ⊢
    exact qualified.testsName ends like
  | .indexed qualified _ opens inner _, _, _, like => by
    obtain ⟨token, more, rfl, starts⟩ := inner.starts
    rw [List.append_assoc] at like ⊢
    exact qualified.testsName (.ofIndex opens starts) like

theorem Grammar.Qualifier.testsName {front : List Token} {qualifier : Option Expr} {name : Token} :
    Qualifier front qualifier → ∀ {rest}, EndsName rest →
      startsDeclaration (front ++ name :: rest) → TestsName (front ++ name :: rest)
  | .none, _, ends, like => ends _ like
  | .dotted inner selects, _, _, like => by
    rw [List.append_assoc] at like ⊢
    exact inner.testsName (.ofKind (by simp [selects]) (by simp [selects])) like

end

end Bantam
