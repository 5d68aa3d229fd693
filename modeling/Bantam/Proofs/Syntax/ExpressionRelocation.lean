import Bantam.Proofs.Syntax.ExpressionComplete
import Bantam.Proofs.Syntax.Relocation

/-! Expressions in another place. Their readers choose by kinds and spellings of tokens, and the
spans of what they read are merged from those of tokens. -/
namespace Bantam.Relocation
variable {relocation : Relocation} {ended : Prop}

theorem signed_token {α : Type} (operator? : Kind → Option α) (token : Token) :
    signed operator? (relocation.token token) =
      (signed operator? token).map (Prod.map id relocation.move) := by
  rw [signed, signed, Option.map_map]
  rfl

theorem typeTest?_token (level : Level) (token : Token) :
    level.typeTest? (relocation.token token) = (level.typeTest? token).map relocation.move := by
  unfold Level.typeTest?
  split
  · exact spanOfWord_token "instanceof" token
  · rfl

theorem constant?_token (token : Token) :
    Expr.constant? (relocation.token token) =
      (Expr.constant? token).map (Expr.mark relocation.marking) := by
  have kind : (relocation.token token).kind = token.kind := rfl
  unfold Expr.constant?
  rw [kind]
  split <;> rfl

/-- An operand can be assigned to in one place if it can in another, and then gives the same
assignment. -/
theorem assignment?_cases (target : Operand) :
    (∃ assign assign', target.assignment? = some assign ∧
      (relocation.operand target).assignment? = some assign' ∧
      ∀ value, assign' (value.mark relocation.marking) =
        (assign value).mark relocation.marking) ∨
    (target.assignment? = none ∧ (relocation.operand target).assignment? = none) := by
  obtain ⟨expr, grouped⟩ := target
  cases grouped with
  | true => cases expr <;> exact .inr ⟨rfl, rfl⟩
  | false =>
    cases expr with
    | var info qualifier name index =>
      refine .inl ⟨_, _, rfl, rfl, fun value => ?_⟩
      simp [Expr.mark, relocation.merge]
    | _ => exact .inr ⟨rfl, rfl⟩

mutual

theorem readExpr_carries {ended : Prop} (tokens : List Token) :
    relocation.Carries ended tokens False (Expr.mark relocation.marking) (readExpr tokens)
      (readExpr (relocation.tokens tokens)) := by
  rw [readExpr, readExpr]
  refine .bind (readOperators_carries .or tokens) fun left => ?_
  rcases relocation.kind?_cases .assign left.rest with ⟨sign, found, found'⟩ | ⟨found, unseen⟩
  · simp only [rest_reading, value_reading, found, found']
    refine .seen found ?_
    rcases relocation.assignment?_cases left.value with ⟨assign, assign', assigns, assigns', same⟩ |
      ⟨refused, refused'⟩
    · simp only [assigns, assigns']
      refine .bind (readExpr_carries sign.rest) fun right => ?_
      exact .give id rfl (same right.value)
    · simp only [refused, refused']
      exact .fail (by simp [failure, obstacle, operand])
  · rw [found]
    refine .unseen (fun hides => by simp only [rest_reading, unseen hides]; rfl) ?_
    exact .give id rfl rfl
termination_by descent tokens 16
decreasing_by
  · simp [descent, Level.height]
  · have := left.shorter; have := sign.shorter; simp [descent]; omega

theorem readOperators_carries {ended : Prop} (level : Level) (tokens : List Token) :
    relocation.Carries ended tokens False relocation.operand (readOperators level tokens)
      (readOperators level (relocation.tokens tokens)) := by
  rw [readOperators, readOperators]
  exact .bind (readOperand_carries level tokens) fun first => readMoreOperators_carries level first
termination_by descent tokens (2 * level.height + 3)
decreasing_by
  · simp [descent]
  · have := first.shorter; simp [descent]; omega

theorem readMoreOperators_carries {ended : Prop} (level : Level) {tokens : List Token}
    (left : Reading Operand tokens) :
    relocation.Carries ended left.rest False relocation.operand (readMoreOperators level left)
      (readMoreOperators level (relocation.reading relocation.operand left)) := by
  rw [readMoreOperators, readMoreOperators]
  rcases relocation.token?_cases (signed_token level.operator?) left.rest with
    ⟨sign, found, found'⟩ | ⟨found, unseen⟩
  · simp only [rest_reading, found, found']
    refine .seen found (.bind (readOperand_carries level sign.rest) fun right => ?_)
    refine .along ?_ (readMoreOperators_carries level ((left.followedBy (sign.followedBy right)).give
      (.plain (.binary ⟨left.value.expr.span.merge right.value.expr.span, none⟩ sign.value.1
        left.value.expr right.value.expr))))
    congr 1
    exact reading_ext rfl (by simp [operand, Operand.plain, Expr.mark, relocation.merge])
  rw [found]
  refine .unseen (fun hides => by simp only [rest_reading, unseen hides]; rfl) ?_
  rcases relocation.token?_cases (typeTest?_token level) left.rest with
    ⟨word, found, found'⟩ | ⟨found, unseen⟩
  · simp only [found, found']
    refine .seen found (.bind (readType_carries word.rest) fun type => ?_)
    refine .along ?_ (readMoreOperators_carries level ((left.followedBy (word.followedBy type)).give
      (.plain (.instanceOf ⟨left.value.expr.span.merge type.value.span, none⟩ left.value.expr
        type.value.type))))
    congr 1
    exact reading_ext rfl
      (by simp [operand, Operand.plain, Expr.mark, relocation.merge, typeName])
  · simp only [found]
    refine .unseen (fun hides => by simp only [unseen hides]; rfl) ?_
    exact .give id rfl rfl
termination_by descent left.rest (2 * level.height + 3)
decreasing_by
  · have := sign.shorter; simp [descent]; omega
  · have := sign.shorter; have := right.shorter
    simp [descent, Reading.followedBy, Reading.give]; omega
  · have := word.shorter; have := type.shorter
    simp [descent, Reading.followedBy, Reading.give]; omega

theorem readOperand_carries {ended : Prop} (level : Level) (tokens : List Token) :
    relocation.Carries ended tokens False relocation.operand (readOperand level tokens)
      (readOperand level (relocation.tokens tokens)) := by
  cases found : level.tighter? with
  | none =>
    rw [readOperand_of_tightest found, readOperand_of_tightest found]
    exact readUnary_carries tokens
  | some tighter =>
    rw [readOperand_of_tighter? found, readOperand_of_tighter? found]
    exact readOperators_carries tighter tokens
termination_by descent tokens (2 * level.height + 2)
decreasing_by
  · have := level.height_pos; simp [descent]; omega
  · have := Level.height_of_tighter? found; simp [descent]; omega

theorem readUnary_carries {ended : Prop} (tokens : List Token) :
    relocation.Carries ended tokens False relocation.operand (readUnary tokens)
      (readUnary (relocation.tokens tokens)) := by
  rw [readUnary, readUnary]
  rcases relocation.token?_cases (signed_token UnaryOp.before?) tokens with
    ⟨sign, found, found'⟩ | ⟨found, unseen⟩
  · simp only [found, found']
    refine .seen found (.bind (readUnary_carries sign.rest) fun operand => ?_)
    exact .give id rfl (by simp [Relocation.operand, Operand.plain, Expr.mark, relocation.merge])
  rw [found]
  refine .unseen (fun hides => by simp only [unseen hides]; rfl) ?_
  rcases relocation.word?_cases "new" tokens with ⟨word, found, found'⟩ | ⟨found, unseen⟩
  · simp only [found, found']
    refine .seen found (.bind (readName_carries word.rest) fun name => ?_)
    rcases relocation.kind?_cases .leftParen name.rest with ⟨paren, found, found'⟩ | ⟨found, unseen⟩
    · simp only [rest_reading, found, found']
      refine .seen found (.bind (readKind_carries paren.rest .rightParen) fun close => ?_)
      exact .give (fun _ => trivial) rfl
        (by simp [operand, Operand.plain, Expr.mark, relocation.merge, Relocation.name])
    simp only [found]
    refine .unseen (fun hides => by simp only [rest_reading, unseen hides]; rfl) ?_
    rcases relocation.kind?_cases .leftBracket name.rest with
      ⟨bracket, found, found'⟩ | ⟨found, unseen⟩
    · simp only [found, found']
      refine .seen found (.bind (readExpr_carries bracket.rest) fun size => ?_)
      refine .bind (readKind_carries size.rest .rightBracket) fun close => ?_
      exact .give (fun _ => trivial) rfl
        (by simp [operand, Operand.plain, Expr.mark, relocation.merge, Relocation.name])
    · simp only [found]
      refine .unseen (fun hides => by simp only [unseen hides]; rfl) ?_
      exact .fail rfl
  simp only [found]
  refine .unseen (fun hides => by simp only [unseen hides]; rfl) ?_
  rcases relocation.word?_cases "cast" tokens with ⟨word, found, found'⟩ | ⟨found, unseen⟩
  · simp only [found, found']
    refine .seen found (.bind (readKind_carries word.rest .leftParen) fun paren => ?_)
    refine .bind (readType_carries paren.rest) fun type => ?_
    refine .bind (readKind_carries type.rest .comma) fun comma => ?_
    refine .bind (readExpr_carries comma.rest) fun inner => ?_
    refine .bind (readKind_carries inner.rest .rightParen) fun close => ?_
    exact .give (fun _ => trivial) rfl
      (by simp [operand, Operand.plain, Expr.mark, relocation.merge, typeName])
  simp only [found]
  refine .unseen (fun hides => by simp only [unseen hides]; rfl) ?_
  refine .bind (readPrimary_carries tokens) fun inner => ?_
  rcases relocation.token?_cases (signed_token UnaryOp.behind?) inner.rest with
    ⟨sign, found, found'⟩ | ⟨found, unseen⟩
  · simp only [rest_reading, found, found']
    refine .seen found (.give (fun _ => trivial) rfl ?_)
    simp [operand, Operand.plain, Expr.mark, relocation.merge]
  · simp only [found]
    refine .unseen (fun hides => by simp only [rest_reading, unseen hides]; rfl) ?_
    exact .give id rfl rfl
termination_by descent tokens 3
decreasing_by
  · have := sign.shorter; simp [descent]; omega
  · have := word.shorter; have := name.shorter; have := bracket.shorter; simp [descent]; omega
  · have := word.shorter; have := paren.shorter; have := type.shorter; have := comma.shorter
    simp [descent]; omega
  · simp [descent]

theorem readPrimary_carries {ended : Prop} (tokens : List Token) :
    relocation.Carries ended tokens False relocation.operand (readPrimary tokens)
      (readPrimary (relocation.tokens tokens)) := by
  rw [readPrimary, readPrimary]
  rcases relocation.kind?_cases .leftParen tokens with ⟨paren, found, found'⟩ | ⟨found, unseen⟩
  · simp only [found, found']
    refine .seen found (.bind (readExpr_carries paren.rest) fun inner => ?_)
    refine .bind (readKind_carries inner.rest .rightParen) fun close => ?_
    refine .along ?_ (readSelections_carries ((paren.followedBy (inner.followedBy close)).give
      ⟨inner.value.withSpan (paren.value.merge close.value), true⟩))
    congr 1
    exact reading_ext rfl (by simp [operand, ← relocation.merge])
  simp only [found]
  refine .unseen (fun hides => by simp only [unseen hides]; rfl) ?_
  rcases relocation.token?_cases constant?_token tokens with
    ⟨constant, found, found'⟩ | ⟨found, unseen⟩
  · simp only [found, found']
    exact .seen found (readSelections_carries (constant.give (.plain constant.value)))
  simp only [found]
  refine .unseen (fun hides => by simp only [unseen hides]; rfl) ?_
  rcases relocation.token?_cases ofToken?_token tokens with ⟨name, found, found'⟩ | ⟨found, unseen⟩
  · simp only [found, found']
    refine .seen found (.bind (readNamed_carries none name) fun expr => ?_)
    exact readSelections_carries (expr.give (.plain expr.value))
  · simp only [found]
    refine .unseen (fun hides => by simp only [unseen hides]; rfl) ?_
    exact .fail rfl
termination_by descent tokens 2
decreasing_by
  · have := paren.shorter; simp [descent]; omega
  · have := paren.shorter; have := inner.shorter; have := close.shorter
    simp [descent, Reading.followedBy, Reading.give]; omega
  · have := constant.shorter; simp [descent, Reading.give]; omega
  · have := name.shorter; simp [descent]; omega
  · have := expr.shorter; simp [descent, Reading.give]; omega

theorem readSelections_carries {ended : Prop} {tokens : List Token}
    (head : Reading Operand tokens) :
    relocation.Carries ended head.rest False relocation.operand (readSelections head)
      (readSelections (relocation.reading relocation.operand head)) := by
  rw [readSelections, readSelections]
  rcases relocation.kind?_cases .dot head.rest with ⟨dot, found, found'⟩ | ⟨found, unseen⟩
  · simp only [rest_reading, found, found']
    refine .seen found (.bind (readName_carries dot.rest) fun name => ?_)
    refine .bind (readNamed_carries (some head.value.expr) (dot.followedBy name)) fun expr => ?_
    exact readSelections_carries ((head.followedBy expr).give (.plain expr.value))
  · simp only [found]
    refine .unseen (fun hides => by simp only [rest_reading, unseen hides]; rfl) ?_
    exact .give id rfl rfl
termination_by descent head.rest 1
decreasing_by
  · have := dot.shorter; have := name.shorter; simp [descent, Reading.followedBy]; omega
  · have := expr.shorter; simp [descent, Reading.followedBy, Reading.give]; omega

theorem readNamed_carries {ended : Prop} (qualifier : Option Expr) {tokens : List Token}
    (name : Reading Name tokens) :
    relocation.Carries ended name.rest False (Expr.mark relocation.marking)
      (readNamed qualifier name)
      (readNamed (Expr.markOption relocation.marking qualifier)
        (relocation.reading relocation.name name)) := by
  have start : ((Expr.markOption relocation.marking qualifier).map Expr.span).getD
      (relocation.move name.value.span) =
        relocation.move ((qualifier.map Expr.span).getD name.value.span) := by
    cases qualifier with
    | none => rfl
    | some expr => exact span_mark expr
  rw [readNamed, readNamed]
  rcases relocation.kind?_cases .leftParen name.rest with ⟨paren, found, found'⟩ | ⟨found, unseen⟩
  · simp only [rest_reading, found, found']
    refine .seen found (.bind (readArguments_carries paren.rest) fun arguments => ?_)
    exact .give id rfl (by simp [Expr.mark, relocation.merge, start, Relocation.name])
  simp only [found]
  refine .unseen (fun hides => by simp only [rest_reading, unseen hides]; rfl) ?_
  rcases relocation.kind?_cases .leftBracket name.rest with
    ⟨bracket, found, found'⟩ | ⟨found, unseen⟩
  · simp only [found, found']
    refine .seen found (.bind (readExpr_carries bracket.rest) fun index => ?_)
    refine .bind (readKind_carries index.rest .rightBracket) fun close => ?_
    refine .give (fun _ => trivial) rfl ?_
    simp [Expr.mark, Expr.markOption, relocation.merge, start, Relocation.name]
  · simp only [found]
    refine .unseen (fun hides => by simp only [unseen hides]; rfl) ?_
    refine .give id rfl ?_
    simp [Expr.mark, Expr.markOption, relocation.merge, start, Relocation.name]
termination_by descent name.rest 19
decreasing_by
  · have := paren.shorter; simp [descent]; omega
  · have := bracket.shorter; simp [descent]; omega

theorem readArguments_carries {ended : Prop} (tokens : List Token) :
    relocation.Carries ended tokens False
      (Prod.map (Expr.markList relocation.marking) relocation.move) (readArguments tokens)
      (readArguments (relocation.tokens tokens)) := by
  rw [readArguments, readArguments]
  rcases relocation.kind?_cases .rightParen tokens with ⟨close, found, found'⟩ | ⟨found, unseen⟩
  · simp only [found, found']
    exact .seen found (.give (fun _ => trivial) rfl rfl)
  · simp only [found]
    refine .unseen (fun hides => by simp only [unseen hides]; rfl) ?_
    exact readMoreArguments_carries tokens
termination_by descent tokens 18
decreasing_by simp [descent]

theorem readMoreArguments_carries {ended : Prop} (tokens : List Token) :
    relocation.Carries ended tokens False
      (Prod.map (Expr.markList relocation.marking) relocation.move) (readMoreArguments tokens)
      (readMoreArguments (relocation.tokens tokens)) := by
  rw [readMoreArguments, readMoreArguments]
  refine .bind (readExpr_carries tokens) fun first => ?_
  rcases relocation.kind?_cases .comma first.rest with ⟨comma, found, found'⟩ | ⟨found, unseen⟩
  · simp only [rest_reading, found, found']
    refine .seen found (.bind (readMoreArguments_carries comma.rest) fun more => ?_)
    exact .give id rfl rfl
  · simp only [found]
    refine .unseen (fun hides => by simp only [rest_reading, unseen hides]; rfl) ?_
    refine .bind (readKind_carries first.rest .rightParen) fun close => ?_
    exact .give (fun _ => trivial) rfl rfl
termination_by descent tokens 17
decreasing_by
  · simp [descent]
  · have := first.shorter; have := comma.shorter; simp [descent]; omega

end

end Bantam.Relocation
