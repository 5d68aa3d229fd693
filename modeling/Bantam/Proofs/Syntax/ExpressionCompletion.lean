import Bantam.Proofs.Syntax.Completion

/-! Expressions fail in time: what stands before the token at which an expression cannot go on is
the beginning of one. The loops over operators and over dots have an expression before them, to
which every token that they take can be added. -/
namespace Bantam
open Grammar

/-- The expressions of a rank. -/
def Grammar.Rank.texts (rank : Rank) : Language Token := {text | ∃ expr, Expression rank text expr}

def ofArguments : Language Token := {text | ∃ exprs, Arguments text exprs}

/-- At least one argument. -/
def ofSomeArguments : Language Token := {text | ∃ expr exprs, Arguments text (expr :: exprs)}

instance : Inhabited Info := ⟨⟨default, none⟩⟩

theorem texts_covers {rank tighter : Rank} (covers : rank.Covers tighter) :
    tighter.texts ≤ rank.texts :=
  fun _ ⟨expr, derived⟩ => ⟨expr, .covered covers derived⟩

theorem primary_le_assignment : Rank.primary.texts ≤ Rank.assignment.texts := by
  rintro text ⟨expr, derived⟩
  have unary := Expression.covered .unary (.covered .stepped derived)
  have relational :=
    Expression.covered .relational (.covered .additive (.covered .multiplicative unary))
  exact ⟨expr, .covered .assignment (.covered .or (.covered .and (.covered .equality relational)))⟩

/-- A name is a variable. -/
instance : Open Rank.primary.texts := by
  obtain ⟨more, areFillers, name, isName, rfl⟩ := (inferInstance : Open ofName).viable
  have isVariable : Expression .variable [name] (.var default none _ none) := .var .none isName
  exact ⟨[name], areFillers, _, .covered .primary isVariable⟩

instance : Open Rank.assignment.texts := ⟨viable_mono primary_le_assignment Open.viable⟩

theorem ReadsText.expr {tokens : List Token}
    (completable : Completable Rank.assignment.texts tokens (readExpr tokens)) :
    ReadsText Rank.assignment.texts (readExpr tokens) :=
  ⟨fun _ read => ⟨_, readExpr_sound read⟩, completable⟩

theorem newObject_texts : ofWord "new" * (ofName * (ofKind .leftParen * ofKind .rightParen)) ≤
    Rank.unary.texts := by
  rintro _ ⟨_, ⟨word, creates, rfl⟩, _, ⟨_, ⟨name, isName, rfl⟩, _, ⟨_, ⟨opening, opens, rfl⟩, _,
    ⟨closing, closes, rfl⟩, rfl⟩, rfl⟩, rfl⟩
  exact ⟨.new default _, .new creates isName opens closes⟩

theorem newArray_texts : ofWord "new" * (ofName * (ofKind .leftBracket *
    (Rank.assignment.texts * ofKind .rightBracket))) ≤ Rank.unary.texts := by
  rintro _ ⟨_, ⟨word, creates, rfl⟩, _, ⟨_, ⟨name, isName, rfl⟩, _, ⟨_, ⟨opening, opens, rfl⟩, _,
    ⟨_, ⟨size, inner⟩, _, ⟨closing, closes, rfl⟩, rfl⟩, rfl⟩, rfl⟩, rfl⟩
  exact ⟨.newArray default _ size, .newArray creates isName opens inner closes⟩

theorem cast_texts : ofWord "cast" * (ofKind .leftParen * (ofType * (ofKind .comma *
    (Rank.assignment.texts * ofKind .rightParen)))) ≤ Rank.unary.texts := by
  rintro _ ⟨_, ⟨word, casts, rfl⟩, _, ⟨_, ⟨opening, opens, rfl⟩, _, ⟨left, ⟨type, named⟩, _,
    ⟨_, ⟨comma, separates, rfl⟩, _, ⟨right, ⟨operand, inner⟩, _, ⟨closing, closes, rfl⟩, rfl⟩, rfl⟩,
    rfl⟩, rfl⟩, rfl⟩
  exact ⟨.cast default type operand, .cast casts opens named separates inner closes⟩

theorem oneArgument_texts : Rank.assignment.texts ≤ ofSomeArguments :=
  fun _ ⟨expr, only⟩ => ⟨expr, [], .one only⟩

theorem group_texts : ofKind .leftParen * (Rank.assignment.texts * ofKind .rightParen) ≤
    Rank.primary.texts := by
  rintro _ ⟨_, ⟨opening, opens, rfl⟩, _, ⟨_, ⟨expr, inner⟩, _, ⟨closing, closes, rfl⟩, rfl⟩, rfl⟩
  exact ⟨expr.withInfo default, .group opens inner closes⟩

mutual

theorem readExpr_completable (tokens : List Token) :
    Completable Rank.assignment.texts tokens (readExpr tokens) := by
  rw [readExpr]
  refine .bind (.mono (texts_covers .assignment) (readOperators_completable .or tokens))
    fun left readLeft => ?_
  rcases found : readKind? .assign left.rest with _ | sign
  · exact .ok _
  · dsimp only
    split
    · exact .invalidTarget _ _
    · next assign isTarget =>
      obtain ⟨single, info, qualifier, name, index, isVar, -⟩ := assignment?_eq_some isTarget
      have isVariable := (readOperators_sound readLeft).isVariable single (by rw [isVar]; rfl)
      obtain ⟨token, taken, assigns⟩ := readKind?_taken found
      refine .last (.after (left.followedBy sign).taken_append_rest
        (readExpr_completable sign.rest) ?_)
      rintro text ⟨value, derived⟩
      rw [Reading.taken_followedBy, taken, List.append_assoc]
      exact viable_of_mem
        ⟨.assign default qualifier name index value, .assign (isVar ▸ isVariable) assigns derived⟩
termination_by descent tokens 16
decreasing_by
  · simp [descent, Level.height]
  · have := left.shorter; have := sign.shorter; simp [descent]; omega

theorem readOperators_completable (level : Level) (tokens : List Token) :
    Completable level.rank.texts tokens (readOperators level tokens) := by
  rw [readOperators]
  exact .bind (.mono (texts_covers level.covers) (readOperand_completable level tokens))
    fun first readFirst =>
      readMoreOperators_completable ((readOperand_sound readFirst).covered level.covers)
termination_by descent tokens (2 * level.height + 3)
decreasing_by
  · simp [descent]
  · have := first.shorter; simp [descent]; omega

theorem readMoreOperators_completable {level : Level} {tokens : List Token}
    {left : Reading Operand tokens} (before : left.value.Fits level.rank left.taken) :
    Completable level.rank.texts tokens (readMoreOperators level left) := by
  rw [readMoreOperators]
  rcases found : readToken? (signed level.operator?) left.rest with _ | sign
  · dsimp only
    rcases found : readToken? level.typeTest? left.rest with _ | word
    · exact .ok _
    · obtain ⟨token, taken, chosen⟩ := readToken?_taken found
      obtain ⟨isRelational, tests⟩ := relational_of_typeTest? chosen
      have whole (text : List Token) {type : Ty} (named : Grammar.TypeName text type)
          (info : Info) : Expression level.rank (left.taken ++ (word.taken ++ text))
            (.instanceOf info left.value.expr type) := by
        rw [taken]
        rw [isRelational] at before ⊢
        exact .instanceOf before.isExpr tests named
      refine .bind (.after (left.followedBy word).taken_append_rest
        (readType_readsText word.rest).completable ?_) fun type readType =>
          readMoreOperators_completable ?_
      · rintro text ⟨type, named⟩
        rw [Reading.taken_followedBy, List.append_assoc]
        exact viable_of_mem ⟨_, whole text named default⟩
      · rw [Reading.taken_give, Reading.taken_followedBy, Reading.taken_followedBy]
        exact .ofExpr (whole _ (readType_sound readType) _) rfl
  · obtain ⟨token, taken, chosen⟩ := readToken?_taken found
    have joins := Level.joins_of_operator? (operator_of_signed chosen)
    have whole (text : List Token) {expr : Expr} (operand : Expression level.operandRank text expr)
        (info : Info) : Expression level.rank (left.taken ++ (sign.taken ++ text))
          (.binary info sign.value.1 left.value.expr expr) := by
      rw [taken]
      exact .binary joins before.isExpr operand
    refine .bind (.after (left.followedBy sign).taken_append_rest
      (readOperand_completable level sign.rest) ?_) fun right readRight =>
        readMoreOperators_completable ?_
    · rintro text ⟨expr, operand⟩
      rw [Reading.taken_followedBy, List.append_assoc]
      exact viable_of_mem ⟨_, whole text operand default⟩
    · rw [Reading.taken_give, Reading.taken_followedBy, Reading.taken_followedBy]
      exact .ofExpr (whole _ (readOperand_sound readRight).isExpr _) rfl
termination_by descent left.rest (2 * level.height + 3)
decreasing_by
  · have := word.shorter; have := type.shorter
    simp [descent, Reading.followedBy, Reading.give]; omega
  · have := sign.shorter; simp [descent]; omega
  · have := sign.shorter; have := right.shorter
    simp [descent, Reading.followedBy, Reading.give]; omega

theorem readOperand_completable (level : Level) (tokens : List Token) :
    Completable level.operandRank.texts tokens (readOperand level tokens) := by
  rw [readOperand, Level.operandRank]
  split
  · next tighter found =>
    rw [found]
    exact readOperators_completable tighter tokens
  · next found =>
    rw [found]
    exact readUnary_completable tokens
termination_by descent tokens (2 * level.height + 2)
decreasing_by
  · rename_i found; have := Level.height_of_tighter? found; simp [descent]; omega
  · have := level.height_pos; simp [descent]; omega

theorem readUnary_completable (tokens : List Token) :
    Completable Rank.unary.texts tokens (readUnary tokens) := by
  rw [readUnary]
  rcases found : readToken? (signed UnaryOp.before?) tokens with _ | sign
  · dsimp only
    rcases found : readWord? "new" tokens with _ | word
    · dsimp only
      rcases found : readWord? "cast" tokens with _ | word
      · refine .bind (.mono (texts_covers .unary) (.mono (texts_covers .stepped)
          (readPrimary_completable tokens))) fun operand _ => ?_
        split <;> exact .ok _
      · exact .mono cast_texts (.seenWord found (.andThen (readKind_readsText _ _) fun paren _ =>
          .andThen (readType_readsText _) fun type _ =>
          .andThen (readKind_readsText _ _) fun comma _ =>
          .andThen (.expr (readExpr_completable comma.rest)) fun operand _ =>
            .last (readKind_readsText _ _).completable))
    · dsimp only
      obtain ⟨token, taken, creates⟩ := readWord?_taken found
      have isWord : word.taken ∈ ofWord "new" := taken ▸ mem_single creates
      have first := readName_readsText word.rest
      refine .bind (.mono newObject_texts (.behind word.taken_append_rest isWord
        (.mul first.completable))) fun name readName => ?_
      have isName := first.text name readName
      rcases found : readKind? .leftParen name.rest with _ | paren
      · dsimp only
        rcases found : readKind? .leftBracket name.rest with _ | bracket
        · exact .mono newObject_texts (.behind word.taken_append_rest isWord
            (.behind name.taken_append_rest isName (.here _ Open.viable)))
        · exact .mono newArray_texts (.behind word.taken_append_rest isWord
            (.behind name.taken_append_rest isName (.seenKind found
              (.andThen (.expr (readExpr_completable bracket.rest)) fun size _ =>
                .last (readKind_readsText _ _).completable))))
      · exact .mono newObject_texts (.behind word.taken_append_rest isWord
          (.behind name.taken_append_rest isName
            (.seenKind found (.last (readKind_readsText _ _).completable))))
  · obtain ⟨token, taken, chosen⟩ := readToken?_taken found
    have before := signBefore_of_before? (operator_of_signed chosen)
    refine .last (.after sign.taken_append_rest (readUnary_completable sign.rest) ?_)
    rintro text ⟨operand, inner⟩
    rw [taken]
    exact viable_of_mem ⟨.unary default sign.value.1 operand, .unary before inner⟩
termination_by descent tokens 3
decreasing_by
  · simp [descent]
  · have := word.shorter; have := paren.shorter; have := type.shorter; have := comma.shorter
    simp [descent]; omega
  · have := word.shorter; have := name.shorter; have := bracket.shorter; simp [descent]; omega
  · have := sign.shorter; simp [descent]; omega

theorem readPrimary_completable (tokens : List Token) :
    Completable Rank.primary.texts tokens (readPrimary tokens) := by
  rw [readPrimary]
  rcases found : readKind? .leftParen tokens with _ | paren
  · dsimp only
    rcases found : readToken? Expr.constant? tokens with _ | constant
    · dsimp only
      rcases found : readToken? Name.ofToken? tokens with _ | name
      · exact .here _ Open.viable
      · obtain ⟨token, taken, chosen⟩ := readToken?_taken found
        obtain ⟨isName, text⟩ := name_of_ofToken? chosen
        have unqualified : Qualifier ([] ++ []) none := .none
        exact .bind (readNamed_completable unqualified taken isName) fun expr readNamed =>
          readSelections_completable (readNamed_sound unqualified taken isName text readNamed)
    · obtain ⟨token, taken, chosen⟩ := readToken?_taken found
      obtain ⟨isConstant, notVar⟩ := Expression.constant chosen
      apply readSelections_completable
      rw [Reading.taken_give, taken]
      exact .ofExpr isConstant notVar
  · obtain ⟨opening, takenOpening, opens⟩ := readKind?_taken found
    have isOpening : paren.taken ∈ ofKind .leftParen := takenOpening ▸ mem_single opens
    refine .bind (.mono group_texts (.behind paren.taken_append_rest isOpening
      (.mul (readExpr_completable paren.rest)))) fun inner readInner => ?_
    have enclosed := readExpr_sound readInner
    refine .bind (.mono group_texts (.behind paren.taken_append_rest isOpening
      (.behind inner.taken_append_rest ⟨_, enclosed⟩ (readKind_readsText _ _).completable)))
        fun close readClose => readSelections_completable ?_
    obtain ⟨closing, takenClosing, closes⟩ := readKind_taken readClose
    rw [Reading.taken_give, Reading.taken_followedBy, Reading.taken_followedBy, takenOpening,
      takenClosing]
    exact ⟨.group opens enclosed closes, fun isSingle => nomatch isSingle⟩
termination_by descent tokens 2
decreasing_by
  · have := name.shorter; simp [descent]; omega
  · have := expr.shorter; simp [descent, Reading.give]; omega
  · have := constant.shorter; simp [descent, Reading.give]; omega
  · have := paren.shorter; simp [descent]; omega
  · have := paren.shorter; have := inner.shorter; have := close.shorter
    simp [descent, Reading.followedBy, Reading.give]; omega

theorem readSelections_completable {tokens : List Token} {head : Reading Operand tokens}
    (before : head.value.Fits .primary head.taken) :
    Completable Rank.primary.texts tokens (readSelections head) := by
  rw [readSelections]
  rcases found : readKind? .dot head.rest with _ | dot
  · exact .ok _
  · obtain ⟨token, taken, selects⟩ := readKind?_taken found
    refine .bind (.after (head.followedBy dot).taken_append_rest
      (readName_readsText dot.rest).completable ?_) fun name readName => ?_
    · rintro _ ⟨name, isName, rfl⟩
      rw [Reading.taken_followedBy, taken]
      have isVariable : Expression .variable (head.taken ++ [token] ++ [name])
          (.var default (some head.value.expr) _ none) :=
        .var (.dotted before.isExpr selects) isName
      exact viable_of_mem ⟨_, .covered .primary isVariable⟩
    · obtain ⟨nameToken, takenName, isName, text⟩ := readName_taken readName
      have takenBoth : (dot.followedBy name).taken = [token] ++ [nameToken] := by
        rw [Reading.taken_followedBy, taken, takenName]
      have qualified := Qualifier.dotted before.isExpr selects
      have named := readNamed_completable qualified takenBoth isName
      rw [head.taken_append_rest] at named
      refine .bind named fun expr readNamed => readSelections_completable ?_
      rw [Reading.taken_give, Reading.taken_followedBy]
      exact readNamed_sound qualified takenBoth isName text readNamed
termination_by descent head.rest 1
decreasing_by
  · have := dot.shorter; have := name.shorter; simp [descent, Reading.followedBy]; omega
  · have := expr.shorter; simp [descent, Reading.followedBy, Reading.give]; omega

/-- A name is completed together with what stands before it, of which the last tokens may be part of
the reading. -/
theorem readNamed_completable {qualifier : Option Expr} {front before tokens : List Token}
    {name : Reading Name tokens} {token : Token}
    (qualified : Qualifier (front ++ before) qualifier) (taken : name.taken = before ++ [token])
    (isName : token.isName) :
    Completable Rank.primary.texts (front ++ tokens) (readNamed qualifier name) := by
  have split {sign : Reading Span name.rest} {opening : Token}
      (takenOpening : sign.taken = [opening]) :
      (front ++ before ++ [token, opening]) ++ sign.rest = front ++ tokens := by
    have whole : (name.followedBy sign).taken ++ sign.rest = tokens := Reading.taken_append_rest _
    rw [Reading.taken_followedBy, taken, takenOpening] at whole
    simpa using congrArg (front ++ ·) whole
  rw [readNamed]
  rcases found : readKind? .leftParen name.rest with _ | paren
  · dsimp only
    rcases found : readKind? .leftBracket name.rest with _ | bracket
    · exact .ok _
    · obtain ⟨opening, takenOpening, opens⟩ := readKind?_taken found
      refine .after (split takenOpening) (.andThen (.expr (readExpr_completable bracket.rest))
        fun index _ => .last (readKind_readsText .rightBracket _).completable) ?_
      rintro _ ⟨inside, ⟨index, inner⟩, _, ⟨closing, closes, rfl⟩, rfl⟩
      have isVariable : Expression .variable (front ++ before ++ token :: opening ::
          (inside ++ [closing])) (.var default qualifier token.spelling (some index)) :=
        .indexed qualified isName opens inner closes
      rw [List.append_assoc]
      exact viable_of_mem ⟨_, .covered .primary isVariable⟩
  · obtain ⟨opening, takenOpening, opens⟩ := readKind?_taken found
    refine .after (split takenOpening) (.last (readArguments_completable paren.rest)) ?_
    rintro _ ⟨inside, ⟨arguments, given⟩, _, ⟨closing, closes, rfl⟩, rfl⟩
    rw [List.append_assoc]
    exact viable_of_mem ⟨.call default qualifier token.spelling arguments,
      .call qualified isName opens given closes⟩
termination_by descent name.rest 19
decreasing_by
  · have := bracket.shorter; simp [descent]; omega
  · have := paren.shorter; simp [descent]; omega

theorem readArguments_completable (tokens : List Token) :
    Completable (ofArguments * ofKind .rightParen) tokens (readArguments tokens) := by
  rw [readArguments]
  split
  · exact .ok _
  · refine .mono ?_ (readMoreArguments_completable tokens)
    rintro _ ⟨text, ⟨expr, exprs, given⟩, closing, closes, rfl⟩
    exact ⟨text, ⟨_, given⟩, closing, closes, rfl⟩
termination_by descent tokens 18
decreasing_by simp [descent]

theorem readMoreArguments_completable (tokens : List Token) :
    Completable (ofSomeArguments * ofKind .rightParen) tokens (readMoreArguments tokens) := by
  rw [readMoreArguments]
  refine .bind (.mul (.mono oneArgument_texts (readExpr_completable tokens)))
    fun first readFirst => ?_
  have argument := readExpr_sound readFirst
  rcases found : readKind? .comma first.rest with _ | comma
  · exact .behind first.taken_append_rest ⟨_, _, .one argument⟩
      (.last (readKind_readsText _ _).completable)
  · obtain ⟨token, taken, separates⟩ := readKind?_taken found
    refine .last (.after (first.followedBy comma).taken_append_rest
      (readMoreArguments_completable comma.rest) ?_)
    rintro _ ⟨rest, ⟨next, exprs, others⟩, closing, closes, rfl⟩
    refine viable_of_mem ⟨first.taken ++ token :: rest,
      ⟨_, _, .more argument separates others⟩, closing, closes, ?_⟩
    simp [taken]
termination_by descent tokens 17
decreasing_by
  · simp [descent]
  · have := first.shorter; have := comma.shorter; simp [descent]; omega

end

end Bantam
