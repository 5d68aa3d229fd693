import Bantam.Proofs.Syntax.Grammar
import Bantam.Proofs.Syntax.Taken

/-! Expressions are read by the grammar: what a parser of expressions takes is a text from which the
grammar derives the expression it returns. The loops over operators and over dots keep this of what
they have read so far. -/
namespace Bantam
open Grammar

/-- The rank of what the operators of a level make. -/
def Level.rank : Level → Rank
  | or => .or
  | and => .and
  | equality => .equality
  | relational => .relational
  | additive => .additive
  | multiplicative => .multiplicative

def Level.operandRank (level : Level) : Rank := (level.tighter?.map rank).getD .unary

theorem Level.covers (level : Level) : level.rank.Covers level.operandRank := by
  cases level <;> constructor

theorem Level.joins_of_operator? {level : Level} {kind : Kind} {op : BinaryOp}
    (stands : level.operator? kind = some op) : level.rank.Joins kind op level.operandRank := by
  unfold Level.operator? at stands
  split at stands <;> cases stands <;> constructor

theorem signBefore_of_before? {kind : Kind} {op : UnaryOp}
    (stands : UnaryOp.before? kind = some op) : SignBefore kind op := by
  unfold UnaryOp.before? at stands
  split at stands <;> cases stands <;> constructor

theorem signBehind_of_behind? {kind : Kind} {op : UnaryOp}
    (stands : UnaryOp.behind? kind = some op) : SignBehind kind op := by
  unfold UnaryOp.behind? at stands
  split at stands <;> cases stands <;> constructor

theorem operator_of_signed {α : Type} {operator? : Kind → Option α} {token : Token}
    {sign : α × Span} (chosen : signed operator? token = some sign) :
    operator? token.kind = some sign.1 := by
  obtain ⟨op, stands, rfl⟩ := Option.map_eq_some_iff.mp chosen
  exact stands

theorem relational_of_typeTest? {level : Level} {token : Token} {span : Span}
    (chosen : level.typeTest? token = some span) :
    level = .relational ∧ token.isWord "instanceof" := by
  rw [Level.typeTest?] at chosen
  split at chosen
  · exact ⟨‹_›, isWord_of_spanOfWord chosen⟩
  · contradiction

theorem Grammar.Expression.constant {token : Token} {expr : Expr}
    (chosen : Expr.constant? token = some expr) :
    Expression .primary [token] expr ∧ expr.isVar = false := by
  unfold Expr.constant? at chosen
  split at chosen <;> cases chosen
  · exact ⟨.int ‹_›, rfl⟩
  · exact ⟨.bool ‹_›, rfl⟩
  · exact ⟨.string ‹_›, rfl⟩

/-- An operand is an expression of a rank, and a variable if it has the form of one and is not
enclosed in parentheses. -/
structure Operand.Fits (operand : Operand) (rank : Rank) (tokens : List Token) : Prop where
  isExpr : Expression rank tokens operand.expr
  isVariable : operand.grouped = false → operand.expr.isVar →
    Expression .variable tokens operand.expr

theorem Operand.Fits.covered {operand : Operand} {rank tighter : Rank} {tokens : List Token}
    (fits : operand.Fits tighter tokens) (covers : rank.Covers tighter) :
    operand.Fits rank tokens :=
  ⟨.covered covers fits.isExpr, fits.isVariable⟩

theorem Operand.Fits.ofExpr {expr : Expr} {rank : Rank} {tokens : List Token}
    (isExpr : Expression rank tokens expr) (notVar : expr.isVar = false) :
    (Operand.plain expr).Fits rank tokens :=
  ⟨isExpr, fun _ isVar => by rw [Operand.plain, notVar] at isVar; contradiction⟩

theorem Operand.Fits.ofVariable {expr : Expr} {tokens : List Token}
    (isVariable : Expression .variable tokens expr) :
    (Operand.plain expr).Fits .primary tokens :=
  ⟨.covered .primary isVariable, fun _ _ => isVariable⟩

theorem readType_sound {tokens : List Token} {reading : Reading Bantam.TypeName tokens}
    (read : readType tokens = .ok reading) :
    Grammar.TypeName reading.taken reading.value.type := by
  rw [readType] at read
  obtain ⟨name, readName, read⟩ := bind_eq_ok.mp read
  obtain ⟨token, taken, isName, text⟩ := readName_taken readName
  split at read
  · cases read
    rw [Reading.taken_give, taken, Reading.value_give, text]
    exact .named isName
  · next bracket found =>
    obtain ⟨opening, takenOpening, opens⟩ := readKind?_taken found
    obtain ⟨close, readClose, read⟩ := bind_eq_ok.mp read
    obtain ⟨closing, takenClosing, closes⟩ := readKind_taken readClose
    cases read
    rw [Reading.followedBy_assoc, Reading.taken_give, Reading.taken_followedBy,
      Reading.taken_followedBy, taken, takenOpening, takenClosing, Reading.value_give, text]
    exact .array isName opens closes

theorem assignment?_eq_some {target : Operand} {assign : Expr → Expr}
    (assigns : target.assignment? = some assign) : target.grouped = false ∧
      ∃ info qualifier name index, target.expr = .var info qualifier name index ∧
        ∀ value, ∃ whole, assign value = .assign whole qualifier name index value := by
  unfold Operand.assignment? at assigns
  split at assigns
  · cases assigns
    exact ⟨rfl, _, _, _, _, rfl, fun value => ⟨_, rfl⟩⟩
  · contradiction

mutual

theorem readExpr_sound {tokens : List Token} {reading : Reading Expr tokens}
    (read : readExpr tokens = .ok reading) :
    Expression .assignment reading.taken reading.value := by
  rw [readExpr] at read
  obtain ⟨left, readLeft, read⟩ := bind_eq_ok.mp read
  have target := readOperators_sound readLeft
  rcases found : readKind? .assign left.rest with _ | sign
  · rw [found] at read
    cases read
    exact .covered .assignment target.isExpr
  · simp only [found] at read
    obtain ⟨token, taken, assigns⟩ := readKind?_taken found
    split at read
    · contradiction
    · next assign isTarget =>
      obtain ⟨right, readRight, read⟩ := bind_eq_ok.mp read
      have source := readExpr_sound readRight
      obtain ⟨single, info, qualifier, name, index, isVar, result⟩ := assignment?_eq_some isTarget
      obtain ⟨whole, result⟩ := result right.value
      have isVariable := target.isVariable single (by rw [isVar]; rfl)
      cases read
      rw [Reading.taken_give, Reading.taken_followedBy, Reading.taken_followedBy, taken,
        Reading.value_give, result]
      exact .assign (isVar ▸ isVariable) assigns source
termination_by descent tokens 16
decreasing_by
  · simp [descent, Level.height]
  · have := left.shorter; have := sign.shorter; simp [descent]; omega

theorem readOperators_sound {level : Level} {tokens : List Token}
    {reading : Reading Operand tokens} (read : readOperators level tokens = .ok reading) :
    reading.value.Fits level.rank reading.taken := by
  rw [readOperators] at read
  obtain ⟨first, readFirst, read⟩ := bind_eq_ok.mp read
  have operand := readOperand_sound readFirst
  exact readMoreOperators_sound (operand.covered level.covers) read
termination_by descent tokens (2 * level.height + 3)
decreasing_by
  · simp [descent]
  · have := first.shorter; simp [descent]; omega

theorem readMoreOperators_sound {level : Level} {tokens : List Token}
    {left reading : Reading Operand tokens} (before : left.value.Fits level.rank left.taken)
    (read : readMoreOperators level left = .ok reading) :
    reading.value.Fits level.rank reading.taken := by
  rw [readMoreOperators] at read
  rcases found : readToken? (signed level.operator?) left.rest with _ | sign
  · simp only [found] at read
    rcases found : readToken? level.typeTest? left.rest with _ | word
    · simp only [found] at read
      cases read
      exact before
    · simp only [found] at read
      obtain ⟨token, taken, chosen⟩ := readToken?_taken found
      obtain ⟨isRelational, tests⟩ := relational_of_typeTest? chosen
      obtain ⟨type, readType, read⟩ := bind_eq_ok.mp read
      apply readMoreOperators_sound _ read
      rw [isRelational] at before ⊢
      rw [Reading.taken_give, Reading.taken_followedBy, Reading.taken_followedBy, taken]
      exact .ofExpr (.instanceOf before.isExpr tests (readType_sound readType)) rfl
  · simp only [found] at read
    obtain ⟨token, taken, chosen⟩ := readToken?_taken found
    obtain ⟨right, readRight, read⟩ := bind_eq_ok.mp read
    have operand := readOperand_sound readRight
    apply readMoreOperators_sound _ read
    rw [Reading.taken_give, Reading.taken_followedBy, Reading.taken_followedBy, taken]
    have joins := Level.joins_of_operator? (operator_of_signed chosen)
    exact .ofExpr (.binary joins before.isExpr operand.isExpr) rfl
termination_by descent left.rest (2 * level.height + 3)
decreasing_by
  · have := word.shorter; have := type.shorter
    simp [descent, Reading.followedBy, Reading.give]; omega
  · have := sign.shorter; simp [descent]; omega
  · have := sign.shorter; have := right.shorter
    simp [descent, Reading.followedBy, Reading.give]; omega

theorem readOperand_sound {level : Level} {tokens : List Token}
    {reading : Reading Operand tokens} (read : readOperand level tokens = .ok reading) :
    reading.value.Fits level.operandRank reading.taken := by
  rw [readOperand] at read
  rw [Level.operandRank]
  split at read
  · next tighter found =>
    rw [found]
    exact readOperators_sound read
  · next found =>
    rw [found]
    exact readUnary_sound read
termination_by descent tokens (2 * level.height + 2)
decreasing_by
  · rename_i found; have := Level.height_of_tighter? found; simp [descent]; omega
  · have := level.height_pos; simp [descent]; omega

theorem readUnary_sound {tokens : List Token} {reading : Reading Operand tokens}
    (read : readUnary tokens = .ok reading) : reading.value.Fits .unary reading.taken := by
  rw [readUnary] at read
  rcases found : readToken? (signed UnaryOp.before?) tokens with _ | sign
  · simp only [found] at read
    rcases found : readWord? "new" tokens with _ | word
    · simp only [found] at read
      rcases found : readWord? "cast" tokens with _ | word
      · simp only [found] at read
        obtain ⟨operand, readOperand, read⟩ := bind_eq_ok.mp read
        have primary := readPrimary_sound readOperand
        split at read
        · next sign found =>
          obtain ⟨token, taken, chosen⟩ := readToken?_taken found
          have behind := signBehind_of_behind? (operator_of_signed chosen)
          cases read
          rw [Reading.taken_give, Reading.taken_followedBy, taken]
          exact .ofExpr (.covered .unary (.step primary.isExpr behind)) rfl
        · cases read
          exact (primary.covered .stepped).covered .unary
      · simp only [found] at read
        obtain ⟨token, taken, casts⟩ := readWord?_taken found
        obtain ⟨paren, readParen, read⟩ := bind_eq_ok.mp read
        obtain ⟨opening, takenOpening, opens⟩ := readKind_taken readParen
        obtain ⟨type, readType, read⟩ := bind_eq_ok.mp read
        obtain ⟨comma, readComma, read⟩ := bind_eq_ok.mp read
        obtain ⟨separator, takenComma, separates⟩ := readKind_taken readComma
        obtain ⟨operand, readOperand, read⟩ := bind_eq_ok.mp read
        have inner := readExpr_sound readOperand
        obtain ⟨close, readClose, read⟩ := bind_eq_ok.mp read
        obtain ⟨closing, takenClosing, closes⟩ := readKind_taken readClose
        cases read
        simp only [Reading.taken_give, Reading.taken_followedBy, taken, takenOpening, takenComma,
          takenClosing]
        exact .ofExpr (.cast casts opens (readType_sound readType) separates inner closes) rfl
    · simp only [found] at read
      obtain ⟨token, taken, creates⟩ := readWord?_taken found
      obtain ⟨name, readName, read⟩ := bind_eq_ok.mp read
      obtain ⟨nameToken, takenName, isName, text⟩ := readName_taken readName
      rcases found : readKind? .leftParen name.rest with _ | paren
      · simp only [found] at read
        rcases found : readKind? .leftBracket name.rest with _ | bracket
        · simp only [found] at read
          contradiction
        · simp only [found] at read
          obtain ⟨opening, takenOpening, opens⟩ := readKind?_taken found
          obtain ⟨size, readSize, read⟩ := bind_eq_ok.mp read
          have inner := readExpr_sound readSize
          obtain ⟨close, readClose, read⟩ := bind_eq_ok.mp read
          obtain ⟨closing, takenClosing, closes⟩ := readKind_taken readClose
          cases read
          simp only [Reading.taken_give, Reading.taken_followedBy, taken, takenName, takenOpening,
            takenClosing, Reading.value_give, text]
          exact .ofExpr (.newArray creates isName opens inner closes) rfl
      · simp only [found] at read
        obtain ⟨opening, takenOpening, opens⟩ := readKind?_taken found
        obtain ⟨close, readClose, read⟩ := bind_eq_ok.mp read
        obtain ⟨closing, takenClosing, closes⟩ := readKind_taken readClose
        cases read
        simp only [Reading.taken_give, Reading.taken_followedBy, taken, takenName, takenOpening,
          takenClosing, Reading.value_give, text]
        exact .ofExpr (.new creates isName opens closes) rfl
  · simp only [found] at read
    obtain ⟨token, taken, chosen⟩ := readToken?_taken found
    obtain ⟨operand, readOperand, read⟩ := bind_eq_ok.mp read
    have inner := readUnary_sound readOperand
    have before := signBefore_of_before? (operator_of_signed chosen)
    cases read
    rw [Reading.taken_give, Reading.taken_followedBy, taken]
    exact .ofExpr (.unary before inner.isExpr) rfl
termination_by descent tokens 3
decreasing_by
  · simp [descent]
  · have := word.shorter; have := paren.shorter; have := type.shorter; have := comma.shorter
    simp [descent]; omega
  · have := word.shorter; have := name.shorter; have := bracket.shorter; simp [descent]; omega
  · have := sign.shorter; simp [descent]; omega

theorem readPrimary_sound {tokens : List Token} {reading : Reading Operand tokens}
    (read : readPrimary tokens = .ok reading) : reading.value.Fits .primary reading.taken := by
  rw [readPrimary] at read
  rcases found : readKind? .leftParen tokens with _ | paren
  · simp only [found] at read
    rcases found : readToken? Expr.constant? tokens with _ | constant
    · simp only [found] at read
      rcases found : readToken? Name.ofToken? tokens with _ | name
      · simp only [found] at read
        contradiction
      · simp only [found] at read
        obtain ⟨token, taken, chosen⟩ := readToken?_taken found
        obtain ⟨isName, text⟩ := name_of_ofToken? chosen
        obtain ⟨expr, readNamed, read⟩ := bind_eq_ok.mp read
        have unqualified : Qualifier ([] ++ []) none := .none
        exact readSelections_sound (readNamed_sound unqualified taken isName text readNamed) read
    · simp only [found] at read
      obtain ⟨token, taken, chosen⟩ := readToken?_taken found
      obtain ⟨isConstant, notVar⟩ := Expression.constant chosen
      apply readSelections_sound _ read
      rw [Reading.taken_give, taken]
      exact .ofExpr isConstant notVar
  · simp only [found] at read
    obtain ⟨opening, takenOpening, opens⟩ := readKind?_taken found
    obtain ⟨inner, readInner, read⟩ := bind_eq_ok.mp read
    have enclosed := readExpr_sound readInner
    obtain ⟨close, readClose, read⟩ := bind_eq_ok.mp read
    obtain ⟨closing, takenClosing, closes⟩ := readKind_taken readClose
    apply readSelections_sound _ read
    rw [Reading.taken_give, Reading.taken_followedBy, Reading.taken_followedBy, takenOpening,
      takenClosing]
    exact ⟨.group opens enclosed closes, fun single => by contradiction⟩
termination_by descent tokens 2
decreasing_by
  · have := name.shorter; simp [descent]; omega
  · have := expr.shorter; simp [descent, Reading.give]; omega
  · have := constant.shorter; simp [descent, Reading.give]; omega
  · have := paren.shorter; simp [descent]; omega
  · have := paren.shorter; have := inner.shorter; have := close.shorter
    simp [descent, Reading.followedBy, Reading.give]; omega

theorem readSelections_sound {tokens : List Token} {head reading : Reading Operand tokens}
    (before : head.value.Fits .primary head.taken) (read : readSelections head = .ok reading) :
    reading.value.Fits .primary reading.taken := by
  rw [readSelections] at read
  rcases found : readKind? .dot head.rest with _ | dot
  · simp only [found] at read
    cases read
    exact before
  · simp only [found] at read
    obtain ⟨token, taken, selects⟩ := readKind?_taken found
    obtain ⟨name, readName, read⟩ := bind_eq_ok.mp read
    obtain ⟨nameToken, takenName, isName, text⟩ := readName_taken readName
    obtain ⟨expr, readNamed, read⟩ := bind_eq_ok.mp read
    have takenBoth : (dot.followedBy name).taken = [token] ++ [nameToken] := by
      rw [Reading.taken_followedBy, taken, takenName]
    have named := readNamed_sound (.dotted before.isExpr selects) takenBoth isName text readNamed
    apply readSelections_sound _ read
    rw [Reading.taken_give, Reading.taken_followedBy]
    exact named
termination_by descent head.rest 1
decreasing_by
  · have := dot.shorter; have := name.shorter; simp [descent, Reading.followedBy]; omega
  · have := expr.shorter; simp [descent, Reading.followedBy, Reading.give]; omega

/-- A name is read together with what stands before it, of which the last tokens may be part of the
reading. -/
theorem readNamed_sound {qualifier : Option Expr} {front before tokens : List Token}
    {name : Reading Name tokens} {token : Token} {reading : Reading Expr tokens}
    (qualified : Qualifier (front ++ before) qualifier) (taken : name.taken = before ++ [token])
    (isName : token.isName) (text : name.value.text = token.spelling)
    (read : readNamed qualifier name = .ok reading) :
    (Operand.plain reading.value).Fits .primary (front ++ reading.taken) := by
  rw [readNamed] at read
  rcases found : readKind? .leftParen name.rest with _ | paren
  · simp only [found] at read
    rcases found : readKind? .leftBracket name.rest with _ | bracket
    · simp only [found] at read
      cases read
      rw [Reading.taken_give, Reading.value_give, taken, text, ← List.append_assoc]
      exact .ofVariable (.var qualified isName)
    · simp only [found] at read
      obtain ⟨opening, takenOpening, opens⟩ := readKind?_taken found
      obtain ⟨index, readIndex, read⟩ := bind_eq_ok.mp read
      have inner := readExpr_sound readIndex
      obtain ⟨close, readClose, read⟩ := bind_eq_ok.mp read
      obtain ⟨closing, takenClosing, closes⟩ := readKind_taken readClose
      cases read
      have taken : front ++ (name.followedBy (bracket.followedBy (index.followedBy close))).taken =
          (front ++ before) ++ token :: opening :: (index.taken ++ [closing]) := by
        simp [taken, takenOpening, takenClosing]
      rw [Reading.taken_give, taken, Reading.value_give, text]
      exact .ofVariable (.indexed qualified isName opens inner closes)
  · simp only [found] at read
    obtain ⟨opening, takenOpening, opens⟩ := readKind?_taken found
    obtain ⟨arguments, readArguments, read⟩ := bind_eq_ok.mp read
    obtain ⟨inside, closing, takenArguments, given, closes⟩ := readArguments_sound readArguments
    cases read
    have taken : front ++ (name.followedBy (paren.followedBy arguments)).taken =
        (front ++ before) ++ token :: opening :: (inside ++ [closing]) := by
      simp [taken, takenOpening, takenArguments]
    rw [Reading.taken_give, taken, Reading.value_give, text]
    exact .ofExpr (.call qualified isName opens given closes) rfl
termination_by descent name.rest 19
decreasing_by
  · have := bracket.shorter; simp [descent]; omega
  · have := paren.shorter; simp [descent]; omega

theorem readArguments_sound {tokens : List Token} {reading : Reading (List Expr × Span) tokens}
    (read : readArguments tokens = .ok reading) :
    ∃ inside closing, reading.taken = inside ++ [closing] ∧ Arguments inside reading.value.1 ∧
      closing.kind = .rightParen := by
  rw [readArguments] at read
  split at read
  · next close found =>
    obtain ⟨closing, taken, closes⟩ := readKind?_taken found
    cases read
    exact ⟨[], closing, taken, .none, closes⟩
  · obtain ⟨inside, closing, taken, given, closes, -⟩ := readMoreArguments_sound read
    exact ⟨inside, closing, taken, given, closes⟩
termination_by descent tokens 18
decreasing_by simp [descent]

theorem readMoreArguments_sound {tokens : List Token}
    {reading : Reading (List Expr × Span) tokens}
    (read : readMoreArguments tokens = .ok reading) :
    ∃ inside closing, reading.taken = inside ++ [closing] ∧ Arguments inside reading.value.1 ∧
      closing.kind = .rightParen ∧ reading.value.1 ≠ [] := by
  rw [readMoreArguments] at read
  obtain ⟨first, readFirst, read⟩ := bind_eq_ok.mp read
  have argument := readExpr_sound readFirst
  rcases found : readKind? .comma first.rest with _ | comma
  · simp only [found] at read
    obtain ⟨close, readClose, read⟩ := bind_eq_ok.mp read
    obtain ⟨closing, taken, closes⟩ := readKind_taken readClose
    cases read
    refine ⟨first.taken, closing, ?_, .one argument, closes, List.cons_ne_nil _ _⟩
    rw [Reading.taken_give, Reading.taken_followedBy, taken]
  · simp only [found] at read
    obtain ⟨token, taken, separates⟩ := readKind?_taken found
    obtain ⟨more, readMore, read⟩ := bind_eq_ok.mp read
    obtain ⟨inside, closing, takenMore, given, closes, some⟩ := readMoreArguments_sound readMore
    obtain ⟨next, others, values⟩ := List.exists_cons_of_ne_nil some
    cases read
    refine ⟨first.taken ++ token :: inside, closing, ?_, ?_, closes, List.cons_ne_nil _ _⟩
    · rw [Reading.taken_give, Reading.taken_followedBy, Reading.taken_followedBy, taken, takenMore]
      simp
    · rw [Reading.value_give, values]
      exact .more argument separates (values ▸ given)
termination_by descent tokens 17
decreasing_by
  · simp [descent]
  · have := first.shorter; have := comma.shorter; simp [descent]; omega

end

end Bantam
