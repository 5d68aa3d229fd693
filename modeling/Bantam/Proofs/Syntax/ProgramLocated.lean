import Bantam.Proofs.Syntax.ExpressionLocated
import Bantam.Proofs.Syntax.Reports

/-! Statements, members and classes are read with their places. Main statement: every node of a
program that is parsed starts with the first token that it was read from, and ends with the last
one, if no type test for an array type ends there; such a test, and every expression that ends with
it, ends with the name of the type. -/
namespace Bantam
open Grammar

namespace Grammar.Located

theorem spans_behind {word : Token} {whole middle back : List Token} {span : Span}
    (same : whole = word :: (middle ++ back)) (spans : Spans back span) (ordered : Ordered whole) :
    Spans whole (word.span.merge span) := by
  subst same
  exact (begins_cons word []).spans middle spans ordered

namespace Statement
variable {word opening closing : Token} {tokens body : List Token} {condition : Expr} {stmt : Stmt}

theorem block {stmts : List Stmt} (opens : opening.kind = .leftBrace)
    (inner : Statements tokens stmts) (closes : closing.kind = .rightBrace)
    (ordered : Ordered (opening :: (tokens ++ [closing]))) :
    Statement (opening :: (tokens ++ [closing])) (.block (opening.span.merge closing.span) stmts) :=
  .mk (spans_behind rfl (spans_single closing) ordered) (.block opens inner closes)

theorem decl {left right : List Token} {name sign : Token} {span : Span} {type : Ty} {init : Expr}
    (begins : Begins left span) (typed : TypeName left type) (isName : name.isName)
    (assigns : sign.kind = .assign) (inner : Whole right init) (closes : closing.kind = .semicolon)
    (ordered : Ordered (left ++ name :: sign :: (right ++ [closing]))) :
    Statement (left ++ name :: sign :: (right ++ [closing]))
      (.decl (span.merge closing.span) type name.spelling init) := by
  obtain ⟨ends, inner⟩ := inner
  have spans : Spans (left ++ (name :: sign :: right ++ [closing])) _ :=
    begins.spans _ (spans_single closing) ordered
  exact .mk spans (.decl typed isName assigns inner closes)

theorem branch (tests : word.isWord "if") (opens : opening.kind = .leftParen)
    (test : Whole tokens condition) (closes : closing.kind = .rightParen)
    (first : Statement body stmt)
    (ordered : Ordered (word :: opening :: (tokens ++ closing :: body))) :
    Statement (word :: opening :: (tokens ++ closing :: body))
      (.branch (word.span.merge stmt.span) condition stmt none) := by
  obtain ⟨ends, test⟩ := test
  obtain ⟨spans, form⟩ := first
  have same : word :: opening :: (tokens ++ closing :: body) =
      word :: ((opening :: (tokens ++ [closing])) ++ body) := by simp
  exact .mk (spans_behind same spans ordered) (.branch tests opens test closes (.mk spans form))

theorem branchElse {other : Token} {alternative : List Token} {elseBranch : Stmt}
    (tests : word.isWord "if") (opens : opening.kind = .leftParen) (test : Whole tokens condition)
    (closes : closing.kind = .rightParen) (first : Statement body stmt)
    (otherwise : other.isWord "else") (second : Statement alternative elseBranch)
    (ordered : Ordered (word :: opening :: (tokens ++ closing :: (body ++ other :: alternative)))) :
    Statement (word :: opening :: (tokens ++ closing :: (body ++ other :: alternative)))
      (.branch ((word.span.merge stmt.span).merge elseBranch.span) condition stmt
        (some elseBranch)) := by
  have same : word :: opening :: (tokens ++ closing :: (body ++ other :: alternative)) =
      (word :: opening :: (tokens ++ closing :: body)) ++ ([other] ++ alternative) := by simp
  refine .mk ?_ ?_
  · rw [same] at ordered ⊢
    obtain ⟨spans, -⟩ :=
      branch tests opens test closes first (ordered.sublist (List.sublist_append_left ..))
    obtain ⟨spansElse, -⟩ := second
    exact spans.begins.spans [other] spansElse ordered
  · obtain ⟨ends, test⟩ := test
    exact .branchElse tests opens test closes first otherwise second

theorem whileLoop (loops : word.isWord "while") (opens : opening.kind = .leftParen)
    (test : Whole tokens condition) (closes : closing.kind = .rightParen)
    (inner : Statement body stmt)
    (ordered : Ordered (word :: opening :: (tokens ++ closing :: body))) :
    Statement (word :: opening :: (tokens ++ closing :: body))
      (.whileLoop (word.span.merge stmt.span) condition stmt) := by
  obtain ⟨ends, test⟩ := test
  obtain ⟨spans, form⟩ := inner
  have same : word :: opening :: (tokens ++ closing :: body) =
      word :: ((opening :: (tokens ++ [closing])) ++ body) := by simp
  exact .mk (spans_behind same spans ordered) (.whileLoop loops opens test closes (.mk spans form))

theorem forLoop {first second : Token} {start step : List Token} {init test update : Option Expr}
    (loops : word.isWord "for") (opens : opening.kind = .leftParen) (before : Clause start init)
    (stops : first.kind = .semicolon) (tests : Clause tokens test)
    (stopsAgain : second.kind = .semicolon) (after : Clause step update)
    (closes : closing.kind = .rightParen) (inner : Statement body stmt)
    (ordered : Ordered (word :: opening ::
      (start ++ first :: (tokens ++ second :: (step ++ closing :: body))))) :
    Statement (word :: opening ::
        (start ++ first :: (tokens ++ second :: (step ++ closing :: body))))
      (.forLoop (word.span.merge stmt.span) init test update stmt) := by
  obtain ⟨spans, form⟩ := inner
  have same : word :: opening ::
        (start ++ first :: (tokens ++ second :: (step ++ closing :: body))) =
      word :: (opening ::
        (start ++ first :: (tokens ++ second :: (step ++ [closing]))) ++ body) := by simp
  exact .mk (spans_behind same spans ordered)
    (.forLoop loops opens before stops tests stopsAgain after closes (.mk spans form))

theorem giveBack {value : Option Expr} (returns : word.isWord "return")
    (given : Clause tokens value) (closes : closing.kind = .semicolon)
    (ordered : Ordered (word :: (tokens ++ [closing]))) :
    Statement (word :: (tokens ++ [closing])) (.giveBack (word.span.merge closing.span) value) :=
  .mk (spans_behind rfl (spans_single closing) ordered) (.giveBack returns given closes)

theorem leave (breaks : word.isWord "break") (closes : closing.kind = .semicolon)
    (ordered : Ordered [word, closing]) :
    Statement [word, closing] (.leave (word.span.merge closing.span)) := by
  have same : [word, closing] = word :: ([] ++ [closing]) := rfl
  exact .mk (spans_behind same (spans_single closing) ordered) (.leave breaks closes)

theorem effect {value : Expr} (inner : Whole tokens value) (closes : closing.kind = .semicolon)
    (ordered : Ordered (tokens ++ [closing])) :
    Statement (tokens ++ [closing]) (.expr (value.span.merge closing.span) value) := by
  have spans : Spans (tokens ++ ([] ++ [closing])) _ :=
    inner.begins.spans [] (spans_single closing) ordered
  obtain ⟨ends, inner⟩ := inner
  exact .mk spans (.effect inner closes)

end Statement

end Grammar.Located

section Parts
variable {base tokens : List Token}

theorem readClause_meets (ordered : Ordered base) (closing : Kind) (inside : tokens <:+ base) :
    Meets base (fun taken clause => ∃ within stop, taken = within ++ [stop] ∧
      Located.Clause within clause.1 ∧ stop.kind = closing ∧ stop.span = clause.2)
      (readClause closing tokens) := by
  rw [readClause]
  rcases found : readKind? closing tokens with _ | close
  · refine (readExpr_meets ordered inside).bind ?_
    rintro expr ⟨ends, inner⟩
    refine (readKind_meets (expr.inside inside)).bind ?_
    rintro close ⟨stop, taken, stops, span⟩
    refine ⟨expr.taken, stop, ?_, .present inner, stops, span⟩
    rw [Reading.taken_give, Reading.taken_followedBy, taken]
  · obtain ⟨stop, taken, stops, span⟩ := readKind?_span found
    exact ⟨[], stop, taken, .missing, stops, span⟩

theorem readCondition_meets (ordered : Ordered base) (inside : tokens <:+ base) :
    Meets base (fun taken condition => ∃ opening within closing,
      taken = opening :: (within ++ [closing]) ∧ opening.kind = .leftParen ∧
      Located.Whole within condition ∧ closing.kind = .rightParen) (readCondition tokens) := by
  refine (readKind_meets inside).bind ?_
  rintro paren ⟨opening, takenOpening, opens, -⟩
  have behind := paren.inside inside
  refine (readExpr_meets ordered behind).bind fun condition test => ?_
  refine (readKind_meets (condition.inside behind)).bind ?_
  rintro close ⟨closing, takenClosing, closes, -⟩
  refine ⟨opening, condition.taken, closing, ?_, opens, test, closes⟩
  simp [takenOpening, takenClosing]

theorem readLoopHead_meets (ordered : Ordered base) (inside : tokens <:+ base) :
    Meets base (fun taken head => ∃ opening start first within second step closing,
      taken = opening :: (start ++ first :: (within ++ second :: (step ++ [closing]))) ∧
      opening.kind = .leftParen ∧ Located.Clause start head.init ∧ first.kind = .semicolon ∧
      Located.Clause within head.condition ∧ second.kind = .semicolon ∧
      Located.Clause step head.update ∧ closing.kind = .rightParen) (readLoopHead tokens) := by
  refine (readKind_meets inside).bind ?_
  rintro paren ⟨opening, takenOpening, opens, -⟩
  have behind := paren.inside inside
  refine (readClause_meets ordered .semicolon behind).bind ?_
  rintro init ⟨start, first, takenInit, before, stops, -⟩
  have behind := init.inside behind
  refine (readClause_meets ordered .semicolon behind).bind ?_
  rintro condition ⟨within, second, takenCondition, test, stopsAgain, -⟩
  refine (readClause_meets ordered .rightParen (condition.inside behind)).bind ?_
  rintro update ⟨step, closing, takenUpdate, after, closes, -⟩
  refine ⟨opening, start, first, within, second, step, closing, ?_, opens, before, stops, test,
    stopsAgain, after, closes⟩
  simp [takenOpening, takenInit, takenCondition, takenUpdate]

theorem readDeclaration_meets (ordered : Ordered base) (inside : tokens <:+ base) :
    Meets base Located.Statement (readDeclaration tokens) := by
  refine (readType_meets inside).bind fun type typed => ?_
  have behind := type.inside inside
  refine (readName_meets behind).bind ?_
  rintro name ⟨nameToken, takenName, isName, value⟩
  have behind := name.inside behind
  refine (readKind_meets behind).bind ?_
  rintro sign ⟨signToken, takenSign, assigns, -⟩
  have behind := sign.inside behind
  refine (readExpr_meets ordered behind).bind fun init inner => ?_
  refine (readKind_meets (init.inside behind)).bind ?_
  rintro close ⟨closing, takenClosing, closes, span⟩
  refine .done ordered inside fun sorted => ?_
  simp only [Reading.taken_give, Reading.taken_followedBy, takenName, takenSign, takenClosing,
    Reading.value_give, value, ← span] at sorted ⊢
  exact .decl typed.begins typed.typeName isName assigns inner closes sorted

theorem readEffect_meets (ordered : Ordered base) (inside : tokens <:+ base) :
    Meets base Located.Statement (readEffect tokens) := by
  refine (readExpr_meets ordered inside).bind fun expr inner => ?_
  refine (readKind_meets (expr.inside inside)).bind ?_
  rintro close ⟨closing, takenClosing, closes, span⟩
  refine .done ordered inside fun sorted => ?_
  simp only [Reading.taken_give, Reading.taken_followedBy, takenClosing, Reading.value_give, ← span]
    at sorted ⊢
  exact .effect inner closes sorted

theorem Opening.span_of_ofToken? {token : Token} {opening : Opening × Span}
    (chosen : Opening.ofToken? token = some opening) : token.span = opening.2 := by
  unfold Opening.ofToken? at chosen
  split at chosen
  · cases chosen
    rfl
  · obtain ⟨form, -, rfl⟩ := Option.map_eq_some_iff.mp chosen
    rfl
  · contradiction

end Parts

/-- Statements of a block are read with the closing brace, whose span they carry. -/
def StatementsStand (taken : List Token) (stmts : List Stmt × Span) : Prop :=
  ∃ within closing, taken = within ++ [closing] ∧ Located.Statements within stmts.1 ∧
    closing.kind = .rightBrace ∧ closing.span = stmts.2

section Statements
variable {base : List Token}

mutual

theorem readStatement_meets (ordered : Ordered base) {tokens : List Token}
    (inside : tokens <:+ base) : Meets base Located.Statement (readStatement tokens) := by
  rw [readStatement]
  rcases found : readToken? Opening.ofToken? tokens with _ | opening
  · dsimp only
    split
    · exact readDeclaration_meets ordered inside
    · exact readEffect_meets ordered inside
  · obtain ⟨token, takenOpening, chosen⟩ := readToken?_taken found
    have begins := Opening.begins_of_ofToken? chosen
    have span := Opening.span_of_ofToken? chosen
    have behind := opening.inside inside
    dsimp only
    cases form : opening.value.1 with
    | block =>
      rw [form] at begins
      refine (readStatements_meets ordered behind).bind ?_
      rintro body ⟨within, closing, takenBody, stmts, closes, spanClosing⟩
      refine .done ordered inside fun sorted => ?_
      simp only [Reading.taken_give, Reading.taken_followedBy, takenOpening, takenBody,
        Reading.value_give, ← span, ← spanClosing] at sorted ⊢
      exact .block begins stmts closes sorted
    | branch =>
      rw [form] at begins
      refine (readCondition_meets ordered behind).bind ?_
      rintro condition ⟨first, within, last, takenCondition, opens, test, closes⟩
      have behind := condition.inside behind
      refine (readStatement_meets ordered behind).bind fun thenBranch placed => ?_
      rcases found : readWord? "else" thenBranch.rest with _ | word
      · refine .done ordered inside fun sorted => ?_
        simp only [Reading.taken_give, Reading.taken_followedBy, takenOpening, takenCondition,
          List.cons_append, List.nil_append, List.append_assoc, Reading.value_give, ← span]
          at sorted ⊢
        exact .branch begins opens test closes placed sorted
      · obtain ⟨other, takenWord, otherwise, -⟩ := readWord?_span found
        have behind := word.inside (thenBranch.inside behind)
        refine (readStatement_meets ordered behind).bind fun elseBranch placedElse => ?_
        refine .done ordered inside fun sorted => ?_
        change Ordered (opening.followedBy (condition.followedBy (thenBranch.followedBy
          (word.followedBy elseBranch)))).taken at sorted
        change Located.Statement (opening.followedBy (condition.followedBy (thenBranch.followedBy
          (word.followedBy elseBranch)))).taken _
        simp only [Reading.taken_followedBy, takenOpening, takenCondition, takenWord,
          List.cons_append, List.nil_append, List.append_assoc, Reading.value_give, ← span]
          at sorted ⊢
        exact .branchElse begins opens test closes placed otherwise placedElse sorted
    | whileLoop =>
      rw [form] at begins
      refine (readCondition_meets ordered behind).bind ?_
      rintro condition ⟨first, within, last, takenCondition, opens, test, closes⟩
      refine (readStatement_meets ordered (condition.inside behind)).bind fun body placed => ?_
      refine .done ordered inside fun sorted => ?_
      simp only [Reading.taken_give, Reading.taken_followedBy, takenOpening, takenCondition,
        List.cons_append, List.nil_append, List.append_assoc, Reading.value_give, ← span]
        at sorted ⊢
      exact .whileLoop begins opens test closes placed sorted
    | forLoop =>
      rw [form] at begins
      refine (readLoopHead_meets ordered behind).bind ?_
      rintro head ⟨paren, start, first, within, second, step, last, takenHead, opens, before, stops,
        test, stopsAgain, after, closes⟩
      refine (readStatement_meets ordered (head.inside behind)).bind fun body placed => ?_
      refine .done ordered inside fun sorted => ?_
      simp only [Reading.taken_give, Reading.taken_followedBy, takenOpening, takenHead,
        List.cons_append, List.nil_append, List.append_assoc, Reading.value_give, ← span]
        at sorted ⊢
      exact .forLoop begins opens before stops test stopsAgain after closes placed sorted
    | giveBack =>
      rw [form] at begins
      refine (readClause_meets ordered .semicolon behind).bind ?_
      rintro value ⟨within, closing, takenValue, given, closes, spanClosing⟩
      refine .done ordered inside fun sorted => ?_
      simp only [Reading.taken_give, Reading.taken_followedBy, takenOpening, takenValue,
        Reading.value_give, ← span, ← spanClosing] at sorted ⊢
      exact .giveBack begins given closes sorted
    | leave =>
      rw [form] at begins
      refine (readKind_meets behind).bind ?_
      rintro close ⟨closing, takenClosing, closes, spanClosing⟩
      refine .done ordered inside fun sorted => ?_
      simp only [Reading.taken_give, Reading.taken_followedBy, takenOpening, takenClosing,
        Reading.value_give, ← span, ← spanClosing] at sorted ⊢
      exact .leave begins closes sorted
termination_by 2 * tokens.length
decreasing_by
  · have := opening.shorter; omega
  · have := opening.shorter; have := condition.shorter; omega
  · have := opening.shorter; have := condition.shorter; have := thenBranch.shorter
    have := word.shorter; omega
  · have := opening.shorter; have := condition.shorter; omega
  · have := opening.shorter; have := head.shorter; omega

theorem readStatements_meets (ordered : Ordered base) {tokens : List Token}
    (inside : tokens <:+ base) : Meets base StatementsStand (readStatements tokens) := by
  rw [readStatements]
  rcases found : readKind? .rightBrace tokens with _ | close
  · dsimp only
    split
    · exact Meets.expected inside (by simp)
    · refine (readStatement_meets ordered inside).bind fun first placed => ?_
      refine (readStatements_meets ordered (first.inside inside)).bind ?_
      rintro more ⟨within, closing, takenMore, others, closes, span⟩
      refine ⟨first.taken ++ within, closing, ?_, .cons placed others, closes, span⟩
      rw [Reading.taken_give, Reading.taken_followedBy, takenMore, List.append_assoc]
  · obtain ⟨closing, taken, closes, span⟩ := readKind?_span found
    exact ⟨[], closing, taken, .nil, closes, span⟩
termination_by 2 * tokens.length + 1
decreasing_by
  · omega
  · have := first.shorter; omega

end

end Statements

section Members
variable {base tokens : List Token}

theorem readFormal_meets (inside : tokens <:+ base) (ordered : Ordered base) :
    Meets base Located.Formal (readFormal tokens) := by
  refine (readType_meets inside).bind fun type typed => ?_
  refine (readName_meets (type.inside inside)).bind ?_
  rintro name ⟨token, taken, isName, value⟩
  refine .done ordered inside fun sorted => ?_
  simp only [Reading.taken_give, Reading.taken_followedBy, taken, Reading.value_give, value]
    at sorted ⊢
  exact .mk (typed.begins.spans [] (spans_single token) sorted) typed.typeName isName

theorem readMoreFormals_meets (ordered : Ordered base) {tokens : List Token}
    (inside : tokens <:+ base) :
    Meets base (fun taken formals => ∃ within closing, taken = within ++ [closing] ∧
      Located.Formals within formals ∧ closing.kind = .rightParen ∧ formals ≠ [])
      (readMoreFormals tokens) := by
  rw [readMoreFormals]
  refine (readFormal_meets inside ordered).bind fun first formal => ?_
  have behind := first.inside inside
  rcases found : readKind? .comma first.rest with _ | comma
  · refine (readKind_meets behind).bind ?_
    rintro close ⟨closing, taken, closes, -⟩
    refine ⟨first.taken, closing, ?_, .one formal, closes, List.cons_ne_nil _ _⟩
    rw [Reading.taken_give, Reading.taken_followedBy, taken]
  · obtain ⟨token, taken, separates, -⟩ := readKind?_span found
    refine (readMoreFormals_meets ordered (comma.inside behind)).bind ?_
    rintro more ⟨within, closing, takenMore, others, closes, some⟩
    obtain ⟨next, formals, values⟩ := List.exists_cons_of_ne_nil some
    refine ⟨first.taken ++ token :: within, closing, ?_, ?_, closes, List.cons_ne_nil _ _⟩
    · rw [Reading.taken_give, Reading.taken_followedBy, Reading.taken_followedBy, taken, takenMore]
      simp
    · rw [Reading.value_give, values]
      exact .more formal separates (values ▸ others)
termination_by tokens.length
decreasing_by have := first.shorter; have := comma.shorter; omega

theorem readFormals_meets (ordered : Ordered base) (inside : tokens <:+ base) :
    Meets base (fun taken formals => ∃ within closing, taken = within ++ [closing] ∧
      Located.Formals within formals ∧ closing.kind = .rightParen) (readFormals tokens) := by
  rw [readFormals]
  rcases found : readKind? .rightParen tokens with _ | close
  · refine (readMoreFormals_meets ordered inside).imp ?_
    rintro taken formals ⟨within, closing, same, placed, closes, -⟩
    exact ⟨within, closing, same, placed, closes⟩
  · obtain ⟨closing, taken, closes, -⟩ := readKind?_span found
    exact ⟨[], closing, taken, .none, closes⟩

theorem readBlock_meets (ordered : Ordered base) (inside : tokens <:+ base) :
    Meets base (fun taken body => Spans taken body.2 ∧ ∃ first within last,
      taken = first :: (within ++ [last]) ∧ first.kind = .leftBrace ∧
      Located.Statements within body.1 ∧ last.kind = .rightBrace) (readBlock tokens) := by
  refine (readKind_meets inside).bind ?_
  rintro brace ⟨first, takenBrace, begins, span⟩
  refine (readStatements_meets ordered (brace.inside inside)).bind ?_
  rintro body ⟨within, last, takenBody, stmts, ends, spanLast⟩
  have taken : (brace.followedBy body).taken = first :: (within ++ [last]) := by
    simp [takenBrace, takenBody]
  refine .done ordered inside fun sorted => ⟨?_, first, within, last, taken, begins, stmts, ends⟩
  rw [Reading.taken_give, taken] at sorted ⊢
  rw [Reading.value_give, ← span, ← spanLast]
  exact Located.spans_behind rfl (spans_single last) sorted

section Declared
variable {left : List Token} {name opening : Token} {start : Span} {type : Ty}

/-- A field is read behind its type and its name. -/
theorem readField_meets (ordered : Ordered base) (inside : tokens <:+ base)
    (begins : Begins left start) (typed : Grammar.TypeName left type) (isName : name.isName) :
    Meets base (fun taken field => Ordered (left ++ name :: taken) →
      Located.Member (left ++ name :: taken) (.field field))
      (readField start type name.spelling tokens) := by
  rw [readField]
  rcases found : readKind? .assign tokens with _ | sign
  · refine (readKind_meets inside).bind ?_
    rintro close ⟨closing, taken, closes, span⟩ sorted
    rw [Reading.taken_give, taken] at sorted ⊢
    rw [Reading.value_give, ← span]
    exact ⟨begins.spans [name] (spans_single closing) sorted, .field typed isName closes⟩
  · obtain ⟨signToken, takenSign, assigns, -⟩ := readKind?_span found
    have behind := sign.inside inside
    refine (readExpr_meets ordered behind).bind ?_
    rintro init ⟨ends, inner⟩
    refine (readKind_meets (init.inside behind)).bind ?_
    rintro close ⟨closing, taken, closes, span⟩ sorted
    have whole : (sign.followedBy (init.followedBy close)).taken =
        signToken :: (init.taken ++ [closing]) := by simp [takenSign, taken]
    rw [Reading.taken_give, whole] at sorted ⊢
    rw [Reading.value_give, ← span]
    exact ⟨begins.spans (name :: signToken :: init.taken) (spans_single closing) sorted,
      .initialized typed isName assigns inner closes⟩

/-- A method is read behind its type, its name and a parenthesis. -/
theorem readMethod_meets (ordered : Ordered base) (inside : tokens <:+ base)
    (begins : Begins left start) (typed : Grammar.TypeName left type) (isName : name.isName)
    (opens : opening.kind = .leftParen) :
    Meets base (fun taken method => Ordered (left ++ name :: opening :: taken) →
      Located.Member (left ++ name :: opening :: taken) (.method method))
      (readMethod start type name.spelling tokens) := by
  rw [readMethod]
  refine (readFormals_meets ordered inside).bind ?_
  rintro formals ⟨within, closing, takenFormals, given, closes⟩
  refine (readBlock_meets ordered (formals.inside inside)).bind ?_
  rintro body ⟨spans, first, stmts, last, takenBody, starts, placed, ends⟩ sorted
  rw [takenBody] at spans
  have whole : (formals.followedBy body).taken =
      within ++ closing :: first :: (stmts ++ [last]) := by simp [takenFormals, takenBody]
  rw [Reading.taken_give, whole] at sorted ⊢
  refine ⟨?_, .method typed isName opens given closes starts placed ends⟩
  have same : left ++ name :: opening :: (within ++ closing :: first :: (stmts ++ [last])) =
      left ++ ((name :: opening :: (within ++ [closing])) ++ first :: (stmts ++ [last])) := by simp
  rw [same] at sorted ⊢
  exact begins.spans _ spans sorted

end Declared

theorem readMember_meets (ordered : Ordered base) (inside : tokens <:+ base) :
    Meets base Located.Member (readMember tokens) := by
  refine (readType_meets inside).bind fun type typed => ?_
  have behind := type.inside inside
  refine (readName_meets behind).bind ?_
  rintro name ⟨nameToken, takenName, isName, value⟩
  have behind := name.inside behind
  have text : name.value.text = nameToken.spelling := congrArg Name.text value
  dsimp only
  rw [text]
  rcases found : readKind? .leftParen name.rest with _ | paren
  · refine (readField_meets ordered behind typed.begins typed.typeName isName).bind ?_
    intro field placed
    refine .done ordered inside fun sorted => ?_
    rw [Reading.followedBy_assoc, Reading.taken_give, Reading.taken_followedBy,
      Reading.taken_followedBy, takenName] at sorted ⊢
    exact placed sorted
  · obtain ⟨opening, takenParen, opens, -⟩ := readKind?_span found
    refine (readMethod_meets ordered (paren.inside behind) typed.begins typed.typeName isName
      opens).bind ?_
    intro method placed
    refine .done ordered inside fun sorted => ?_
    rw [Reading.followedBy_assoc] at sorted ⊢
    simp only [Reading.taken_give, Reading.taken_followedBy, takenName, takenParen] at sorted ⊢
    exact placed sorted

theorem readMembers_meets (ordered : Ordered base) {tokens : List Token}
    (inside : tokens <:+ base) :
    Meets base (fun taken members => ∃ within closing, taken = within ++ [closing] ∧
      Located.Members within members.1 ∧ closing.kind = .rightBrace ∧ closing.span = members.2)
      (readMembers tokens) := by
  rw [readMembers]
  rcases found : readKind? .rightBrace tokens with _ | close
  · dsimp only
    split
    · exact Meets.expected inside (by simp)
    · refine (readMember_meets ordered inside).bind fun first placed => ?_
      refine (readMembers_meets ordered (first.inside inside)).bind ?_
      rintro more ⟨within, closing, takenMore, others, closes, span⟩
      refine ⟨first.taken ++ within, closing, ?_, .cons placed others, closes, span⟩
      rw [Reading.taken_give, Reading.taken_followedBy, takenMore, List.append_assoc]
  · obtain ⟨closing, taken, closes, span⟩ := readKind?_span found
    exact ⟨[], closing, taken, .nil, closes, span⟩
termination_by tokens.length
decreasing_by exact first.shorter

theorem readClassHead_meets (inside : tokens <:+ base) :
    Meets base (fun taken head => ∃ name front, taken = name :: front ∧ name.isName ∧
      Parent front head.2 ∧ head.1 = name.spelling) (readClassHead tokens) := by
  refine (readName_meets inside).bind ?_
  rintro name ⟨token, taken, isName, value⟩
  have text : name.value.text = token.spelling := congrArg Name.text value
  rcases found : readWord? "extends" name.rest with _ | word
  · exact ⟨token, [], taken, isName, .none, text⟩
  · obtain ⟨keyword, takenWord, inherits, -⟩ := readWord?_span found
    refine (readName_meets (word.inside (name.inside inside))).bind ?_
    rintro parent ⟨parentToken, takenParent, isParent, parentValue⟩
    refine ⟨token, [keyword, parentToken], ?_, isName, ?_, text⟩
    · simp [taken, takenWord, takenParent]
    · rw [Reading.value_give, parentValue]
      exact .named inherits isParent

theorem readClassWord_meets (inside : tokens <:+ base) :
    Meets base (fun taken span => ∃ token, taken = [token] ∧ token.isWord "class" ∧
      token.span = span) (readWord "class" tokens) := by
  cases read : readWord "class" tokens with
  | ok reading =>
    obtain ⟨token, taken, chosen⟩ := readToken_taken read
    exact ⟨token, taken, isWord_of_spanOfWord chosen, span_of_spanOfWord chosen⟩
  | error failure =>
    rw [readWord, readToken] at read
    split at read
    · contradiction
    · cases read
      exact Blames.expected inside fun word same => (Expectation.word.inj same).symm

theorem readClass_meets (ordered : Ordered base) (file : String) (inside : tokens <:+ base) :
    Meets base (Located.Class file) (readClass file tokens) := by
  refine (readClassWord_meets inside).bind ?_
  rintro word ⟨keyword, takenWord, declares, span⟩
  have behind := word.inside inside
  refine (readClassHead_meets behind).bind ?_
  rintro head ⟨name, front, takenHead, isName, inherits, text⟩
  have behind := head.inside behind
  refine (readKind_meets behind).bind ?_
  rintro brace ⟨opening, takenBrace, opens, -⟩
  refine (readMembers_meets ordered (brace.inside behind)).bind ?_
  rintro body ⟨within, closing, takenBody, placed, closes, spanClosing⟩
  refine .done ordered inside fun sorted => ?_
  simp only [Reading.taken_give, Reading.taken_followedBy, takenWord, takenHead, takenBrace,
    takenBody, Reading.value_give, text, List.cons_append, List.nil_append, ← span, ← spanClosing]
    at sorted ⊢
  have same : keyword :: name :: (front ++ opening :: (within ++ [closing])) =
      keyword :: ((name :: (front ++ opening :: within)) ++ [closing]) := by simp
  exact .mk (Located.spans_behind same (spans_single closing) sorted) declares isName inherits opens
    placed closes

theorem readClasses_meets (ordered : Ordered base) (file : String) {tokens : List Token}
    (inside : tokens <:+ base) :
    match readClasses file tokens with
    | .ok classes => Located.Classes file tokens classes
    | .error failure => Blames base failure := by
  rw [readClasses]
  by_cases noneLeft : tokens.isEmpty
  · rw [if_pos noneLeft, List.isEmpty_iff.mp noneLeft]
    exact .nil
  · rw [if_neg noneLeft]
    have placed := readClass_meets ordered file inside
    cases read : readClass file tokens with
    | error failure =>
      rw [read] at placed
      exact placed
    | ok first =>
      rw [read] at placed
      have others := readClasses_meets ordered file (first.inside inside)
      cases readOthers : readClasses file first.rest with
      | error failure =>
        rw [readOthers] at others
        simpa [bind, Except.bind, readOthers] using others
      | ok classes =>
        rw [readOthers] at others
        have whole := Located.Classes.cons placed others
        rw [first.taken_append_rest] at whole
        simpa [bind, Except.bind, pure, Except.pure, readOthers] using whole
termination_by tokens.length
decreasing_by exact first.shorter

end Members

/-- Every class, member, formal and statement of a program that is parsed stands from the first of
its tokens to the last, with the parentheses of an expression among them. So does every expression,
save a type test for an array type and what ends with it: these end with the name of that type,
before its brackets. -/
theorem parse_located {file source : String} {program : Program}
    (read : (parse file source).1 = .ok program) :
    Located.Classes file (meaningful source) program.classes := by
  have placed := readClasses_meets (ordered_meaningful source) file List.suffix_rfl
  rw [parse_eq_ok_iff.mp read] at placed
  exact placed

theorem parse_located_parentheses :
    (parse "A.btm" "class A \x7b int n = (1); \x7d").1 = .ok ⟨[⟨"A", none,
      [.field ⟨.named "int", "n", some (.int { span := ⟨18, 21, 1⟩ } 1), ⟨10, 22, 1⟩⟩], "A.btm",
      ⟨0, 24, 1⟩⟩]⟩ ∧
    Located.Classes "A.btm" (meaningful "class A \x7b int n = (1); \x7d") [⟨"A", none,
      [.field ⟨.named "int", "n", some (.int { span := ⟨18, 21, 1⟩ } 1), ⟨10, 22, 1⟩⟩], "A.btm",
      ⟨0, 24, 1⟩⟩] := by
  have tokens : meaningful "class A \x7b int n = (1); \x7d" =
      [⟨.identifier, "class", ⟨0, 5, 1⟩⟩, ⟨.identifier, "A", ⟨6, 7, 1⟩⟩,
        ⟨.leftBrace, "\x7b", ⟨8, 9, 1⟩⟩, ⟨.identifier, "int", ⟨10, 13, 1⟩⟩,
        ⟨.identifier, "n", ⟨14, 15, 1⟩⟩, ⟨.assign, "=", ⟨16, 17, 1⟩⟩,
        ⟨.leftParen, "(", ⟨18, 19, 1⟩⟩, ⟨.integer, "1", ⟨19, 20, 1⟩⟩,
        ⟨.rightParen, ")", ⟨20, 21, 1⟩⟩, ⟨.semicolon, ";", ⟨21, 22, 1⟩⟩,
        ⟨.rightBrace, "\x7d", ⟨23, 24, 1⟩⟩] := by
    rw [meaningful, scan_eq 25 (by decide)]
    rfl
  refine ⟨?read, parse_located ?read⟩
  rw [parse_eq_ok_iff, tokens]
  cbv

/-- The type test in `boolean b = a instanceof A[];`, and what is read from it. -/
def arrayTest : List Token :=
  [⟨.identifier, "a", ⟨22, 23, 1⟩⟩, ⟨.identifier, "instanceof", ⟨24, 34, 1⟩⟩,
    ⟨.identifier, "A", ⟨35, 36, 1⟩⟩, ⟨.leftBracket, "[", ⟨36, 37, 1⟩⟩,
    ⟨.rightBracket, "]", ⟨37, 38, 1⟩⟩]

def arrayTestExpr : Expr :=
  .instanceOf { span := ⟨22, 36, 1⟩ } (.var { span := ⟨22, 23, 1⟩ } none "a" none)
    (.array (.named "A"))

/-- A type test for an array type does not end with the last token that it is read from. -/
theorem array_test_ends_early :
    (parse "A.btm" "class A \x7b boolean b = a instanceof A[]; \x7d").1 = .ok ⟨[⟨"A", none,
      [.field ⟨.named "boolean", "b", some arrayTestExpr, ⟨10, 39, 1⟩⟩], "A.btm", ⟨0, 41, 1⟩⟩]⟩ ∧
    meaningful "class A \x7b boolean b = a instanceof A[]; \x7d" =
      [⟨.identifier, "class", ⟨0, 5, 1⟩⟩, ⟨.identifier, "A", ⟨6, 7, 1⟩⟩,
        ⟨.leftBrace, "\x7b", ⟨8, 9, 1⟩⟩, ⟨.identifier, "boolean", ⟨10, 17, 1⟩⟩,
        ⟨.identifier, "b", ⟨18, 19, 1⟩⟩, ⟨.assign, "=", ⟨20, 21, 1⟩⟩] ++ arrayTest ++
      [⟨.semicolon, ";", ⟨38, 39, 1⟩⟩, ⟨.rightBrace, "\x7d", ⟨40, 41, 1⟩⟩] ∧
    Expression .relational arrayTest arrayTestExpr ∧ ¬ Spans arrayTest arrayTestExpr.span := by
  have tokens : meaningful "class A \x7b boolean b = a instanceof A[]; \x7d" =
      [⟨.identifier, "class", ⟨0, 5, 1⟩⟩, ⟨.identifier, "A", ⟨6, 7, 1⟩⟩,
        ⟨.leftBrace, "\x7b", ⟨8, 9, 1⟩⟩, ⟨.identifier, "boolean", ⟨10, 17, 1⟩⟩,
        ⟨.identifier, "b", ⟨18, 19, 1⟩⟩, ⟨.assign, "=", ⟨20, 21, 1⟩⟩] ++ arrayTest ++
      [⟨.semicolon, ";", ⟨38, 39, 1⟩⟩, ⟨.rightBrace, "\x7d", ⟨40, 41, 1⟩⟩] := by
    rw [meaningful, scan_eq 42 (by decide)]
    rfl
  refine ⟨?_, tokens, ?_, ?_⟩
  · rw [parse_eq_ok_iff, tokens]
    cbv
  · have isName : Token.isName ⟨.identifier, "a", ⟨22, 23, 1⟩⟩ := by decide
    have named : Expression .variable [⟨.identifier, "a", ⟨22, 23, 1⟩⟩]
        (.var { span := ⟨22, 23, 1⟩ } none "a" none) := .var .none isName
    have isType : Grammar.TypeName [⟨.identifier, "A", ⟨35, 36, 1⟩⟩,
        ⟨.leftBracket, "[", ⟨36, 37, 1⟩⟩, ⟨.rightBracket, "]", ⟨37, 38, 1⟩⟩]
        (.array (.named "A")) := .array (by decide) rfl rfl
    have stepped := Expression.covered .stepped (.covered .primary named)
    have factor := Expression.covered .multiplicative (.covered .unary stepped)
    have tested := Expression.covered .relational (.covered .additive factor)
    exact .instanceOf tested (by decide) isType
  · rintro ⟨first, last, -, ends, span⟩
    cases ends
    have stop : 36 = 38 := congrArg Span.stop span
    contradiction

end Bantam
