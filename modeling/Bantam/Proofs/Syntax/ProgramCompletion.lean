import Bantam.Proofs.Syntax.ExpressionCompletion
import Bantam.Proofs.Syntax.ProgramSound
import Bantam.Proofs.Syntax.Rederivation

/-! Statements, members and classes fail in time. A text of statements is one of the reader's choice
that is given only in part; so what has been read before an `else`, and what makes no declaration,
goes on without regard to the place of an `else`. -/
namespace Bantam
open Grammar

def ofClause : Language Token := {text | ∃ value, Clause text value}

def ofCondition : Language Token :=
  ofKind .leftParen * (Rank.assignment.texts * ofKind .rightParen)

def ofLoopHead : Language Token :=
  ofKind .leftParen * ((ofClause * ofKind .semicolon) * ((ofClause * ofKind .semicolon) *
    (ofClause * ofKind .rightParen)))

def ofStatement : Language Token := {text | ∃ stmt, Statement .untested text stmt}

def ofStatements : Language Token := {text | ∃ stmts, Statements .untested text stmts}

def ofBlock : Language Token := ofKind .leftBrace * (ofStatements * ofKind .rightBrace)

theorem clause_texts : Rank.assignment.texts ≤ ofClause := fun _ ⟨_, inner⟩ => ⟨_, .present inner⟩

theorem declaration_texts : ofType * (ofName * (ofKind .assign * (Rank.assignment.texts *
    ofKind .semicolon))) ≤ ofStatement := by
  rintro _ ⟨left, ⟨type, typed⟩, _, ⟨_, ⟨name, isName, rfl⟩, _, ⟨_, ⟨sign, assigns, rfl⟩, _,
    ⟨right, ⟨init, inner⟩, _, ⟨closing, closes, rfl⟩, rfl⟩, rfl⟩, rfl⟩, rfl⟩
  exact ⟨.decl default type _ init, .decl typed isName assigns inner closes⟩

theorem block_texts : ofBlock ≤ ofStatement := by
  rintro _ ⟨_, ⟨opening, opens, rfl⟩, _, ⟨_, ⟨body, inner⟩, _, ⟨closing, closes, rfl⟩, rfl⟩, rfl⟩
  exact ⟨.block default body, .block opens inner closes⟩

theorem parts_of_condition {text : List Token} (isCondition : text ∈ ofCondition) :
    ∃ opening tokens closing condition, opening.kind = .leftParen ∧
      Expression .assignment tokens condition ∧ closing.kind = .rightParen ∧
      text = opening :: (tokens ++ [closing]) := by
  obtain ⟨_, ⟨opening, opens, rfl⟩, _, ⟨tokens, ⟨condition, test⟩, _, ⟨closing, closes, rfl⟩, rfl⟩,
    rfl⟩ := isCondition
  exact ⟨opening, tokens, closing, condition, opens, test, closes, rfl⟩

theorem branch_texts : ofWord "if" * (ofCondition * ofStatement) ≤ ofStatement := by
  rintro _ ⟨_, ⟨word, tests, rfl⟩, _, ⟨_, isCondition, body, ⟨stmt, first⟩, rfl⟩, rfl⟩
  obtain ⟨opening, tokens, closing, condition, opens, test, closes, rfl⟩ :=
    parts_of_condition isCondition
  have derived : Statement .untested (word :: opening :: (tokens ++ closing :: body))
      (.branch default condition stmt none) := .branch tests opens test closes first
  exact ⟨_, by simpa using derived⟩

theorem branchElse_texts :
    ofWord "if" * (ofCondition * (ofStatement * (ofWord "else" * ofStatement))) ≤ ofStatement := by
  rintro _ ⟨_, ⟨word, tests, rfl⟩, _, ⟨_, isCondition, _, ⟨body, ⟨stmt, first⟩, _,
    ⟨_, ⟨other, otherwise, rfl⟩, alternative, ⟨elseBranch, second⟩, rfl⟩, rfl⟩, rfl⟩, rfl⟩
  obtain ⟨opening, tokens, closing, condition, opens, test, closes, rfl⟩ :=
    parts_of_condition isCondition
  have derived : Statement .untested
      (word :: opening :: (tokens ++ closing :: (body ++ other :: alternative)))
      (.branch default condition stmt (some elseBranch)) :=
    .branchElse tests opens test closes first trivial otherwise second
  exact ⟨_, by simpa using derived⟩

theorem whileLoop_texts : ofWord "while" * (ofCondition * ofStatement) ≤ ofStatement := by
  rintro _ ⟨_, ⟨word, loops, rfl⟩, _, ⟨_, isCondition, body, ⟨stmt, inner⟩, rfl⟩, rfl⟩
  obtain ⟨opening, tokens, closing, condition, opens, test, closes, rfl⟩ :=
    parts_of_condition isCondition
  have derived : Statement .untested (word :: opening :: (tokens ++ closing :: body))
      (.whileLoop default condition stmt) := .whileLoop loops opens test closes inner
  exact ⟨_, by simpa using derived⟩

theorem forLoop_texts : ofWord "for" * (ofLoopHead * ofStatement) ≤ ofStatement := by
  rintro _ ⟨_, ⟨word, loops, rfl⟩, _, ⟨_, ⟨_, ⟨opening, opens, rfl⟩, _, ⟨_, ⟨start, ⟨init, before⟩,
    _, ⟨first, stops, rfl⟩, rfl⟩, _, ⟨_, ⟨tokens, ⟨condition, test⟩, _, ⟨second, stopsAgain, rfl⟩,
    rfl⟩, _, ⟨step, ⟨update, after⟩, _, ⟨closing, closes, rfl⟩, rfl⟩, rfl⟩, rfl⟩, rfl⟩, body,
    ⟨stmt, inner⟩, rfl⟩, rfl⟩
  have derived : Statement .untested
      (word :: opening :: (start ++ first :: (tokens ++ second :: (step ++ closing :: body))))
      (.forLoop default init condition update stmt) :=
    .forLoop loops opens before stops test stopsAgain after closes inner
  exact ⟨_, by simpa using derived⟩

theorem giveBack_texts : ofWord "return" * (ofClause * ofKind .semicolon) ≤ ofStatement := by
  rintro _ ⟨_, ⟨word, returns, rfl⟩, _, ⟨tokens, ⟨value, given⟩, _, ⟨closing, closes, rfl⟩, rfl⟩,
    rfl⟩
  exact ⟨.giveBack default value, .giveBack returns given closes⟩

theorem leave_texts : ofWord "break" * ofKind .semicolon ≤ ofStatement := by
  rintro _ ⟨_, ⟨word, breaks, rfl⟩, _, ⟨closing, closes, rfl⟩, rfl⟩
  exact ⟨.leave default, .leave breaks closes⟩

theorem statements_texts : ofStatement * ofStatements ≤ ofStatements := by
  rintro _ ⟨front, ⟨stmt, first⟩, rest, ⟨stmts, others⟩, rfl⟩
  exact ⟨_, .cons first others⟩

instance : Open ofClause := ⟨viable_of_mem ⟨none, .missing⟩⟩

instance : Open ofCondition := inferInstanceAs (Open (_ * _))

instance : Open ofLoopHead := inferInstanceAs (Open (_ * _))

instance : Open ofStatements := ⟨viable_of_mem ⟨[], .nil⟩⟩

instance : Open ofBlock := inferInstanceAs (Open (_ * _))

instance : Open ofStatement := ⟨viable_mono block_texts Open.viable⟩

section Parts
variable {tokens : List Token}

theorem readExpr_readsText (tokens : List Token) :
    ReadsText Rank.assignment.texts (readExpr tokens) := .expr (readExpr_completable tokens)

theorem readClause_readsText (closing : Kind) [Open (ofKind closing)] (tokens : List Token) :
    ReadsText (ofClause * ofKind closing) (readClause closing tokens) := by
  refine ⟨fun reading read => ?_, ?_⟩
  · obtain ⟨inside, stop, taken, given, stops⟩ := readClause_sound read
    exact ⟨inside, ⟨_, given⟩, _, mem_single stops, taken.symm⟩
  · rw [readClause]
    split
    · exact .ok _
    · exact .mono (mul_le_mul_left clause_texts _)
        (.andThen (readExpr_readsText tokens) fun expr _ =>
          .last (readKind_readsText _ _).completable)

theorem readCondition_readsText (tokens : List Token) :
    ReadsText ofCondition (readCondition tokens) := by
  refine ⟨fun reading read => ?_, ?_⟩
  · obtain ⟨opening, inside, closing, taken, opens, test, closes⟩ := readCondition_sound read
    exact ⟨[opening], mem_single opens, _, ⟨inside, ⟨_, test⟩, _, mem_single closes, rfl⟩,
      taken.symm⟩
  · exact .andThen (readKind_readsText _ _) fun paren _ =>
      .andThen (readExpr_readsText _) fun condition _ => .last (readKind_readsText _ _).completable

theorem readLoopHead_readsText (tokens : List Token) :
    ReadsText ofLoopHead (readLoopHead tokens) := by
  refine ⟨fun reading read => ?_, ?_⟩
  · obtain ⟨opening, start, first, inside, second, step, closing, taken, opens, before, stops, test,
      stopsAgain, after, closes⟩ := readLoopHead_sound read
    refine ⟨[opening], mem_single opens, _, ⟨start ++ [first], ?_, _, ⟨inside ++ [second], ?_,
      step ++ [closing], ?_, rfl⟩, rfl⟩, ?_⟩
    · exact ⟨_, ⟨_, before⟩, _, mem_single stops, rfl⟩
    · exact ⟨_, ⟨_, test⟩, _, mem_single stopsAgain, rfl⟩
    · exact ⟨_, ⟨_, after⟩, _, mem_single closes, rfl⟩
    · rw [taken]
      simp
  · exact .andThen (readKind_readsText _ _) fun paren _ =>
      .andThen (readClause_readsText _ _) fun init _ =>
      .andThen (readClause_readsText _ _) fun condition _ =>
      .last (readClause_readsText _ _).completable

theorem readDeclaration_completable (tokens : List Token) :
    Completable ofStatement tokens (readDeclaration tokens) := by
  refine .mono declaration_texts (.andThen (readType_readsText _) fun type _ => ?_)
  exact .andThen (readName_readsText _) fun name _ =>
    .andThen (readKind_readsText _ _) fun sign _ =>
    .andThen (readExpr_readsText _) fun init _ =>
    .last (readKind_readsText _ _).completable

theorem not_instanceof_of_filler {token : Token} (isFiller : token ∈ fillers) :
    token.isWord "instanceof" = false := by
  revert token
  decide

/-- No filler makes a test of a name's type. -/
theorem startsDeclaration_of_testsName {front more : List Token}
    (areFillers : ∀ token ∈ more, token ∈ fillers) (tests : TestsName (front ++ more))
    (rest : List Token) : startsDeclaration (front ++ rest) = true := by
  generalize whole : front ++ more = tokens at tests
  obtain @⟨name, word, others, isName, tests⟩ := tests
  have noFiller : word ∉ more := fun member => by
    rw [not_instanceof_of_filler (areFillers word member)] at tests
    contradiction
  rcases front with _ | ⟨first, _ | ⟨second, front⟩⟩
  · obtain rfl : more = name :: word :: others := whole
    simp at noFiller
  · simp only [List.cons_append, List.nil_append, List.cons.injEq] at whole
    simp [whole] at noFiller
  · simp only [List.cons_append, List.cons.injEq] at whole
    obtain ⟨rfl, rfl, -⟩ := whole
    simp [startsDeclaration, isName, Token.kind_of_isWord tests]

theorem readEffect_completable (notDeclaration : startsDeclaration tokens = false) :
    Completable ofStatement tokens (readEffect tokens) := by
  have effect :
      Completable (Rank.assignment.texts * ofKind .semicolon) tokens (readEffect tokens) :=
    .andThen (readExpr_readsText _) fun expr _ => .last (readKind_readsText _ _).completable
  intro expectation rest failed
  obtain ⟨front, ⟨more, areFillers, text, ⟨expr, inner⟩, _, ⟨closing, closes, rfl⟩, whole⟩,
    split⟩ := effect expectation rest failed
  have allowed : ¬ TestsName text := by
    rintro ⟨isName, tests⟩
    have tests : TestsName (front ++ more) := whole ▸ .mk isName tests
    rw [← split, startsDeclaration_of_testsName areFillers tests rest] at notDeclaration
    contradiction
  exact ⟨front, ⟨more, areFillers, .expr default expr, whole ▸ .effect allowed inner closes⟩, split⟩

end Parts

theorem taken_mem_ofStatement {tokens : List Token} {reading : Reading Stmt tokens}
    (read : readStatement tokens = .ok reading) : reading.taken ∈ ofStatement :=
  (readStatement_sound read).1.rederive extends_untested

mutual

theorem readStatement_completable (tokens : List Token) :
    Completable ofStatement tokens (readStatement tokens) := by
  rw [readStatement]
  rcases found : readToken? Opening.ofToken? tokens with _ | opening
  · dsimp only
    split
    · exact readDeclaration_completable tokens
    · next notDeclaration => exact readEffect_completable (Bool.eq_false_iff.mpr notDeclaration)
  · dsimp only
    obtain ⟨token, taken, chosen⟩ := readToken?_taken found
    have begins := Opening.begins_of_ofToken? chosen
    have opens {fits : Token → Prop} (isFit : fits token) : opening.taken ∈ single fits :=
      taken ▸ mem_single isFit
    cases form : opening.value.1 with
    | block =>
      rw [form] at begins
      exact .mono block_texts (.behind opening.taken_append_rest (opens begins)
        (.last (readStatements_completable opening.rest)))
    | branch =>
      rw [form] at begins
      have test := readCondition_readsText opening.rest
      refine .bind (.mono branch_texts (.behind opening.taken_append_rest (opens begins)
        (.mul test.completable))) fun condition readTest => ?_
      have isTest := test.text condition readTest
      refine .bind (.mono branch_texts (.behind opening.taken_append_rest (opens begins)
        (.behind condition.taken_append_rest isTest
          (readStatement_completable condition.rest)))) fun thenBranch readThen => ?_
      rcases found : readWord? "else" thenBranch.rest with _ | word
      · exact .ok _
      · exact .mono branchElse_texts (.behind opening.taken_append_rest (opens begins)
          (.behind condition.taken_append_rest isTest
            (.behind thenBranch.taken_append_rest (taken_mem_ofStatement readThen)
              (.seenWord found (.last (readStatement_completable word.rest))))))
    | whileLoop =>
      rw [form] at begins
      exact .mono whileLoop_texts (.behind opening.taken_append_rest (opens begins)
        (.andThen (readCondition_readsText _) fun condition _ =>
          .last (readStatement_completable condition.rest)))
    | forLoop =>
      rw [form] at begins
      exact .mono forLoop_texts (.behind opening.taken_append_rest (opens begins)
        (.andThen (readLoopHead_readsText _) fun head _ =>
          .last (readStatement_completable head.rest)))
    | giveBack =>
      rw [form] at begins
      exact .mono giveBack_texts (.behind opening.taken_append_rest (opens begins)
        (.last (readClause_readsText _ _).completable))
    | leave =>
      rw [form] at begins
      exact .mono leave_texts (.behind opening.taken_append_rest (opens begins)
        (.last (readKind_readsText _ _).completable))
termination_by 2 * tokens.length
decreasing_by
  · have := opening.shorter; omega
  · have := opening.shorter; have := condition.shorter; omega
  · have := opening.shorter; have := condition.shorter; have := thenBranch.shorter
    have := word.shorter; omega
  · have := opening.shorter; have := condition.shorter; omega
  · have := opening.shorter; have := head.shorter; omega

theorem readStatements_completable (tokens : List Token) :
    Completable (ofStatements * ofKind .rightBrace) tokens (readStatements tokens) := by
  rw [readStatements]
  split
  · exact .ok _
  · split
    · exact .here _ Open.viable
    · refine .mono (mul_le_mul_left statements_texts _) ?_
      rw [mul_assoc]
      exact .andThen ⟨fun _ => taken_mem_ofStatement, readStatement_completable tokens⟩
        fun first _ => .last (readStatements_completable first.rest)
termination_by 2 * tokens.length + 1
decreasing_by
  · omega
  · have := first.shorter; omega

end

def ofFormal : Language Token := ofType * ofName

def ofFormals : Language Token := {text | ∃ formals, Formals text formals}

/-- At least one formal. -/
def ofSomeFormals : Language Token := {text | ∃ formal formals, Formals text (formal :: formals)}

def ofMember : Language Token := {text | ∃ member, Grammar.Member .untested text member}

def ofMembers : Language Token := {text | ∃ members, Members .untested text members}

def ofParent : Language Token := {text | ∃ parent, Parent text parent}

def ofClass (file : String) : Language Token := {text | ∃ decl, Class .untested file text decl}

def ofClasses (file : String) : Language Token :=
  {text | ∃ decls, Classes .untested file text decls}

theorem formal_texts : ofFormal ≤ ofSomeFormals := by
  rintro _ ⟨tokens, ⟨type, typed⟩, _, ⟨name, isName, rfl⟩, rfl⟩
  exact ⟨⟨type, _, default⟩, [], .one typed isName⟩

theorem formals_texts : ofFormal * (ofKind .comma * ofSomeFormals) ≤ ofSomeFormals := by
  rintro _ ⟨_, ⟨tokens, ⟨type, typed⟩, _, ⟨name, isName, rfl⟩, rfl⟩, _, ⟨_, ⟨comma, separates, rfl⟩,
    rest, ⟨next, formals, others⟩, rfl⟩, rfl⟩
  have derived : Formals (tokens ++ name :: comma :: rest)
      (⟨type, name.spelling, default⟩ :: next :: formals) := .more typed isName separates others
  exact ⟨_, _, by simpa using derived⟩

theorem field_texts : ofType * (ofName * ofKind .semicolon) ≤ ofMember := by
  rintro _ ⟨tokens, ⟨type, typed⟩, _, ⟨_, ⟨name, isName, rfl⟩, _, ⟨closing, closes, rfl⟩, rfl⟩, rfl⟩
  exact ⟨.field ⟨type, _, none, default⟩, .field typed isName closes⟩

theorem initialized_texts : ofType * (ofName * (ofKind .assign * (Rank.assignment.texts *
    ofKind .semicolon))) ≤ ofMember := by
  rintro _ ⟨left, ⟨type, typed⟩, _, ⟨_, ⟨name, isName, rfl⟩, _, ⟨_, ⟨sign, assigns, rfl⟩, _,
    ⟨right, ⟨init, inner⟩, _, ⟨closing, closes, rfl⟩, rfl⟩, rfl⟩, rfl⟩, rfl⟩
  exact ⟨.field ⟨type, _, some init, default⟩, .initialized typed isName assigns inner closes⟩

theorem method_texts : ofType * (ofName * (ofKind .leftParen * ((ofFormals * ofKind .rightParen) *
    ofBlock))) ≤ ofMember := by
  rintro _ ⟨left, ⟨type, typed⟩, _, ⟨_, ⟨name, isName, rfl⟩, _, ⟨_, ⟨opening, opens, rfl⟩, _,
    ⟨_, ⟨inside, ⟨formals, given⟩, _, ⟨closing, closes, rfl⟩, rfl⟩, _, ⟨_, ⟨first, begins, rfl⟩, _,
    ⟨tokens, ⟨body, inner⟩, _, ⟨last, ends, rfl⟩, rfl⟩, rfl⟩, rfl⟩, rfl⟩, rfl⟩, rfl⟩
  have derived : Grammar.Member .untested
      (left ++ name :: opening :: (inside ++ closing :: first :: (tokens ++ [last])))
      (.method ⟨type, name.spelling, formals, body, default⟩) :=
    .method typed isName opens given closes begins inner ends
  exact ⟨_, by simpa using derived⟩

theorem members_texts : ofMember * ofMembers ≤ ofMembers := by
  rintro _ ⟨front, ⟨member, first⟩, rest, ⟨members, others⟩, rfl⟩
  exact ⟨_, .cons first others⟩

theorem parent_texts : ofWord "extends" * ofName ≤ ofParent := by
  rintro _ ⟨_, ⟨word, inherits, rfl⟩, _, ⟨name, isName, rfl⟩, rfl⟩
  exact ⟨_, .named inherits isName⟩

theorem class_texts (file : String) : ofWord "class" * ((ofName * ofParent) * (ofKind .leftBrace *
    (ofMembers * ofKind .rightBrace))) ≤ ofClass file := by
  rintro _ ⟨_, ⟨word, declares, rfl⟩, _, ⟨_, ⟨_, ⟨name, isName, rfl⟩, front, ⟨parent, inherits⟩,
    rfl⟩, _, ⟨_, ⟨opening, opens, rfl⟩, _, ⟨tokens, ⟨members, inner⟩, _, ⟨closing, closes, rfl⟩,
    rfl⟩, rfl⟩, rfl⟩, rfl⟩
  have derived : Class .untested file (word :: name :: (front ++ opening :: (tokens ++ [closing])))
      ⟨name.spelling, parent, members, file, default⟩ :=
    .mk declares isName inherits opens inner closes
  exact ⟨_, by simpa using derived⟩

theorem classes_texts (file : String) : ofClass file * ofClasses file ≤ ofClasses file := by
  rintro _ ⟨front, ⟨decl, first⟩, rest, ⟨decls, others⟩, rfl⟩
  exact ⟨_, .cons first others⟩

instance : Open ofFormal := inferInstanceAs (Open (_ * _))

instance : Open ofFormals := ⟨viable_of_mem ⟨[], .none⟩⟩

instance : Open ofMembers := ⟨viable_of_mem ⟨[], .nil⟩⟩

instance : Open ofParent := ⟨viable_of_mem ⟨none, .none⟩⟩

instance (file : String) : Open (ofClasses file) := ⟨viable_of_mem ⟨[], .nil⟩⟩

section Members
variable {tokens : List Token}

theorem readFormal_readsText (tokens : List Token) : ReadsText ofFormal (readFormal tokens) := by
  refine ⟨fun reading read => ?_, ?_⟩
  · obtain ⟨front, name, taken, isName, type, span, typed, -⟩ := readFormal_sound read
    exact ⟨front, ⟨type, typed⟩, _, mem_single isName, taken.symm⟩
  · exact .andThen (readType_readsText _) fun type _ => .last (readName_readsText _).completable

theorem readMoreFormals_completable (tokens : List Token) :
    Completable (ofSomeFormals * ofKind .rightParen) tokens (readMoreFormals tokens) := by
  rw [readMoreFormals]
  have formal := readFormal_readsText tokens
  refine .bind (.mul (.mono formal_texts formal.completable)) fun first readFirst => ?_
  have isFormal := formal.text first readFirst
  rcases found : readKind? .comma first.rest with _ | comma
  · exact .mono (mul_le_mul_left formal_texts _) (.behind first.taken_append_rest isFormal
      (.last (readKind_readsText _ _).completable))
  · refine .mono (mul_le_mul_left formals_texts _) ?_
    rw [mul_assoc, mul_assoc]
    exact .behind first.taken_append_rest isFormal
      (.seenKind found (.last (readMoreFormals_completable comma.rest)))
termination_by tokens.length
decreasing_by have := first.shorter; have := comma.shorter; omega

theorem readFormals_readsText (tokens : List Token) :
    ReadsText (ofFormals * ofKind .rightParen) (readFormals tokens) := by
  refine ⟨fun reading read => ?_, ?_⟩
  · obtain ⟨inside, closing, taken, given, closes⟩ := readFormals_sound read
    exact ⟨inside, ⟨_, given⟩, _, mem_single closes, taken.symm⟩
  · rw [readFormals]
    split
    · exact .ok _
    · exact .mono (mul_le_mul_left (fun _ ⟨_, _, given⟩ => ⟨_, given⟩) _)
        (readMoreFormals_completable tokens)

theorem readBlock_completable (tokens : List Token) :
    Completable ofBlock tokens (readBlock tokens) :=
  .andThen (readKind_readsText _ _) fun brace _ => .last (readStatements_completable brace.rest)

theorem readMember_completable (tokens : List Token) :
    Completable ofMember tokens (readMember tokens) := by
  have front := readType_readsText tokens
  refine .bind (.mono field_texts (.mul front.completable)) fun type readType => ?_
  have isType := front.text type readType
  have named := readName_readsText type.rest
  refine .bind (.mono field_texts (.behind type.taken_append_rest isType (.mul named.completable)))
    fun name readName => ?_
  have isName := named.text name readName
  dsimp only
  split
  · next paren found =>
    exact .mono method_texts (.behind type.taken_append_rest isType
      (.behind name.taken_append_rest isName (.seenKind found (.last
        (.andThen (readFormals_readsText _) fun formals _ => .last (readBlock_completable _))))))
  · refine .last ?_
    rw [readField]
    split
    · next sign found =>
      exact .mono initialized_texts (.behind type.taken_append_rest isType
        (.behind name.taken_append_rest isName (.seenKind found
          (.andThen (readExpr_readsText _) fun init _ =>
            .last (readKind_readsText _ _).completable))))
    · exact .mono field_texts (.behind type.taken_append_rest isType
        (.behind name.taken_append_rest isName (.last (readKind_readsText _ _).completable)))

theorem taken_mem_ofMember {reading : Reading Member tokens}
    (read : readMember tokens = .ok reading) : reading.taken ∈ ofMember :=
  (readMember_sound read).rederive extends_untested

theorem readMembers_completable (tokens : List Token) :
    Completable (ofMembers * ofKind .rightBrace) tokens (readMembers tokens) := by
  rw [readMembers]
  split
  · exact .ok _
  · split
    · exact .here _ Open.viable
    · refine .mono (mul_le_mul_left members_texts _) ?_
      rw [mul_assoc]
      exact .andThen ⟨fun _ => taken_mem_ofMember, readMember_completable tokens⟩
        fun first _ => .last (readMembers_completable first.rest)
termination_by tokens.length
decreasing_by exact first.shorter

theorem readClassHead_readsText (tokens : List Token) :
    ReadsText (ofName * ofParent) (readClassHead tokens) := by
  refine ⟨fun reading read => ?_, ?_⟩
  · obtain ⟨name, front, taken, isName, inherits, -⟩ := readClassHead_sound read
    exact ⟨[name], mem_single isName, front, ⟨_, inherits⟩, taken.symm⟩
  · refine .andThen (readName_readsText _) fun name _ => ?_
    split
    · next word found =>
      exact .mono parent_texts (.seenWord found (.last (readName_readsText _).completable))
    · exact .ok _

theorem readClass_readsText (file : String) (tokens : List Token) :
    ReadsText (ofClass file) (readClass file tokens) := by
  refine ⟨fun reading read => (readClass_sound read).rederive extends_untested, ?_⟩
  exact .mono (class_texts file) (.andThen (readWord_readsText _ _) fun word _ =>
    .andThen (readClassHead_readsText _) fun head _ =>
    .andThen (readKind_readsText _ _) fun brace _ =>
    .last (readMembers_completable brace.rest))

/-- Where a program cannot go on, what stands before is the beginning of a program. -/
theorem readClasses_completable (file : String) (tokens : List Token) :
    Completable (ofClasses file) tokens (readClasses file tokens) := by
  rw [readClasses]
  split
  · exact .ok _
  · exact .mono (classes_texts file) (.andThen (readClass_readsText file tokens) fun first _ =>
      .last (readClasses_completable file first.rest))
termination_by tokens.length
decreasing_by exact first.shorter

end Members

end Bantam
