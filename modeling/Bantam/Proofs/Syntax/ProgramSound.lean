import Bantam.Parsing.Parser
import Bantam.Proofs.Syntax.ExpressionSound
import Bantam.Proofs.Syntax.Scanning
import Mathlib.Data.List.Permutation

/-! Statements, members and classes are read by the grammar, with both points settled that it leaves
open: a text that begins like a declaration is read as one, and an `else` goes to the nearest
condition without one. For the latter, reading a statement that leaves a condition open is followed
by no `else`. Main statement: a program that is read is derived from the whole source text. -/
namespace Bantam
open Grammar

theorem startsDeclaration_of_like {tokens : List Token} (like : LikeDeclaration tokens)
    (rest : List Token) : startsDeclaration (tokens ++ rest) = true := by
  cases like with
  | word isName isWord => simp [startsDeclaration, isName, isWord]
  | brackets isName opens closes => simp [startsDeclaration, isName, opens, closes]

/-- The token with which a statement of a form begins. -/
def Opening.Begins (token : Token) : Opening → Prop
  | block => token.kind = .leftBrace
  | branch => token.isWord "if"
  | whileLoop => token.isWord "while"
  | forLoop => token.isWord "for"
  | giveBack => token.isWord "return"
  | leave => token.isWord "break"

theorem Opening.begins_of_ofToken? {token : Token} {opening : Opening × Span}
    (chosen : Opening.ofToken? token = some opening) : opening.1.Begins token := by
  unfold Opening.ofToken? at chosen
  split at chosen
  · next isBrace => cases chosen; exact isBrace
  · next isWord =>
    obtain ⟨form, found, rfl⟩ := Option.map_eq_some_iff.mp chosen
    unfold Opening.ofKeyword? at found
    split at found <;> cases found <;> simp_all [Opening.Begins, Token.isWord]
  · contradiction

section Parts
variable {tokens : List Token}

theorem readClause_sound {closing : Kind} {reading : Reading (Option Expr × Span) tokens}
    (read : readClause closing tokens = .ok reading) :
    ∃ inside stop, reading.taken = inside ++ [stop] ∧ Clause inside reading.value.1 ∧
      stop.kind = closing := by
  rw [readClause] at read
  split at read
  · next close found =>
    obtain ⟨stop, taken, stops⟩ := readKind?_taken found
    cases read
    exact ⟨[], stop, taken, .missing, stops⟩
  · obtain ⟨expr, readExpr, read⟩ := bind_eq_ok.mp read
    obtain ⟨close, readClose, read⟩ := bind_eq_ok.mp read
    obtain ⟨stop, taken, stops⟩ := readKind_taken readClose
    cases read
    refine ⟨expr.taken, stop, ?_, .present (readExpr_sound readExpr), stops⟩
    rw [Reading.taken_give, Reading.taken_followedBy, taken]

theorem readCondition_sound {reading : Reading Expr tokens}
    (read : readCondition tokens = .ok reading) :
    ∃ opening inside closing, reading.taken = opening :: (inside ++ [closing]) ∧
      opening.kind = .leftParen ∧ Expression .assignment inside reading.value ∧
      closing.kind = .rightParen := by
  obtain ⟨paren, readParen, read⟩ := bind_eq_ok.mp read
  obtain ⟨opening, takenOpening, opens⟩ := readKind_taken readParen
  obtain ⟨condition, readCondition, read⟩ := bind_eq_ok.mp read
  obtain ⟨close, readClose, read⟩ := bind_eq_ok.mp read
  obtain ⟨closing, takenClosing, closes⟩ := readKind_taken readClose
  cases read
  refine ⟨opening, condition.taken, closing, ?_, opens, readExpr_sound readCondition, closes⟩
  simp [takenOpening, takenClosing]

theorem readLoopHead_sound {reading : Reading LoopHead tokens}
    (read : readLoopHead tokens = .ok reading) :
    ∃ opening start first inside second step closing,
      reading.taken = opening :: (start ++ first :: (inside ++ second :: (step ++ [closing]))) ∧
      opening.kind = .leftParen ∧ Clause start reading.value.init ∧ first.kind = .semicolon ∧
      Clause inside reading.value.condition ∧ second.kind = .semicolon ∧
      Clause step reading.value.update ∧ closing.kind = .rightParen := by
  obtain ⟨paren, readParen, read⟩ := bind_eq_ok.mp read
  obtain ⟨opening, takenOpening, opens⟩ := readKind_taken readParen
  obtain ⟨init, readInit, read⟩ := bind_eq_ok.mp read
  obtain ⟨start, first, takenInit, before, stops⟩ := readClause_sound readInit
  obtain ⟨condition, readCondition, read⟩ := bind_eq_ok.mp read
  obtain ⟨inside, second, takenCondition, test, stopsAgain⟩ := readClause_sound readCondition
  obtain ⟨update, readUpdate, read⟩ := bind_eq_ok.mp read
  obtain ⟨step, closing, takenUpdate, after, closes⟩ := readClause_sound readUpdate
  cases read
  refine ⟨opening, start, first, inside, second, step, closing, ?_, opens, before, stops, test,
    stopsAgain, after, closes⟩
  simp [takenOpening, takenInit, takenCondition, takenUpdate]

theorem readDeclaration_sound (choice : Choice) {reading : Reading Stmt tokens}
    (read : readDeclaration tokens = .ok reading) :
    Statement choice reading.taken reading.value ∧ leavesOpen reading.value = false := by
  obtain ⟨type, readType, read⟩ := bind_eq_ok.mp read
  obtain ⟨name, readName, read⟩ := bind_eq_ok.mp read
  obtain ⟨nameToken, takenName, isName, text⟩ := readName_taken readName
  obtain ⟨sign, readSign, read⟩ := bind_eq_ok.mp read
  obtain ⟨signToken, takenSign, assigns⟩ := readKind_taken readSign
  obtain ⟨init, readInit, read⟩ := bind_eq_ok.mp read
  obtain ⟨close, readClose, read⟩ := bind_eq_ok.mp read
  obtain ⟨closing, takenClosing, closes⟩ := readKind_taken readClose
  cases read
  simp only [Reading.taken_give, Reading.taken_followedBy, takenName, takenSign, takenClosing,
    Reading.value_give, text]
  exact ⟨.decl (readType_sound readType) isName assigns (readExpr_sound readInit) closes, rfl⟩

theorem readEffect_sound {choice : Choice} {reading : Reading Stmt tokens}
    (allowed : ∀ front rest, tokens = front ++ rest → choice.effect front)
    (read : readEffect tokens = .ok reading) :
    Statement choice reading.taken reading.value ∧ leavesOpen reading.value = false := by
  obtain ⟨expr, readExpr, read⟩ := bind_eq_ok.mp read
  obtain ⟨close, readClose, read⟩ := bind_eq_ok.mp read
  obtain ⟨closing, takenClosing, closes⟩ := readKind_taken readClose
  cases read
  simp only [Reading.taken_give, Reading.taken_followedBy, takenClosing, Reading.value_give]
  exact ⟨.effect (allowed _ _ expr.taken_append_rest.symm) (readExpr_sound readExpr) closes, rfl⟩

end Parts

mutual

theorem readStatement_sound {tokens : List Token} {reading : Reading Stmt tokens}
    (read : readStatement tokens = .ok reading) :
    Statement .settled reading.taken reading.value ∧
      (leavesOpen reading.value → readWord? "else" reading.rest = none) := by
  rw [readStatement] at read
  rcases found : readToken? Opening.ofToken? tokens with _ | opening
  · simp only [found] at read
    split at read
    · obtain ⟨derived, closed⟩ := readDeclaration_sound .settled read
      exact ⟨derived, by simp [closed]⟩
    · next notDeclaration =>
      have allowed (front rest : List Token) (split : tokens = front ++ rest) :
          Choice.settled.effect front :=
        fun like => notDeclaration (split ▸ startsDeclaration_of_like like rest)
      obtain ⟨derived, closed⟩ := readEffect_sound allowed read
      exact ⟨derived, by simp [closed]⟩
  · simp only [found] at read
    obtain ⟨token, takenOpening, chosen⟩ := readToken?_taken found
    have begins := Opening.begins_of_ofToken? chosen
    cases form : opening.value.1 with
    | block =>
      simp only [form] at read begins
      obtain ⟨body, readBody, read⟩ := bind_eq_ok.mp read
      obtain ⟨inside, closing, takenBody, derived, closes⟩ := readStatements_sound readBody
      cases read
      simp only [Reading.taken_give, Reading.taken_followedBy, takenOpening, takenBody]
      exact ⟨.block begins derived closes, fun isOpen => by contradiction⟩
    | branch =>
      simp only [form] at read begins
      obtain ⟨condition, readCondition, read⟩ := bind_eq_ok.mp read
      obtain ⟨first, inside, last, takenCondition, opens, test, closes⟩ :=
        readCondition_sound readCondition
      obtain ⟨thenBranch, readThen, read⟩ := bind_eq_ok.mp read
      obtain ⟨derived, whenOpen⟩ := readStatement_sound readThen
      rcases found : readWord? "else" thenBranch.rest with _ | word
      · simp only [found] at read
        cases read
        refine ⟨?_, fun _ => found⟩
        simp only [Reading.taken_give, Reading.taken_followedBy, takenOpening, takenCondition,
          List.cons_append, List.nil_append, List.append_assoc]
        exact .branch begins opens test closes derived
      · simp only [found] at read
        obtain ⟨other, takenWord, otherwise⟩ := readWord?_taken found
        obtain ⟨elseBranch, readElse, read⟩ := bind_eq_ok.mp read
        obtain ⟨second, whenElseOpen⟩ := readStatement_sound readElse
        -- Had this statement left a condition open, it would have taken the `else` itself.
        have nearest : leavesOpen thenBranch.value = false :=
          Bool.eq_false_iff.mpr fun isOpen => by
            rw [whenOpen isOpen] at found
            contradiction
        cases read
        refine ⟨?_, whenElseOpen⟩
        change Statement _ (opening.followedBy (condition.followedBy (thenBranch.followedBy
          (word.followedBy elseBranch)))).taken _
        simp only [Reading.taken_followedBy, takenOpening, takenCondition,
          takenWord, List.cons_append, List.nil_append, List.append_assoc]
        exact .branchElse begins opens test closes derived nearest otherwise second
    | whileLoop =>
      simp only [form] at read begins
      obtain ⟨condition, readCondition, read⟩ := bind_eq_ok.mp read
      obtain ⟨first, inside, last, takenCondition, opens, test, closes⟩ :=
        readCondition_sound readCondition
      obtain ⟨body, readBody, read⟩ := bind_eq_ok.mp read
      obtain ⟨derived, whenOpen⟩ := readStatement_sound readBody
      cases read
      refine ⟨?_, whenOpen⟩
      simp only [Reading.taken_give, Reading.taken_followedBy, takenOpening, takenCondition,
        List.cons_append, List.nil_append, List.append_assoc]
      exact .whileLoop begins opens test closes derived
    | forLoop =>
      simp only [form] at read begins
      obtain ⟨head, readHead, read⟩ := bind_eq_ok.mp read
      obtain ⟨paren, start, first, inside, second, step, last, takenHead, opens, before, stops, test,
        stopsAgain, after, closes⟩ := readLoopHead_sound readHead
      obtain ⟨body, readBody, read⟩ := bind_eq_ok.mp read
      obtain ⟨derived, whenOpen⟩ := readStatement_sound readBody
      cases read
      refine ⟨?_, whenOpen⟩
      simp only [Reading.taken_give, Reading.taken_followedBy, takenOpening, takenHead,
        List.cons_append, List.nil_append, List.append_assoc]
      exact .forLoop begins opens before stops test stopsAgain after closes derived
    | giveBack =>
      simp only [form] at read begins
      obtain ⟨value, readValue, read⟩ := bind_eq_ok.mp read
      obtain ⟨inside, closing, takenValue, given, closes⟩ := readClause_sound readValue
      cases read
      simp only [Reading.taken_give, Reading.taken_followedBy, takenOpening, takenValue]
      exact ⟨.giveBack begins given closes, fun isOpen => by contradiction⟩
    | leave =>
      simp only [form] at read begins
      obtain ⟨close, readClose, read⟩ := bind_eq_ok.mp read
      obtain ⟨closing, takenClosing, closes⟩ := readKind_taken readClose
      cases read
      simp only [Reading.taken_give, Reading.taken_followedBy, takenOpening, takenClosing]
      exact ⟨.leave begins closes, fun isOpen => by contradiction⟩
termination_by 2 * tokens.length
decreasing_by
  · have := opening.shorter; omega
  · have := opening.shorter; have := condition.shorter; omega
  · have := opening.shorter; have := condition.shorter; have := thenBranch.shorter
    have := word.shorter; omega
  · have := opening.shorter; have := condition.shorter; omega
  · have := opening.shorter; have := head.shorter; omega

theorem readStatements_sound {tokens : List Token} {reading : Reading (List Stmt × Span) tokens}
    (read : readStatements tokens = .ok reading) :
    ∃ inside closing, reading.taken = inside ++ [closing] ∧
      Statements .settled inside reading.value.1 ∧ closing.kind = .rightBrace := by
  rw [readStatements] at read
  rcases found : readKind? .rightBrace tokens with _ | close
  · simp only [found] at read
    split at read
    · contradiction
    · obtain ⟨first, readFirst, read⟩ := bind_eq_ok.mp read
      obtain ⟨derived, -⟩ := readStatement_sound readFirst
      obtain ⟨more, readMore, read⟩ := bind_eq_ok.mp read
      obtain ⟨inside, closing, takenMore, others, closes⟩ := readStatements_sound readMore
      cases read
      refine ⟨first.taken ++ inside, closing, ?_, .cons derived others, closes⟩
      rw [Reading.taken_give, Reading.taken_followedBy, takenMore, List.append_assoc]
  · simp only [found] at read
    obtain ⟨closing, taken, closes⟩ := readKind?_taken found
    cases read
    exact ⟨[], closing, taken, .nil, closes⟩
termination_by 2 * tokens.length + 1
decreasing_by
  · omega
  · have := first.shorter; omega

end

section Members
variable {tokens : List Token}

theorem readFormal_sound {reading : Reading Formal tokens} (read : readFormal tokens = .ok reading) :
    ∃ front name, reading.taken = front ++ [name] ∧ name.isName ∧
      ∃ type span, Grammar.TypeName front type ∧ reading.value = ⟨type, name.spelling, span⟩ := by
  obtain ⟨type, readType, read⟩ := bind_eq_ok.mp read
  obtain ⟨name, readName, read⟩ := bind_eq_ok.mp read
  obtain ⟨token, taken, isName, text⟩ := readName_taken readName
  cases read
  refine ⟨type.taken, token, ?_, isName, type.value.type, type.value.span.merge name.value.span,
    readType_sound readType, ?_⟩
  · rw [Reading.taken_give, Reading.taken_followedBy, taken]
  · rw [Reading.value_give, text]

theorem readMoreFormals_sound {tokens : List Token} {reading : Reading (List Formal) tokens}
    (read : readMoreFormals tokens = .ok reading) :
    ∃ inside closing, reading.taken = inside ++ [closing] ∧ Formals inside reading.value ∧
      closing.kind = .rightParen ∧ reading.value ≠ [] := by
  rw [readMoreFormals] at read
  obtain ⟨first, readFirst, read⟩ := bind_eq_ok.mp read
  obtain ⟨front, name, takenFirst, isName, type, span, typed, value⟩ := readFormal_sound readFirst
  rcases found : readKind? .comma first.rest with _ | comma
  · simp only [found] at read
    obtain ⟨close, readClose, read⟩ := bind_eq_ok.mp read
    obtain ⟨closing, taken, closes⟩ := readKind_taken readClose
    cases read
    refine ⟨front ++ [name], closing, ?_, ?_, closes, List.cons_ne_nil _ _⟩
    · rw [Reading.taken_give, Reading.taken_followedBy, takenFirst, taken]
    · rw [Reading.value_give, value]
      exact .one typed isName
  · simp only [found] at read
    obtain ⟨token, taken, separates⟩ := readKind?_taken found
    obtain ⟨more, readMore, read⟩ := bind_eq_ok.mp read
    obtain ⟨inside, closing, takenMore, others, closes, some⟩ := readMoreFormals_sound readMore
    obtain ⟨next, formals, values⟩ := List.exists_cons_of_ne_nil some
    cases read
    refine ⟨front ++ name :: token :: inside, closing, ?_, ?_, closes, List.cons_ne_nil _ _⟩
    · rw [Reading.taken_give, Reading.taken_followedBy, Reading.taken_followedBy, takenFirst, taken,
        takenMore]
      simp
    · rw [Reading.value_give, value, values]
      exact .more typed isName separates (values ▸ others)
termination_by tokens.length
decreasing_by have := first.shorter; have := comma.shorter; omega

theorem readFormals_sound {reading : Reading (List Formal) tokens}
    (read : readFormals tokens = .ok reading) :
    ∃ inside closing, reading.taken = inside ++ [closing] ∧ Formals inside reading.value ∧
      closing.kind = .rightParen := by
  rw [readFormals] at read
  split at read
  · next close found =>
    obtain ⟨closing, taken, closes⟩ := readKind?_taken found
    cases read
    exact ⟨[], closing, taken, .none, closes⟩
  · obtain ⟨inside, closing, taken, derived, closes, -⟩ := readMoreFormals_sound read
    exact ⟨inside, closing, taken, derived, closes⟩

theorem readBlock_sound {reading : Reading (List Stmt × Span) tokens}
    (read : readBlock tokens = .ok reading) :
    ∃ first inside last, reading.taken = first :: (inside ++ [last]) ∧ first.kind = .leftBrace ∧
      Statements .settled inside reading.value.1 ∧ last.kind = .rightBrace := by
  obtain ⟨brace, readBrace, read⟩ := bind_eq_ok.mp read
  obtain ⟨first, takenBrace, begins⟩ := readKind_taken readBrace
  obtain ⟨body, readBody, read⟩ := bind_eq_ok.mp read
  obtain ⟨inside, last, takenBody, derived, ends⟩ := readStatements_sound readBody
  cases read
  refine ⟨first, inside, last, ?_, begins, derived, ends⟩
  simp [takenBrace, takenBody]

theorem readMember_sound {reading : Reading Member tokens} (read : readMember tokens = .ok reading) :
    Grammar.Member .settled reading.taken reading.value := by
  obtain ⟨type, readType, read⟩ := bind_eq_ok.mp read
  have typed := readType_sound readType
  obtain ⟨name, readName, read⟩ := bind_eq_ok.mp read
  obtain ⟨nameToken, takenName, isName, text⟩ := readName_taken readName
  dsimp only at read
  split at read
  · next paren found =>
    obtain ⟨opening, takenParen, opens⟩ := readKind?_taken found
    obtain ⟨method, readMethod, read⟩ := bind_eq_ok.mp read
    obtain ⟨formals, readFormals, readMethod⟩ := bind_eq_ok.mp readMethod
    obtain ⟨inside, closing, takenFormals, given, closes⟩ := readFormals_sound readFormals
    obtain ⟨body, readBody, readMethod⟩ := bind_eq_ok.mp readMethod
    obtain ⟨first, stmts, last, takenBody, begins, derived, ends⟩ := readBlock_sound readBody
    cases readMethod
    cases read
    rw [Reading.followedBy_assoc]
    simp only [Reading.taken_give, Reading.taken_followedBy, takenName, takenParen, takenFormals,
      takenBody, Reading.value_give, text, List.cons_append, List.nil_append, List.append_assoc]
    exact .method typed isName opens given closes begins derived ends
  · obtain ⟨field, readField, read⟩ := bind_eq_ok.mp read
    rw [Bantam.readField] at readField
    split at readField
    · next sign found =>
      obtain ⟨signToken, takenSign, assigns⟩ := readKind?_taken found
      obtain ⟨init, readInit, readField⟩ := bind_eq_ok.mp readField
      obtain ⟨close, readClose, readField⟩ := bind_eq_ok.mp readField
      obtain ⟨closing, takenClose, closes⟩ := readKind_taken readClose
      cases readField
      cases read
      rw [Reading.followedBy_assoc]
      simp only [Reading.taken_give, Reading.taken_followedBy, takenName, takenSign, takenClose,
        Reading.value_give, text, List.cons_append, List.nil_append]
      exact .initialized typed isName assigns (readExpr_sound readInit) closes
    · obtain ⟨close, readClose, readField⟩ := bind_eq_ok.mp readField
      obtain ⟨closing, takenClose, closes⟩ := readKind_taken readClose
      cases readField
      cases read
      rw [Reading.followedBy_assoc]
      simp only [Reading.taken_give, Reading.taken_followedBy, takenName, takenClose,
        Reading.value_give, text, List.cons_append, List.nil_append]
      exact .field typed isName closes

theorem readMembers_sound {tokens : List Token} {reading : Reading (List Member × Span) tokens}
    (read : readMembers tokens = .ok reading) :
    ∃ inside closing, reading.taken = inside ++ [closing] ∧
      Members .settled inside reading.value.1 ∧ closing.kind = .rightBrace := by
  rw [readMembers] at read
  rcases found : readKind? .rightBrace tokens with _ | close
  · simp only [found] at read
    split at read
    · contradiction
    · obtain ⟨first, readFirst, read⟩ := bind_eq_ok.mp read
      obtain ⟨more, readMore, read⟩ := bind_eq_ok.mp read
      obtain ⟨inside, closing, takenMore, others, closes⟩ := readMembers_sound readMore
      cases read
      refine ⟨first.taken ++ inside, closing, ?_, .cons (readMember_sound readFirst) others, closes⟩
      rw [Reading.taken_give, Reading.taken_followedBy, takenMore, List.append_assoc]
  · simp only [found] at read
    obtain ⟨closing, taken, closes⟩ := readKind?_taken found
    cases read
    exact ⟨[], closing, taken, .nil, closes⟩
termination_by tokens.length
decreasing_by exact first.shorter

theorem readClassHead_sound {reading : Reading (String × Option String) tokens}
    (read : readClassHead tokens = .ok reading) :
    ∃ name front, reading.taken = name :: front ∧ name.isName ∧ Parent front reading.value.2 ∧
      reading.value.1 = name.spelling := by
  obtain ⟨name, readName, read⟩ := bind_eq_ok.mp read
  obtain ⟨token, taken, isName, text⟩ := readName_taken readName
  split at read
  · next word found =>
    obtain ⟨keyword, takenWord, inherits⟩ := readWord?_taken found
    obtain ⟨parent, readParent, read⟩ := bind_eq_ok.mp read
    obtain ⟨parentToken, takenParent, isParent, parentText⟩ := readName_taken readParent
    cases read
    refine ⟨token, [keyword, parentToken], ?_, isName, ?_, text⟩
    · simp [taken, takenWord, takenParent]
    · rw [Reading.value_give, parentText]
      exact .named inherits isParent
  · cases read
    exact ⟨token, [], taken, isName, .none, text⟩

theorem readClass_sound {file : String} {reading : Reading ClassDecl tokens}
    (read : readClass file tokens = .ok reading) :
    Class .settled file reading.taken reading.value := by
  obtain ⟨word, readWord, read⟩ := bind_eq_ok.mp read
  obtain ⟨keyword, takenWord, declares⟩ := readWord_taken readWord
  obtain ⟨head, readHead, read⟩ := bind_eq_ok.mp read
  obtain ⟨name, front, takenHead, isName, inherits, text⟩ := readClassHead_sound readHead
  obtain ⟨brace, readBrace, read⟩ := bind_eq_ok.mp read
  obtain ⟨opening, takenBrace, opens⟩ := readKind_taken readBrace
  obtain ⟨body, readBody, read⟩ := bind_eq_ok.mp read
  obtain ⟨inside, closing, takenBody, derived, closes⟩ := readMembers_sound readBody
  cases read
  simp only [Reading.taken_give, Reading.taken_followedBy, takenWord, takenHead, takenBrace,
    takenBody, Reading.value_give, text, List.cons_append, List.nil_append]
  exact .mk declares isName inherits opens derived closes

theorem readClasses_sound {file : String} {tokens : List Token} {classes : List ClassDecl}
    (read : readClasses file tokens = .ok classes) : Classes .settled file tokens classes := by
  rw [readClasses] at read
  split at read
  · next noneLeft =>
    cases read
    rw [List.isEmpty_iff.mp noneLeft]
    exact .nil
  · obtain ⟨first, readFirst, read⟩ := bind_eq_ok.mp read
    obtain ⟨others, readOthers, read⟩ := bind_eq_ok.mp read
    cases read
    have whole := Classes.cons (readClass_sound readFirst) (readClasses_sound readOthers)
    rwa [first.taken_append_rest] at whole
termination_by tokens.length
decreasing_by exact first.shorter

end Members

theorem unread_ofText (file source : String) :
    (Parser.ofText file source []).unread = meaningful source := rfl

theorem file_ofText (file source : String) : (Parser.ofText file source []).file = file := rfl

theorem parse_eq_ok_iff {file source : String} {program : Program} :
    (parse file source).1 = .ok program ↔
      readClasses file (meaningful source) = .ok program.classes := by
  have outcome : (parse file source).1 = ((Parser.ofText file source []).parse).1 := rfl
  rw [outcome, Parser.parse, unread_ofText]
  split
  · next classes read =>
    rw [file_ofText] at read
    rw [read]
    obtain ⟨others⟩ := program
    simp
  · next failure read =>
    rw [file_ofText] at read
    simp [read]

/-- A program that is read from a source text is derived from all tokens of the text that carry
meaning, each taken once and in order. -/
theorem parse_derives {file source : String} {program : Program}
    (read : (parse file source).1 = .ok program) :
    Classes .settled file (meaningful source) program.classes :=
  readClasses_sound (parse_eq_ok_iff.mp read)

theorem parse_derives_field :
    (parse "A.btm" "class A \x7b int n = 1 + 2 * 3; \x7d").1 = .ok ⟨[⟨"A", none,
      [.field ⟨.named "int", "n", some (.binary { span := ⟨18, 27, 1⟩ } .add
        (.int { span := ⟨18, 19, 1⟩ } 1) (.binary { span := ⟨22, 27, 1⟩ } .mul
          (.int { span := ⟨22, 23, 1⟩ } 2) (.int { span := ⟨26, 27, 1⟩ } 3))), ⟨10, 28, 1⟩⟩],
      "A.btm", ⟨0, 30, 1⟩⟩]⟩ ∧
    Classes .settled "A.btm" (meaningful "class A \x7b int n = 1 + 2 * 3; \x7d") [⟨"A", none,
      [.field ⟨.named "int", "n", some (.binary { span := ⟨18, 27, 1⟩ } .add
        (.int { span := ⟨18, 19, 1⟩ } 1) (.binary { span := ⟨22, 27, 1⟩ } .mul
          (.int { span := ⟨22, 23, 1⟩ } 2) (.int { span := ⟨26, 27, 1⟩ } 3))), ⟨10, 28, 1⟩⟩],
      "A.btm", ⟨0, 30, 1⟩⟩] := by
  have tokens : meaningful "class A \x7b int n = 1 + 2 * 3; \x7d" =
      [⟨.identifier, "class", ⟨0, 5, 1⟩⟩, ⟨.identifier, "A", ⟨6, 7, 1⟩⟩, ⟨.leftBrace, "\x7b", ⟨8, 9, 1⟩⟩,
        ⟨.identifier, "int", ⟨10, 13, 1⟩⟩, ⟨.identifier, "n", ⟨14, 15, 1⟩⟩,
        ⟨.assign, "=", ⟨16, 17, 1⟩⟩, ⟨.integer, "1", ⟨18, 19, 1⟩⟩, ⟨.plus, "+", ⟨20, 21, 1⟩⟩,
        ⟨.integer, "2", ⟨22, 23, 1⟩⟩, ⟨.star, "*", ⟨24, 25, 1⟩⟩, ⟨.integer, "3", ⟨26, 27, 1⟩⟩,
        ⟨.semicolon, ";", ⟨27, 28, 1⟩⟩, ⟨.rightBrace, "\x7d", ⟨29, 30, 1⟩⟩] := by
    rw [meaningful, scan_eq 31 (by decide)]
    rfl
  refine ⟨?read, parse_derives ?read⟩
  rw [parse_eq_ok_iff, tokens]
  cbv

end Bantam
