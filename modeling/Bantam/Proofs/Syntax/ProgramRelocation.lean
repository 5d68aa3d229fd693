import Bantam.Proofs.Syntax.ExpressionRelocation

/-! Statements, members and classes in another place. A declaration is told from an expression by
tokens further on; where the statement comes to its end before the tokens do, these are its own.
Blocks, members and classes end with a token of their own and are carried over up to the last. -/
namespace Bantam.Relocation
variable {relocation : Relocation} {ended : Prop}

theorem ofToken?_opening (token : Token) : Opening.ofToken? (relocation.token token) =
    (Opening.ofToken? token).map (Prod.map id relocation.move) := by
  have kind : (relocation.token token).kind = token.kind := rfl
  unfold Opening.ofToken?
  rw [kind]
  split
  · rfl
  · rw [Option.map_map]
    rfl
  · rfl

/-- Whether a declaration starts is seen from three tokens. -/
theorem startsDeclaration_tokens {tokens : List Token}
    (enough : 3 ≤ tokens.length ∨ relocation.behind = []) :
    startsDeclaration (relocation.tokens tokens) = startsDeclaration tokens := by
  match tokens, enough with
  | _ :: _ :: _ :: _, _ => rfl
  | [], .inr alone => rw [Relocation.tokens, alone]; rfl
  | [_], .inr alone => rw [Relocation.tokens, alone]; rfl
  | [_, _], .inr alone => rw [Relocation.tokens, alone]; rfl

section Clauses

def loopHead (relocation : Relocation) (head : LoopHead) : LoopHead where
  init := Expr.markOption relocation.marking head.init
  condition := Expr.markOption relocation.marking head.condition
  update := Expr.markOption relocation.marking head.update

theorem readClause_carries (closing : Kind) (tokens : List Token) :
    relocation.Carries ended tokens False
      (Prod.map (Expr.markOption relocation.marking) relocation.move) (readClause closing tokens)
      (readClause closing (relocation.tokens tokens)) := by
  rw [readClause, readClause]
  rcases relocation.kind?_cases closing tokens with ⟨close, found, found'⟩ | ⟨found, unseen⟩
  · simp only [found, found']
    exact .seen found (.give (fun _ => trivial) rfl rfl)
  · simp only [found]
    refine .unseen (fun hides => by simp only [unseen hides]; rfl) ?_
    refine .bind (readExpr_carries tokens) fun expr => ?_
    refine .bind (readKind_carries expr.rest closing) fun close => ?_
    exact .give (fun _ => trivial) rfl rfl

theorem readCondition_carries (tokens : List Token) :
    relocation.Carries ended tokens False (Expr.mark relocation.marking) (readCondition tokens)
      (readCondition (relocation.tokens tokens)) := by
  rw [readCondition, readCondition]
  refine .bind (readKind_carries tokens .leftParen) fun paren => ?_
  refine .bind (readExpr_carries paren.rest) fun condition => ?_
  refine .bind (readKind_carries condition.rest .rightParen) fun close => ?_
  exact .give (fun _ => trivial) rfl rfl

theorem readLoopHead_carries (tokens : List Token) :
    relocation.Carries ended tokens False relocation.loopHead (readLoopHead tokens)
      (readLoopHead (relocation.tokens tokens)) := by
  rw [readLoopHead, readLoopHead]
  refine .bind (readKind_carries tokens .leftParen) fun paren => ?_
  refine .bind (readClause_carries .semicolon paren.rest) fun init => ?_
  refine .bind (readClause_carries .semicolon init.rest) fun condition => ?_
  refine .bind (readClause_carries .rightParen condition.rest) fun update => ?_
  exact .give id rfl rfl

theorem readDeclaration_carries (tokens : List Token) :
    relocation.Carries ended tokens False (Stmt.mark relocation.marking) (readDeclaration tokens)
      (readDeclaration (relocation.tokens tokens)) := by
  rw [readDeclaration, readDeclaration]
  refine .bind (readType_carries tokens) fun type => ?_
  refine .bind (readName_carries type.rest) fun name => ?_
  refine .bind (readKind_carries name.rest .assign) fun sign => ?_
  refine .bind (readExpr_carries sign.rest) fun init => ?_
  refine .bind (readKind_carries init.rest .semicolon) fun close => ?_
  refine .give (fun _ => trivial) rfl ?_
  simp [Stmt.mark, relocation.merge, typeName, Relocation.name]

theorem readEffect_carries (tokens : List Token) :
    relocation.Carries ended tokens False (Stmt.mark relocation.marking) (readEffect tokens)
      (readEffect (relocation.tokens tokens)) := by
  rw [readEffect, readEffect]
  refine .bind (readExpr_carries tokens) fun expr => ?_
  refine .bind (readKind_carries expr.rest .semicolon) fun close => ?_
  exact .give (fun _ => trivial) rfl (by simp [Stmt.mark, relocation.merge])

theorem length_of_readDeclaration {tokens : List Token} {reading : Reading Stmt tokens}
    (read : readDeclaration tokens = .ok reading) : reading.rest.length + 2 ≤ tokens.length := by
  obtain ⟨type, -, read⟩ := bind_eq_ok.mp read
  obtain ⟨name, -, read⟩ := bind_eq_ok.mp read
  obtain ⟨sign, -, read⟩ := bind_eq_ok.mp read
  obtain ⟨init, -, read⟩ := bind_eq_ok.mp read
  obtain ⟨close, -, read⟩ := bind_eq_ok.mp read
  cases read
  show close.rest.length + 2 ≤ tokens.length
  have := type.shorter
  have := name.shorter
  have := sign.shorter
  have := init.shorter
  have := close.shorter
  omega

theorem length_of_readEffect {tokens : List Token} {reading : Reading Stmt tokens}
    (read : readEffect tokens = .ok reading) : reading.rest.length + 2 ≤ tokens.length := by
  obtain ⟨expr, -, read⟩ := bind_eq_ok.mp read
  obtain ⟨close, -, read⟩ := bind_eq_ok.mp read
  cases read
  show close.rest.length + 2 ≤ tokens.length
  have := expr.shorter
  have := close.shorter
  omega

theorem enough_of_settles {tokens : List Token} {outcome : Outcome Stmt tokens}
    (takesTwo : ∀ reading, outcome = .ok reading → reading.rest.length + 2 ≤ tokens.length)
    (settled : relocation.Settles False outcome) :
    3 ≤ tokens.length ∨ relocation.behind = [] := by
  cases outcome with
  | error failure => exact .inr settled
  | ok reading =>
    have taken := takesTwo reading rfl
    rcases settled with impossible | some | alone
    · contradiction
    · have := List.length_pos_iff.mpr some
      exact .inl (by omega)
    · exact .inr alone

theorem readUnopened_carries (tokens : List Token) :
    relocation.Carries ended tokens False (Stmt.mark relocation.marking)
      (if startsDeclaration tokens then readDeclaration tokens else readEffect tokens)
      (if startsDeclaration (relocation.tokens tokens) then
        readDeclaration (relocation.tokens tokens) else readEffect (relocation.tokens tokens)) := by
  by_cases starts : startsDeclaration tokens = true
  · rw [if_pos starts]
    refine .settled (fun settled => ?_) (readDeclaration_carries tokens)
    have enough := enough_of_settles (fun _ => length_of_readDeclaration) settled
    rw [startsDeclaration_tokens enough, if_pos starts]
  · rw [if_neg starts]
    refine .settled (fun settled => ?_) (readEffect_carries tokens)
    have enough := enough_of_settles (fun _ => length_of_readEffect) settled
    rw [startsDeclaration_tokens enough, if_neg starts]

end Clauses

theorem isEmpty_tokens {tokens : List Token} (hides : relocation.Hides tokens) :
    (relocation.tokens tokens).isEmpty = tokens.isEmpty := by
  rcases hides with some | alone
  · obtain ⟨token, rest, rfl⟩ := List.exists_cons_of_ne_nil some
    rfl
  · rw [Relocation.tokens, alone, List.append_nil, List.isEmpty_map]

mutual

theorem readStatement_carries {ended : Prop} (tokens : List Token) :
    relocation.Carries ended tokens False (Stmt.mark relocation.marking) (readStatement tokens)
      (readStatement (relocation.tokens tokens)) := by
  rw [readStatement, readStatement]
  rcases relocation.token?_cases ofToken?_opening tokens with
    ⟨opening, found, found'⟩ | ⟨found, unseen⟩
  · obtain ⟨⟨form, start⟩, rest, isSuffix, shorter⟩ := opening
    simp only [found, found']
    refine .seen found ?_
    cases form with
    | block =>
      refine .bind (readStatements_carries rest) fun body => ?_
      exact .give (fun _ => trivial) rfl (by simp [Stmt.mark, relocation.merge])
    | branch =>
      refine .bind (readCondition_carries rest) fun condition => ?_
      refine .bind (readStatement_carries condition.rest) fun thenBranch => ?_
      rcases relocation.word?_cases "else" thenBranch.rest with
        ⟨word, found, found'⟩ | ⟨found, unseen⟩
      · simp only [rest_reading, found, found']
        refine .seen found (.bind (readStatement_carries word.rest) fun elseBranch => ?_)
        exact .give id rfl (by simp [Stmt.mark, Stmt.markOption, relocation.merge])
      · simp only [found]
        refine .unseen (fun hides => by simp only [rest_reading, unseen hides]; rfl) ?_
        exact .give id rfl (by simp [Stmt.mark, Stmt.markOption, relocation.merge])
    | whileLoop =>
      refine .bind (readCondition_carries rest) fun condition => ?_
      refine .bind (readStatement_carries condition.rest) fun body => ?_
      exact .give id rfl (by simp [Stmt.mark, relocation.merge])
    | forLoop =>
      refine .bind (readLoopHead_carries rest) fun head => ?_
      refine .bind (readStatement_carries head.rest) fun body => ?_
      exact .give id rfl (by simp [Stmt.mark, relocation.merge, loopHead])
    | giveBack =>
      refine .bind (readClause_carries .semicolon rest) fun value => ?_
      exact .give id rfl (by simp [Stmt.mark, relocation.merge])
    | leave =>
      refine .bind (readKind_carries rest .semicolon) fun close => ?_
      exact .give (fun _ => trivial) rfl (by simp [Stmt.mark, relocation.merge])
  · simp only [found]
    refine .unseen (fun hides => by simp only [unseen hides]; rfl) ?_
    exact readUnopened_carries tokens
termination_by 2 * tokens.length
decreasing_by
  · omega
  · have := condition.shorter; omega
  · have := condition.shorter; have := thenBranch.shorter; have := word.shorter; omega
  · have := condition.shorter; omega
  · have := head.shorter; omega

theorem readStatements_carries {ended : Prop} (tokens : List Token) :
    relocation.Carries ended tokens True
      (Prod.map (Stmt.markList relocation.marking) relocation.move) (readStatements tokens)
      (readStatements (relocation.tokens tokens)) := by
  rw [readStatements, readStatements]
  rcases relocation.kind?_cases .rightBrace tokens with ⟨close, found, found'⟩ | ⟨found, unseen⟩
  · simp only [found, found']
    exact .seen found (.give (fun _ => trivial) rfl rfl)
  · simp only [found]
    by_cases some : tokens.isEmpty = true
    · simp only [some, if_true]
      refine .settled (fun alone => ?_) (.fail rfl)
      have hides : relocation.Hides tokens := .inr alone
      simp only [unseen hides, isEmpty_tokens hides, some, if_true]
      rfl
    · refine .unseen (fun hides => by simp only [unseen hides, isEmpty_tokens hides]; rfl) ?_
      simp only [some]
      refine .bind (readStatement_carries tokens) fun first => ?_
      refine .bind (readStatements_carries first.rest) fun more => ?_
      exact .give (fun _ => trivial) rfl rfl
termination_by 2 * tokens.length + 1
decreasing_by
  · omega
  · have := first.shorter; omega

end

section Declarations
variable (tokens : List Token)

theorem readFormal_carries :
    relocation.Carries ended tokens False (Formal.mark relocation.marking) (readFormal tokens)
      (readFormal (relocation.tokens tokens)) := by
  rw [readFormal, readFormal]
  refine .bind (readType_carries tokens) fun type => ?_
  refine .bind (readName_carries type.rest) fun name => ?_
  refine .give (fun _ => trivial) rfl ?_
  simp [Formal.mark, relocation.merge, typeName, Relocation.name]

theorem readMoreFormals_carries {ended : Prop} (tokens : List Token) :
    relocation.Carries ended tokens False (List.map (Formal.mark relocation.marking))
      (readMoreFormals tokens) (readMoreFormals (relocation.tokens tokens)) := by
  rw [readMoreFormals, readMoreFormals]
  refine .bind (readFormal_carries tokens) fun first => ?_
  rcases relocation.kind?_cases .comma first.rest with ⟨comma, found, found'⟩ | ⟨found, unseen⟩
  · simp only [rest_reading, found, found']
    refine .seen found (.bind (readMoreFormals_carries comma.rest) fun more => ?_)
    exact .give id rfl rfl
  · simp only [found]
    refine .unseen (fun hides => by simp only [rest_reading, unseen hides]; rfl) ?_
    refine .bind (readKind_carries first.rest .rightParen) fun close => ?_
    exact .give (fun _ => trivial) rfl rfl
termination_by tokens.length
decreasing_by have := first.shorter; have := comma.shorter; omega

theorem readFormals_carries :
    relocation.Carries ended tokens False (List.map (Formal.mark relocation.marking))
      (readFormals tokens) (readFormals (relocation.tokens tokens)) := by
  rw [readFormals, readFormals]
  rcases relocation.kind?_cases .rightParen tokens with ⟨close, found, found'⟩ | ⟨found, unseen⟩
  · simp only [found, found']
    exact .seen found (.give (fun _ => trivial) rfl rfl)
  · simp only [found]
    refine .unseen (fun hides => by simp only [unseen hides]; rfl) ?_
    exact readMoreFormals_carries tokens

theorem readBlock_carries :
    relocation.Carries ended tokens True
      (Prod.map (Stmt.markList relocation.marking) relocation.move) (readBlock tokens)
      (readBlock (relocation.tokens tokens)) := by
  rw [readBlock, readBlock]
  refine .bind (readKind_carries tokens .leftBrace) fun brace => ?_
  refine .bind (readStatements_carries brace.rest) fun body => ?_
  exact .give (fun _ => trivial) rfl (by simp [relocation.merge])

theorem readField_carries (start : Span) (type : Ty) (name : String) :
    relocation.Carries ended tokens True (Field.mark relocation.marking)
      (readField start type name tokens)
      (readField (relocation.move start) type name (relocation.tokens tokens)) := by
  rw [readField, readField]
  rcases relocation.kind?_cases .assign tokens with ⟨sign, found, found'⟩ | ⟨found, unseen⟩
  · simp only [found, found']
    refine .seen found (.bind (readExpr_carries sign.rest) fun init => ?_)
    refine .bind (readKind_carries init.rest .semicolon) fun close => ?_
    refine .give (fun _ => trivial) rfl ?_
    simp [Field.mark, Expr.markOption, relocation.merge]
  · simp only [found]
    refine .unseen (fun hides => by simp only [unseen hides]; rfl) ?_
    refine .bind (readKind_carries tokens .semicolon) fun close => ?_
    refine .give (fun _ => trivial) rfl ?_
    simp [Field.mark, Expr.markOption, relocation.merge]

theorem readMethod_carries (start : Span) (returns : Ty) (name : String) :
    relocation.Carries ended tokens True (Method.mark relocation.marking)
      (readMethod start returns name tokens)
      (readMethod (relocation.move start) returns name (relocation.tokens tokens)) := by
  rw [readMethod, readMethod]
  refine .bind (readFormals_carries tokens) fun formals => ?_
  refine .bind (readBlock_carries formals.rest) fun body => ?_
  exact .give (fun _ => trivial) rfl (by simp [Method.mark, relocation.merge])

theorem readMember_carries :
    relocation.Carries ended tokens True (Member.mark relocation.marking) (readMember tokens)
      (readMember (relocation.tokens tokens)) := by
  rw [readMember, readMember]
  refine .bind (readType_carries tokens) fun type => ?_
  refine .bind (readName_carries type.rest) fun name => ?_
  rcases relocation.kind?_cases .leftParen name.rest with ⟨paren, found, found'⟩ | ⟨found, unseen⟩
  · simp only [rest_reading, found, found']
    refine .seen found (.bind (readMethod_carries paren.rest _ _ _) fun method => ?_)
    exact .give (fun _ => trivial) rfl rfl
  · simp only [found]
    refine .unseen (fun hides => by simp only [rest_reading, unseen hides]; rfl) ?_
    refine .bind (readField_carries name.rest _ _ _) fun field => ?_
    exact .give (fun _ => trivial) rfl rfl

theorem readMembers_carries {ended : Prop} (tokens : List Token) :
    relocation.Carries ended tokens True
      (Prod.map (List.map (Member.mark relocation.marking)) relocation.move) (readMembers tokens)
      (readMembers (relocation.tokens tokens)) := by
  rw [readMembers, readMembers]
  rcases relocation.kind?_cases .rightBrace tokens with ⟨close, found, found'⟩ | ⟨found, unseen⟩
  · simp only [found, found']
    exact .seen found (.give (fun _ => trivial) rfl rfl)
  · simp only [found]
    by_cases some : tokens.isEmpty = true
    · simp only [some, if_true]
      refine .settled (fun alone => ?_) (.fail rfl)
      have hides : relocation.Hides tokens := .inr alone
      simp only [unseen hides, isEmpty_tokens hides, some, if_true]
      rfl
    · refine .unseen (fun hides => by simp only [unseen hides, isEmpty_tokens hides]; rfl) ?_
      simp only [some]
      refine .bind (readMember_carries tokens) fun first => ?_
      refine .bind (readMembers_carries first.rest) fun more => ?_
      exact .give (fun _ => trivial) rfl rfl
termination_by tokens.length
decreasing_by exact first.shorter

theorem readClassHead_carries :
    relocation.Carries ended tokens False id (readClassHead tokens)
      (readClassHead (relocation.tokens tokens)) := by
  rw [readClassHead, readClassHead]
  refine .bind (readName_carries tokens) fun name => ?_
  rcases relocation.word?_cases "extends" name.rest with ⟨word, found, found'⟩ | ⟨found, unseen⟩
  · simp only [rest_reading, found, found']
    refine .seen found (.bind (readName_carries word.rest) fun parent => ?_)
    exact .give (fun _ => trivial) rfl rfl
  · simp only [found]
    refine .unseen (fun hides => by simp only [rest_reading, unseen hides]; rfl) ?_
    exact .give id rfl rfl

theorem readClass_carries (file : String) :
    relocation.Carries ended tokens True (ClassDecl.mark relocation.marking) (readClass file tokens)
      (readClass file (relocation.tokens tokens)) := by
  rw [readClass, readClass]
  refine .bind (readWord_carries tokens "class") fun word => ?_
  refine .bind (readClassHead_carries word.rest) fun head => ?_
  refine .bind (readKind_carries head.rest .leftBrace) fun brace => ?_
  refine .bind (readMembers_carries brace.rest) fun body => ?_
  exact .give (fun _ => trivial) rfl (by simp [ClassDecl.mark, relocation.merge])

end Declarations

section Classes
variable {file : String}

theorem Carries.eq_outcome {α β : Type} {base tokens : List Token} {closed : Prop} {image : α → β}
    {outcome : Outcome α tokens} {moved : Outcome β (relocation.tokens tokens)}
    (carries : relocation.Carries ended base closed image outcome moved)
    (alone : relocation.behind = []) : moved = relocation.outcome image outcome := by
  cases outcome with
  | ok reading => exact (carries (.inr (.inr alone))).2
  | error failure => exact (carries alone).2

/-- Tokens in another place, with nothing behind, are the same classes there, or the same failure.
-/
theorem readClasses_moved (alone : relocation.behind = []) (tokens : List Token) :
    readClasses file (relocation.tokens tokens) =
      ((readClasses file tokens).map (List.map (ClassDecl.mark relocation.marking))).mapError
        relocation.failure := by
  rw [readClasses, readClasses.eq_def file tokens, isEmpty_tokens (.inr alone)]
  split
  · rfl
  · rw [(@readClass_carries relocation True tokens file).eq_outcome alone]
    cases readClass file tokens with
    | error failure => rfl
    | ok first =>
      have others := readClasses_moved alone first.rest
      show (readClasses file (relocation.tokens first.rest) >>= _) =
        ((readClasses file first.rest >>= _).map _).mapError _
      rw [others]
      cases readClasses file first.rest <;> rfl
termination_by tokens.length
decreasing_by exact first.shorter

/-- Classes end with their own tokens: those that stand behind are read as if they stood alone. -/
theorem readClasses_behind {tokens : List Token} {classes : List ClassDecl}
    (read : readClasses file tokens = .ok classes) :
    readClasses file (relocation.tokens tokens) = (readClasses file relocation.behind).map
      (classes.map (ClassDecl.mark relocation.marking) ++ ·) := by
  rw [readClasses] at read
  split at read
  · next noneLeft =>
    cases read
    rw [List.isEmpty_iff.mp noneLeft]
    show readClasses file relocation.behind = _
    cases readClasses file relocation.behind <;> rfl
  · next some =>
    obtain ⟨first, readFirst, read⟩ := bind_eq_ok.mp read
    obtain ⟨others, readOthers, read⟩ := bind_eq_ok.mp read
    cases read
    have carries := @readClass_carries relocation True tokens file
    rw [readFirst] at carries
    have moved := (carries (.inl trivial)).2
    have some' : ¬ (relocation.tokens tokens).isEmpty = true := by
      rw [isEmpty_tokens (.inl fun none => some (List.isEmpty_iff.mpr none))]
      exact some
    rw [readClasses, if_neg some', moved]
    show (readClasses file (relocation.tokens first.rest) >>= _) = _
    rw [readClasses_behind readOthers]
    cases readClasses file relocation.behind <;> rfl
termination_by tokens.length
decreasing_by exact first.shorter

end Classes

section Parses
variable (relocation)

def syntaxError : SyntaxError → SyntaxError
  | .unexpected expectation found => .unexpected expectation (relocation.token found)
  | .invalidTarget span => .invalidTarget (relocation.move span)

def diagnostic (diagnostic : Diagnostic) : Diagnostic :=
  { diagnostic with span := relocation.move diagnostic.span }

def parser (parser : Parser) : Parser where
  file := parser.file
  finish := relocation.token parser.finish
  unread := relocation.tokens parser.unread
  reported := parser.reported.map relocation.diagnostic

theorem detail_syntaxError (error : SyntaxError) :
    (relocation.syntaxError error).detail = error.detail := by
  cases error <;> rfl

theorem span_syntaxError (error : SyntaxError) :
    (relocation.syntaxError error).span = relocation.move error.span := by
  cases error <;> rfl

theorem toDiagnostic_moved (file : String) (error : SyntaxError) :
    (relocation.syntaxError error).toDiagnostic file =
      relocation.diagnostic (error.toDiagnostic file) := by
  cases error <;> rfl

theorem lexicalDiagnostics_moved (file : String) (tokens : List Token) :
    lexicalDiagnostics file (tokens.map relocation.token) =
      (lexicalDiagnostics file tokens).map relocation.diagnostic := by
  rw [lexicalDiagnostics, List.filterMap_map, lexicalDiagnostics, List.map_filterMap]
  congr 1
  funext token
  rw [Function.comp, Token.diagnostic?, Token.diagnostic?,
    apply_ite (Option.map relocation.diagnostic)]
  rfl

variable {relocation}
variable (alone : relocation.behind = [])
include alone

theorem tokens_eq_map (tokens : List Token) :
    relocation.tokens tokens = tokens.map relocation.token := by
  rw [Relocation.tokens, alone, List.append_nil]

theorem ofFailure_moved (finish : Token) (failure : Failure) :
    SyntaxError.ofFailure (relocation.token finish) (relocation.failure failure) =
      relocation.syntaxError (SyntaxError.ofFailure finish failure) := by
  obtain ⟨obstacle, rest⟩ := failure
  cases obstacle with
  | invalidTarget => rfl
  | expected expectation =>
    show SyntaxError.unexpected expectation ((relocation.tokens rest).head?.getD _) = _
    rw [tokens_eq_map alone, List.head?_map, Option.getD_map]
    rfl

theorem goTo_moved (parser : Parser) (rest : List Token) :
    (relocation.parser parser).goTo (relocation.tokens rest) =
      relocation.parser (parser.goTo rest) := by
  have reached : (((relocation.tokens parser.unread).drop 1).take
      ((relocation.tokens parser.unread).length - (relocation.tokens rest).length)) =
        ((parser.unread.drop 1).take (parser.unread.length - rest.length)).map relocation.token := by
    simp only [tokens_eq_map alone, List.length_map, List.map_take, List.map_drop]
  simp only [Parser.goTo, Relocation.parser, reached, lexicalDiagnostics_moved, List.map_append]

/-- A parser in another place parses the same, there. -/
theorem parse_moved (parser : Parser) :
    (relocation.parser parser).parse =
      ((parser.parse.1.map (Program.mark relocation.marking)).mapError relocation.syntaxError,
        relocation.parser parser.parse.2) := by
  have file : (relocation.parser parser).file = parser.file := rfl
  have unread : (relocation.parser parser).unread = relocation.tokens parser.unread := rfl
  rw [Parser.parse, Parser.parse, file, unread, readClasses_moved alone]
  cases readClasses parser.file parser.unread with
  | ok classes =>
    refine Prod.ext rfl ?_
    show (relocation.parser parser).goTo [] = relocation.parser (parser.goTo [])
    rw [← goTo_moved alone, tokens_eq_map alone, List.map_nil]
  | error failure =>
    have error := ofFailure_moved alone parser.finish failure
    refine Prod.ext (congrArg Except.error error) ?_
    have stopped := goTo_moved alone parser failure.rest
    show { (relocation.parser parser).goTo (relocation.tokens failure.rest) with
      reported := ((relocation.parser parser).goTo (relocation.tokens failure.rest)).reported ++
        [(SyntaxError.ofFailure (relocation.token parser.finish)
          (relocation.failure failure)).toDiagnostic parser.file] } = _
    rw [stopped, error, toDiagnostic_moved]
    simp [Relocation.parser]

end Parses

end Bantam.Relocation
