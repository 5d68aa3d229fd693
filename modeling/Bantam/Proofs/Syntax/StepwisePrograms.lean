import Bantam.Proofs.Syntax.ProgramLocated
import Bantam.Proofs.Syntax.RememberedPrograms
import Bantam.Proofs.Syntax.StepwiseExpressions

/-! Programs, step by step. The stepwise parser reads statements, members and classes as the parser
that remembers parentheses. All that it looks at to tell a declaration from an expression it takes
before it can fail. -/
namespace Bantam.Stepwise
open Remembered (Run)

section
variable {source : String} {α β γ : Type} {tokens : List Token} {state : State}

theorem follows_parseOptional {closing : Kind} (real : closing ≠ .endOfInput)
    (here : state.At source 0 tokens) :
    Follows source (upTo closing (parseOptional closing)) Reading.value
      (Remembered.readClause closing tokens) state := by
  rw [upTo, parseOptional, Remembered.readClause, bind_assoc]
  refine .check real here ?_
  cases closes : readKind? closing tokens with
  | some close =>
    simp only [Option.isSome_some, if_true, pure_bind]
    refine .expectSome (sees_kind real) here closes fun after here _ => ?_
    exact .pure here rfl
  | none =>
    simp only [Option.isSome_none, Bool.false_eq_true, if_false, bind_assoc, pure_bind]
    refine (follows_parseExpr here.ready).bind fun expr after here _ => ?_
    refine (follows_expectKind real here).bind fun close after here _ => ?_
    exact .pure here rfl

theorem follows_parseCondition (here : state.At source 0 tokens) :
    Follows source parseCondition Reading.value (Remembered.readCondition tokens) state := by
  refine (follows_expectKind (by decide) here).bind fun paren after here _ => ?_
  refine (follows_parseExpr here.ready).bind fun condition after here _ => ?_
  refine (follows_expectKind (by decide) here).bind fun close after here _ => ?_
  exact .pure here rfl

theorem follows_parseLoopHead (here : state.At source 0 tokens) :
    Follows source parseLoopHead Reading.value (Remembered.readLoopHead tokens) state := by
  refine (follows_expectKind (by decide) here).bind fun paren after here _ => ?_
  refine .upTo (follows_parseOptional (by decide) here) fun init after here _ => ?_
  refine .upTo (follows_parseOptional (by decide) here) fun condition after here _ => ?_
  refine .upTo (follows_parseOptional (by decide) here) fun update after here _ => ?_
  exact .pure here rfl

theorem follows_parseDeclaration (here : state.At source (foreseen tokens) tokens) :
    Follows source parseDeclaration Reading.value (Remembered.readDeclaration tokens) state := by
  refine .current (.type here fun type after span here _ => ?_)
  refine (follows_expectName here).bind fun name after here _ => ?_
  refine (follows_expectKind (by decide) here).bind fun sign after here _ => ?_
  refine (follows_parseExpr here.ready).bind fun init after here _ => ?_
  refine (follows_expectKind (by decide) here).bind fun close after here _ => ?_
  rw [← span]
  exact .pure here rfl

theorem follows_parseEffect (here : state.At source (foreseen tokens) tokens) :
    Follows source parseEffect Reading.value (Remembered.readEffect tokens) state := by
  refine (follows_parseExpr here).bind fun expr after here _ => ?_
  refine (follows_expectKind (by decide) here).bind fun close after here _ => ?_
  exact .pure here rfl

theorem isKeyword_of_opening {word : String} {opening : Opening}
    (opens : Opening.ofKeyword? word = some opening) :
    isKeyword word = true ∧ opening ≠ .block := by
  unfold Opening.ofKeyword? at opens
  split at opens <;> cases opens <;> exact ⟨by decide, by decide⟩

theorem sees_opening : Sees Opening.ofToken? := by
  intro token isEnd
  rw [Opening.ofToken?, isEnd]

theorem apart_of_opening : Apart Opening.ofToken? Name.ofToken? := by
  intro token opening chosen
  rw [Opening.ofToken?] at chosen
  split at chosen
  · next isBrace => simp [Name.ofToken?, Token.isName, isBrace]
  · obtain ⟨form, spelled, -⟩ := Option.map_eq_some_iff.mp chosen
    simp [Name.ofToken?, Token.isName, (isKeyword_of_opening spelled).1]
  · contradiction

theorem startsDeclaration_of_ne {word : Token} (noWord : word.kind ≠ .identifier) :
    startsDeclaration (word :: tokens) = false := by
  cases tokens with
  | nil => rfl
  | cons next rest => simp [startsDeclaration, Token.isName, noWord]

theorem startsDeclaration_eq {word : Token} (isWord : word.kind = .identifier) :
    startsDeclaration (word :: tokens) = declares word tokens := by
  have ended : (Kind.endOfInput == Kind.rightBracket) = false := by decide
  match tokens with
  | [] => simp [startsDeclaration, declares, kindAt]
  | [next] => simp [startsDeclaration, declares, kindAt, Token.isName, isWord, ended]
  | next :: other :: rest =>
    simp [startsDeclaration, declares, kindAt, Token.isName, isWord]

/-- Another value can be taken from the token that was read. -/
theorem readToken?_again {choose : Token → Option α} (other : Token → Option β)
    {reading : Reading α tokens} {value : β} (unread : state.unread = tokens)
    (read : readToken? choose tokens = some reading) (chosen : other state.current = some value) :
    readToken? other tokens = some (reading.give value) := by
  cases tokens with
  | nil => cases read
  | cons token rest =>
    obtain ⟨-, -, rfl⟩ := Option.map_eq_some_iff.mp read
    rw [(current_of_unread unread).1] at chosen
    rw [readToken?, chosen]
    rfl

/-- To tell a declaration, the parser looks at what comes behind a word. -/
theorem Follows.atDeclaration {front : List Token} {next : Bool → Action γ}
    {view : Reading β tokens → γ} {reader : Run β tokens} (here : state.At source 0 front)
    (isWord : state.current.kind = .identifier)
    (goesOn : ∀ after, after.At source (foreseen front) front →
      Follows source (next (declares state.current (significant state.stream.pending))) view reader
        after) :
    Follows source (atDeclaration >>= next) view reader state := by
  obtain ⟨stream, runs, looked, few⟩ := runs_atDeclaration state
  have split : state.current :: significant state.stream.pending = front := by
    rw [← here.unread, State.unread, if_neg (by rw [isWord]; decide)]
  have ahead := few isWord here.ahead.eq_nil
  rw [split] at ahead
  have unread := (passes_looked looked).unread.symm.trans here.unread
  apply skip runs rfl looked.leads.sameFile looked.leads.account
  exact goesOn { state with stream } ⟨unread, here.inside, here.known, ahead⟩

theorem atEnd_eq (unread : state.unread = tokens) :
    (state.current.kind == .endOfInput) = tokens.isEmpty := by
  cases tokens with
  | nil => exact beq_of_eq (current_of_unread_nil unread)
  | cons token rest => exact beq_false_of_ne (current_of_unread unread).2

theorem Follows.atEnd {next : Bool → Action γ} {view : Reading β tokens → γ}
    {reader : Run β tokens} {front : List Token} (here : state.At source 0 front)
    (goesOn : Follows source (next front.isEmpty) view reader state) :
    Follows source (atEnd >>= next) view reader state := by
  rw [← atEnd_eq here.unread] at goesOn
  exact .get goesOn

/-- A loop that goes on up to a closing brace is a reader of items up to that brace. -/
theorem Follows.items {item : Action α} {procedure : Procedure (List α)}
    (isLoop : procedure.body = collect (braceRound item) (Stepwise.call procedure))
    {one : Run α tokens} {others : (rest : List Token) → Run (List α × Span) rest}
    (here : state.At source 0 tokens) (first : Follows source item Reading.value one state)
    (again : ∀ (reading : Reading α tokens) after, after.At source 0 reading.rest →
      Follows source (Stepwise.upTo .rightBrace (Stepwise.call procedure)) Reading.value
        (others reading.rest) after) :
    Follows source (Stepwise.upTo .rightBrace (Stepwise.call procedure)) Reading.value
      (match readKind? .rightBrace tokens with
      | some close => return close.give ([], close.value)
      | none => do
        if tokens.isEmpty then throw ⟨.expected (.kind .rightBrace), tokens⟩
        let first ← one
        let more ← others first.rest
        return (first.followedBy more).give (first.value :: more.value.1, more.value.2)) state := by
  refine .callBind ?_
  rw [isLoop, collect, braceRound]
  simp only [bind_assoc]
  refine .check (by decide) here (.atEnd here ?_)
  cases closes : readKind? .rightBrace tokens with
  | some close =>
    simp only [Option.isSome_some, Bool.true_or, if_true, pure_bind]
    refine .expectSome (sees_kind (by decide)) here closes fun after here _ => ?_
    exact .pure here rfl
  | none =>
    simp only [Option.isSome_none, Bool.false_or]
    cases tokens with
    | nil =>
      simp only [List.isEmpty_nil, if_true, pure_bind]
      exact .bindFailed (.acceptNone (sees_kind (by decide)) here closes (.unexpected here))
    | cons token rest =>
      simp only [List.isEmpty_cons, Bool.false_eq_true, if_false, bind_assoc, pure_bind]
      refine first.bind fun reading after here _ => ?_
      refine .upTo (again reading after here) fun more after here _ => ?_
      exact .pure here rfl

/-- What a statement is that begins with a brace or one of the keywords. -/
def parseOpened (start : Span) : Opening → Action Stmt
  | .block => do
    let (body, span) ← parseBlock
    return .block span body
  | .branch => parseBranch
  | .whileLoop => parseWhile
  | .forLoop => parseFor
  | .giveBack => parseReturn
  | .leave => do
    let _ ← advance
    let close ← expectKind .semicolon
    return .leave (start.merge close)

section Openings
variable {view : Reading β tokens → Stmt} {reader : Run β tokens}

theorem Follows.opened {opening : Reading (Opening × Span) tokens} (here : state.At source 0 tokens)
    (opens : readToken? Opening.ofToken? tokens = some opening)
    (goesOn : ∀ after, after.At source 0 tokens →
      Follows source (parseOpened opening.value.2 opening.value.1) view reader after) :
    Follows source parseStatement view reader state := by
  have chosen := (choose_of_some here.unread opens).1
  rw [Opening.ofToken?] at chosen
  split at chosen
  · next isBrace =>
    rw [← Option.some.inj chosen] at goesOn
    refine .call (.current ?_)
    simp only [isBrace]
    exact goesOn state here
  · next isWord =>
    obtain ⟨form, spelled, same⟩ := Option.map_eq_some_iff.mp chosen
    obtain ⟨reserved, noBlock⟩ := isKeyword_of_opening spelled
    rw [← same] at goesOn
    refine .call (.current ?_)
    simp only [isWord]
    refine .atDeclaration here isWord fun after there => ?_
    have further := goesOn after (there.calm (apart_of_opening.eq_none opens))
    simp only [declares, reserved, Bool.not_true, Bool.false_and, Bool.false_eq_true, if_false,
      spelled]
    cases form with
    | block => contradiction
    | branch | whileLoop | forLoop | giveBack | leave => exact further
  · contradiction

theorem follows_unopened (here : state.At source 0 tokens)
    (unopened : readToken? Opening.ofToken? tokens = none) :
    Follows source parseStatement Reading.value
      (if startsDeclaration tokens then Remembered.readDeclaration tokens
        else Remembered.readEffect tokens) state := by
  have rejected := choose_of_none sees_opening here.unread unopened
  refine .call (.current ?_)
  split
  · next isBrace =>
    rw [Opening.ofToken?, isBrace] at rejected
    cases rejected
  · next isWord =>
    have unspelled : Opening.ofKeyword? state.current.spelling = none := by
      simpa [Opening.ofToken?, isWord] using rejected
    have begins : startsDeclaration tokens =
        declares state.current (significant state.stream.pending) := by
      rw [← here.unread, State.unread, if_neg (by rw [isWord]; decide), startsDeclaration_eq isWord]
    refine .atDeclaration here isWord fun after here => ?_
    rw [begins, unspelled]
    split
    · exact follows_parseDeclaration here
    · exact follows_parseEffect here
  · next noWord =>
    have begins : startsDeclaration tokens = false := by
      cases tokens with
      | nil => rfl
      | cons token rest =>
        rw [← (current_of_unread here.unread).1]
        exact startsDeclaration_of_ne noWord
    simp only [begins, Bool.false_eq_true, if_false]
    exact follows_parseEffect here.ready

end Openings

mutual

theorem follows_parseStatement {tokens : List Token} {state : State}
    (here : state.At source 0 tokens) :
    Follows source parseStatement Reading.value (Remembered.readStatement tokens) state := by
  rw [Remembered.readStatement]
  cases opens : readToken? Opening.ofToken? tokens with
  | none => exact follows_unopened here opens
  | some opening =>
    refine .opened here opens fun state here => ?_
    have chosen := (choose_of_some here.unread opens).1
    have begins := Opening.begins_of_ofToken? chosen
    have span := Opening.span_of_ofToken? chosen
    have fewer := opening.shorter
    have word {text : String} (isWord : state.current.isWord text) :
        readWord? text tokens = some (opening.give opening.value.2) :=
      span ▸ readToken?_again _ here.unread opens (if_pos isWord)
    dsimp only
    cases form : opening.value.1 with
    | block =>
      rw [form] at begins
      have brace : readKind? .leftBrace tokens = some (opening.give opening.value.2) :=
        span ▸ readToken?_again _ here.unread opens (if_pos begins)
      rw [parseOpened, parseBlock, bind_assoc]
      refine .expectSome (sees_kind (by decide)) here brace fun after here _ => ?_
      simp only [bind_assoc, pure_bind]
      refine .upTo (follows_parseStatements here) fun body after here _ => ?_
      exact .pure here rfl
    | branch =>
      rw [form] at begins
      rw [parseOpened, parseBranch]
      refine .expectSome (sees_word "if") here (word begins) fun after here _ => ?_
      refine (follows_parseCondition here).bind fun condition after here _ => ?_
      have fewer' : condition.rest.length < opening.rest.length := condition.shorter
      refine (follows_parseStatement here).bind fun thenBranch after here _ => ?_
      have fewer'' := thenBranch.shorter
      dsimp only
      cases elses : readWord? "else" thenBranch.rest with
      | none =>
        refine .acceptNone (sees_word "else") here elses ?_
        exact .pure here rfl
      | some word =>
        have fewest := word.shorter
        refine .acceptSome (sees_word "else") here elses fun after here _ => ?_
        refine (follows_parseStatement here).bind fun elseBranch after here _ => ?_
        exact .pure here rfl
    | whileLoop =>
      rw [form] at begins
      rw [parseOpened, parseWhile]
      refine .expectSome (sees_word "while") here (word begins) fun after here _ => ?_
      refine (follows_parseCondition here).bind fun condition after here _ => ?_
      have fewer' : condition.rest.length < opening.rest.length := condition.shorter
      refine (follows_parseStatement here).bind fun body after here _ => ?_
      exact .pure here rfl
    | forLoop =>
      rw [form] at begins
      rw [parseOpened, parseFor]
      refine .expectSome (sees_word "for") here (word begins) fun after here _ => ?_
      refine (follows_parseLoopHead here).bind fun head after here _ => ?_
      have fewer' : head.rest.length < opening.rest.length := head.shorter
      refine (follows_parseStatement here).bind fun body after here _ => ?_
      exact .pure here rfl
    | giveBack =>
      rw [form] at begins
      rw [parseOpened, parseReturn]
      refine .expectSome (sees_word "return") here (word begins) fun after here _ => ?_
      refine .upTo (follows_parseOptional (by decide) here) fun value after here _ => ?_
      exact .pure here rfl
    | leave =>
      rw [parseOpened]
      refine .advance here opens fun after here _ => ?_
      refine (follows_expectKind (by decide) here).bind fun close after here _ => ?_
      exact .pure here rfl
termination_by descent tokens 0
decreasing_by all_goals simp only [descent]; omega

theorem follows_parseStatements {tokens : List Token} {state : State}
    (here : state.At source 0 tokens) :
    Follows source (upTo .rightBrace parseStatements) Reading.value
      (Remembered.readStatements tokens) state := by
  rw [Remembered.readStatements]
  refine .items rfl here (follows_parseStatement here) ?_
  intro first after here
  have fewer := first.shorter
  exact follows_parseStatements here
termination_by descent tokens 1
decreasing_by all_goals simp only [descent]; omega

end

theorem follows_parseBlock (here : state.At source 0 tokens) :
    Follows source parseBlock Reading.value (Remembered.readBlock tokens) state := by
  rw [parseBlock]
  refine (follows_expectKind (by decide) here).bind fun brace after here _ => ?_
  refine .upTo (follows_parseStatements here) fun body after here _ => ?_
  exact .pure here rfl

theorem follows_parseFormal (here : state.At source 0 tokens) :
    Follows source parseFormal Reading.value (liftM (readFormal tokens)) state := by
  rw [readFormal]
  simp only [liftM_bind]
  refine .current (.type here.ready fun type after span here _ => ?_)
  refine (follows_expectName here).bind fun name after here _ => ?_
  rw [← span]
  exact .pure here rfl

theorem follows_moreFormals {front tokens : List Token} {next : List Formal → Action β}
    {view : Reading γ tokens → β} {more : Reading (List Formal) front → Run γ tokens}
    {state : State} (here : state.At source 0 front)
    (goesOn : ∀ reading after, after.At source 0 reading.rest →
      Follows source (next reading.value) view (more reading) after) :
    Follows source (do
      let formals ← parseMoreFormals
      let _ ← expectKind .rightParen
      next formals) view (liftM (readMoreFormals front) >>= more) state := by
  refine .callBind ?_
  rw [Procedure.body, moreFormals, separated, commaRound, readMoreFormals]
  simp only [bind_assoc, liftM_bind, pure_bind]
  refine (follows_parseFormal here).bind fun first after here _ => ?_
  have fewer := first.shorter
  cases commas : readKind? .comma first.rest with
  | some comma =>
    have fewer' := comma.shorter
    refine .acceptSome (sees_kind (by decide)) here commas fun after here _ => ?_
    simp only [Option.isSome_some, if_true, bind_assoc, liftM_bind, pure_bind]
    exact follows_moreFormals here fun others after here => goesOn _ after here
  | none =>
    refine .acceptNone (sees_kind (by decide)) here commas ?_
    simp only [Option.isSome_none, Bool.false_eq_true, if_false, pure_bind, liftM_bind, bind_assoc]
    refine (follows_expectKind (by decide) here).bind fun close after here _ => ?_
    exact goesOn _ after here
termination_by front.length
decreasing_by omega

theorem follows_formals {front : List Token} {next : List Formal → Action β}
    {view : Reading γ tokens → β} {more : Reading (List Formal) front → Run γ tokens}
    (here : state.At source 0 front)
    (goesOn : ∀ reading after, after.At source 0 reading.rest →
      Follows source (next reading.value) view (more reading) after) :
    Follows source (do
      let formals ← parseFormals
      let _ ← expectKind .rightParen
      next formals) view (liftM (readFormals front) >>= more) state := by
  rw [parseFormals, readFormals, bind_assoc]
  refine .check (by decide) here ?_
  cases closes : readKind? .rightParen front with
  | some close =>
    refine .expectSome (sees_kind (by decide)) here closes fun after here _ => ?_
    exact goesOn _ after here
  | none => exact follows_moreFormals here goesOn

theorem follows_parseMember (here : state.At source 0 tokens) :
    Follows source parseMember Reading.value (Remembered.readMember tokens) state := by
  refine .current (.type here.ready fun type after span here _ => ?_)
  refine (follows_expectName here).bind fun name after here _ => ?_
  rw [← span]
  cases parens : readKind? .leftParen name.rest with
  | some paren =>
    refine .acceptSome (sees_kind (by decide)) here parens fun after here _ => ?_
    dsimp only
    rw [Remembered.readMethod, bind_assoc]
    refine follows_formals here fun formals after here => ?_
    rw [bind_assoc]
    refine (follows_parseBlock here).bind fun body after here _ => ?_
    exact .pure here rfl
  | none =>
    refine .acceptNone (sees_kind (by decide)) here parens ?_
    dsimp only
    rw [parseInit, Remembered.readField, bind_assoc]
    cases assigns : readKind? .assign name.rest with
    | some sign =>
      refine .acceptSome (sees_kind (by decide)) here assigns fun after here _ => ?_
      simp only [bind_assoc, pure_bind]
      refine (follows_parseExpr here.ready).bind fun init after here _ => ?_
      refine (follows_expectKind (by decide) here).bind fun close after here _ => ?_
      exact .pure here rfl
    | none =>
      refine .acceptNone (sees_kind (by decide)) here assigns ?_
      simp only [bind_assoc, pure_bind]
      refine (follows_expectKind (by decide) here).bind fun close after here _ => ?_
      exact .pure here rfl

theorem follows_parseMembers {tokens : List Token} {state : State}
    (here : state.At source 0 tokens) :
    Follows source (upTo .rightBrace parseMembers) Reading.value
      (Remembered.readMembers tokens) state := by
  rw [Remembered.readMembers]
  refine .items rfl here (follows_parseMember here) ?_
  intro first after here
  have fewer := first.shorter
  exact follows_parseMembers here
termination_by tokens.length

theorem follows_classHead {front : List Token} {next : Name → Option String → Action β}
    {view : Reading γ tokens → β} {more : Reading (String × Option String) front → Run γ tokens}
    (here : state.At source 0 front)
    (goesOn : ∀ name reading after, reading.value.1 = name.text → after.At source 0 reading.rest →
      after.stream.file = state.stream.file →
      Follows source (next name reading.value.2) view (more reading) after) :
    Follows source (do
      let name ← expectName
      let parent ← parseParent
      next name parent) view (liftM (readClassHead front) >>= more) state := by
  rw [parseParent, readClassHead]
  simp only [bind_assoc, liftM_bind]
  refine (follows_expectName here).bind fun name after here file => ?_
  cases extending : readWord? "extends" name.rest with
  | some word =>
    refine .acceptSome (sees_word "extends") here extending fun after here file' => ?_
    simp only [bind_assoc, pure_bind, liftM_bind]
    refine (follows_expectName here).bind fun parent after here file'' => ?_
    exact goesOn name.value _ after rfl here (file''.trans (file'.trans file))
  | none =>
    refine .acceptNone (sees_word "extends") here extending ?_
    simp only [pure_bind]
    exact goesOn name.value _ after rfl here file

theorem follows_parseClass (here : state.At source 0 tokens) :
    Follows source parseClass Reading.value (Remembered.readClass state.stream.file tokens)
      state := by
  refine (Follows.expect (sees_word "class") here).bind fun word after here atWord => ?_
  refine follows_classHead here fun name head after named here atHead => ?_
  refine (follows_expectKind (by decide) here).bind fun brace after here atBrace => ?_
  refine .upTo (follows_parseMembers here) fun members after here atEnd => ?_
  have sameFile : after.stream.file = state.stream.file := by
    rw [atEnd, atBrace, atHead, atWord]
  refine .get ?_
  rw [← named, sameFile]
  exact .pure here rfl

theorem readClasses_of_class {file : String} {grouped : Option Span}
    (more : tokens.isEmpty = false) :
    Remembered.readClasses file tokens grouped =
      match Remembered.readClass file tokens grouped with
      | .error failure => .error failure
      | .ok (first, later) => (Remembered.readClasses file first.rest later).map fun others =>
        (first.value :: others.1, others.2) := by
  rw [Remembered.readClasses, if_neg (by simp [more])]
  show (Remembered.readClass file tokens grouped >>= _) = _
  rcases Remembered.readClass file tokens grouped with failure | ⟨first, later⟩
  · rfl
  · show (Remembered.readClasses file first.rest later >>= _) = Except.map _ _
    rcases Remembered.readClasses file first.rest later with failure | ⟨others, last⟩ <;> rfl

/-- The loop comes to the same end as the reader of all classes. -/
theorem follows_parseClasses {tokens : List Token} {state : State}
    (here : state.At source 0 tokens) :
    match Remembered.readClasses state.stream.file tokens state.grouped with
    | .error failure => ∃ stopped,
      Runs parseClasses state (.error (.ofFailure stopped.current failure))
        (stopped.report (.ofFailure stopped.current failure)) ∧
      Reaches source state failure.rest stopped
    | .ok (classes, _) => ∃ after,
      Runs parseClasses state (.ok classes) after ∧ Reaches source state [] after := by
  cases isEmpty : tokens.isEmpty with
  | true =>
    have ends : Runs classRound state (.ok none) state := by
      refine .atEnd ?_
      rw [atEnd_eq here.unread, if_pos isEmpty]
      exact .done _ _
    rw [Remembered.readClasses, if_pos isEmpty]
    rw [List.isEmpty_iff.mp isEmpty] at here
    exact ⟨state, .call (ends.bind_ok (.done _ _)), here, rfl, rfl⟩
  | false =>
    have round {outcome : Except SyntaxError (Option ClassDecl)} {after : State}
        (runs : Runs (do return some (← parseClass)) state outcome after) :
        Runs classRound state outcome after := by
      refine .atEnd ?_
      rw [atEnd_eq here.unread, if_neg (by simp [isEmpty])]
      exact runs
    rw [readClasses_of_class isEmpty]
    have first := follows_parseClass here
    unfold Follows at first
    split at first
    · next failure failed =>
      obtain ⟨stopped, runs, reaches⟩ := first
      rw [failed]
      exact ⟨stopped, .call (.bind_error (round (.bind_error runs))), reaches⟩
    · next reading grouped found =>
      obtain ⟨between, runs, reached, remembered⟩ := first
      have fewer := reading.shorter
      have others := follows_parseClasses reached.here
      have again := round (runs.bind_ok (.done _ _))
      rw [reached.sameFile, remembered] at others
      rw [found]
      dsimp only
      split at others
      · next failure failed =>
        obtain ⟨stopped, runs', reaches⟩ := others
        rw [failed]
        exact ⟨stopped, .call (again.bind_ok (.bind_error runs')),
          reaches.since reached.sameFile reached.account⟩
      · next classes later found' =>
        obtain ⟨after, runs', reaches⟩ := others
        rw [found']
        exact ⟨after, .call (again.bind_ok (runs'.bind_ok (.done _ _))),
          reaches.since reached.sameFile reached.account⟩
termination_by tokens.length

end

end Bantam.Stepwise
