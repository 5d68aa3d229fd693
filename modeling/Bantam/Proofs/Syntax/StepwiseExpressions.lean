import Bantam.Proofs.Syntax.ParsingProgress

/-! Expressions, step by step. The stepwise parser reads an expression from its current token and
its stream as the parser that remembers parentheses reads it from a list of tokens: it returns the
same, it goes as far, and it remembers the same, or it fails in the same way and at the same place.
On its way it reports only what the text gives reason to report; where it fails, it has read no
further than to its current token, and reports its error last. -/
namespace Bantam.Stepwise
open Remembered (Run)

section
variable {source : String} {α β γ δ : Type} {tokens others : List Token}

/-- In a source text the parser stands at these tokens. It has looked at no more than so many behind
the first of them, and remembers no parentheses that are not some of the text. -/
structure State.At (source : String) (limit : Nat) (tokens : List Token) (state : State) :
    Prop where
  unread : state.unread = tokens
  inside : tokens <:+ Grammar.meaningful source
  known : Remembered.Known source state.grouped
  ahead : AtMost limit state.stream.buffer

theorem State.At.ready {limit : Nat} {state : State} (here : state.At source 0 tokens) :
    state.At source limit tokens where
  unread := here.unread
  inside := here.inside
  known := here.known
  ahead := here.ahead.mono (Nat.zero_le limit)

/-- The parser has come from a state to some tokens, and has not looked behind the first. -/
structure Reaches (source : String) (before : State) (rest : List Token) (after : State) :
    Prop where
  here : after.At source 0 rest
  sameFile : after.stream.file = before.stream.file
  account : after.stream.account = before.stream.account

theorem Reaches.since {before between after : State}
    (reaches : Reaches source between tokens after)
    (sameFile : between.stream.file = before.stream.file)
    (account : between.stream.account = before.stream.account) :
    Reaches source before tokens after where
  here := reaches.here
  sameFile := reaches.sameFile.trans sameFile
  account := reaches.account.trans account

/-- The action does what a reader does with the tokens from the current one on, up to a view of what
is read. If the reader fails, the action reports the error where the reader has stopped. -/
def Follows (source : String) (action : Action β) (view : Reading α tokens → β)
    (reader : Run α tokens) (before : State) : Prop :=
  match reader before.grouped with
  | .error failure => ∃ stopped,
    Runs action before (.error (.ofFailure stopped.current failure))
      (stopped.report (.ofFailure stopped.current failure)) ∧
    Reaches source before failure.rest stopped
  | .ok (reading, grouped) => ∃ after,
    Runs action before (.ok (view reading)) after ∧
    Reaches source before reading.rest after ∧ after.grouped = grouped

namespace Follows
variable {action : Action α} {next : α → Action β} {view : Reading γ tokens → α}
  {view' : Reading δ others → β} {before between : State}

theorem bindFound {first : Run γ tokens} {more : Reading γ tokens → Run δ others}
    (follows : Follows source action view first before)
    (goesOn : ∀ reading after, first before.grouped = .ok (reading, after.grouped) →
      after.At source 0 reading.rest → after.stream.file = before.stream.file →
      Follows source (next (view reading)) view' (more reading) after) :
    Follows source (action >>= next) view' (first >>= more) before := by
  unfold Follows at follows
  split at follows
  · next failure failed =>
    obtain ⟨stopped, runs, reaches⟩ := follows
    have fails : (first >>= more) before.grouped = .error failure := by
      show (first before.grouped >>= fun result => more result.1 result.2) = _
      rw [failed]
      rfl
    rw [Follows, fails]
    exact ⟨stopped, .bind_error runs, reaches⟩
  · next reading grouped found =>
    obtain ⟨between, runs, reached, remembered⟩ := follows
    have same : (first >>= more) before.grouped = more reading between.grouped := by
      show (first before.grouped >>= fun result => more result.1 result.2) = _
      rw [found, remembered]
      rfl
    have goesOn := goesOn reading between (remembered ▸ found) reached.here reached.sameFile
    rw [Follows, same]
    unfold Follows at goesOn
    split at goesOn
    · obtain ⟨stopped, runs', reaches⟩ := goesOn
      exact ⟨stopped, runs.bind_ok runs', reaches.since reached.sameFile reached.account⟩
    · obtain ⟨after, runs', reaches, grouped⟩ := goesOn
      exact ⟨after, runs.bind_ok runs', reaches.since reached.sameFile reached.account, grouped⟩

theorem bind {first : Run γ tokens} {more : Reading γ tokens → Run δ others}
    (follows : Follows source action view first before)
    (goesOn : ∀ reading after, after.At source 0 reading.rest →
      after.stream.file = before.stream.file →
      Follows source (next (view reading)) view' (more reading) after) :
    Follows source (action >>= next) view' (first >>= more) before :=
  follows.bindFound fun reading after _ => goesOn reading after

/-- It counts only what an action comes to. -/
theorem of_runs {other : Action α} {reader : Run γ tokens}
    (follows : Follows source other view reader before)
    (same : ∀ outcome after, Runs other before outcome after → Runs action before outcome after) :
    Follows source action view reader before := by
  unfold Follows at follows ⊢
  split at follows
  · obtain ⟨stopped, runs, reaches⟩ := follows
    exact ⟨stopped, same _ _ runs, reaches⟩
  · obtain ⟨after, runs, reaches⟩ := follows
    exact ⟨after, same _ _ runs, reaches⟩

theorem call {procedure : Procedure α} {reader : Run γ tokens}
    (follows : Follows source procedure.body view reader before) :
    Follows source (call procedure) view reader before :=
  follows.of_runs fun _ _ => .call

theorem callBind {procedure : Procedure α} {reader : Run δ others}
    (follows : Follows source (procedure.body >>= next) view' reader before) :
    Follows source (Stepwise.call procedure >>= next) view' reader before :=
  follows.of_runs fun _ _ => .call_bind

/-- The action does something that the reader needs not do. -/
theorem skip {value : α} {reader : Run δ others}
    (runs : Runs action before (.ok value) between)
    (grouped : between.grouped = before.grouped)
    (sameFile : between.stream.file = before.stream.file)
    (account : between.stream.account = before.stream.account)
    (goesOn : Follows source (next value) view' reader between) :
    Follows source (action >>= next) view' reader before := by
  unfold Follows at goesOn ⊢
  rw [← grouped]
  split at goesOn
  · obtain ⟨stopped, runs', reaches⟩ := goesOn
    exact ⟨stopped, runs.bind_ok runs', reaches.since sameFile account⟩
  · obtain ⟨after, runs', reaches, remembered⟩ := goesOn
    exact ⟨after, runs.bind_ok runs', reaches.since sameFile account, remembered⟩

end Follows

section Current
variable {choose : Token → Option α} {state : State}

theorem current_of_unread {token : Token} {rest : List Token}
    (unread : state.unread = token :: rest) :
    state.current = token ∧ state.current.kind ≠ .endOfInput := by
  rw [State.unread] at unread
  split at unread
  · cases unread
  · next goesOn => exact ⟨(List.cons.inj unread).1, goesOn⟩

theorem current_of_unread_nil (unread : state.unread = []) : state.current.kind = .endOfInput := by
  rw [State.unread] at unread
  split at unread
  · assumption
  · cases unread

theorem choose_of_none (sees : Sees choose) (unread : state.unread = tokens)
    (rejected : readToken? choose tokens = none) : choose state.current = none := by
  cases tokens with
  | nil => exact sees _ (current_of_unread_nil unread)
  | cons token rest =>
    rw [(current_of_unread unread).1]
    exact Option.map_eq_none_iff.mp rejected

theorem choose_of_some {reading : Reading α tokens} (unread : state.unread = tokens)
    (read : readToken? choose tokens = some reading) :
    choose state.current = some reading.value ∧ state.unread = state.current :: reading.rest := by
  cases tokens with
  | nil => cases read
  | cons token rest =>
    obtain ⟨value, chosen, rfl⟩ := Option.map_eq_some_iff.mp read
    rw [(current_of_unread unread).1]
    exact ⟨chosen, unread⟩

theorem Moves.here {limit : Nat} {reading : Reading α tokens} {after : State}
    (moves : Moves state after) (here : state.At source limit tokens)
    (read : readToken? choose tokens = some reading) :
    after.At source (limit - 1) reading.rest := by
  have split := (choose_of_some here.unread read).2
  constructor
  case unread =>
    rw [moves.passes.unread] at split
    exact List.append_cancel_left split
  case inside => exact reading.isSuffix.trans here.inside
  case known =>
    rw [moves.grouped]
    exact here.known
  case ahead => exact moves.atMost limit here.ahead

theorem runs_accept {limit : Nat} {reading : Reading α tokens} (sees : Sees choose)
    (here : state.At source limit tokens) (read : readToken? choose tokens = some reading) :
    ∃ after, Runs (accept choose) state (.ok (some reading.value)) after ∧ Moves state after ∧
      after.At source (limit - 1) reading.rest := by
  obtain ⟨chosen, -⟩ := choose_of_some here.unread read
  obtain ⟨after, runs, moves⟩ := runs_accept_some sees chosen
  exact ⟨after, runs, moves, moves.here here read⟩

theorem check_eq {kind : Kind} (real : kind ≠ .endOfInput) (unread : state.unread = tokens) :
    (state.current.kind == kind) = (readKind? kind tokens).isSome := by
  cases read : readKind? kind tokens with
  | none =>
    have rejected := choose_of_none (sees_kind real) unread read
    rw [spanOfKind] at rejected
    split at rejected
    · cases rejected
    · next different => exact beq_false_of_ne different
  | some reading =>
    have chosen := (choose_of_some unread read).1
    rw [kind_of_spanOfKind chosen]
    exact beq_self_eq_true kind

end Current

namespace Follows
variable {choose : Token → Option α} {view : Reading β tokens → γ} {state : State}

theorem pure {reading : Reading β tokens} {value : γ} (here : state.At source 0 reading.rest)
    (same : value = view reading) :
    Follows source (Pure.pure value) view (Pure.pure reading) state := by
  subst same
  exact ⟨state, .done _ _, ⟨here, rfl, rfl⟩, rfl⟩

theorem bindFailed {action : Action α} {next : α → Action γ} {failure : Failure}
    (fails : Follows source action Reading.value (throw failure : Run α tokens) state) :
    Follows source (action >>= next) view (throw failure) state := by
  obtain ⟨stopped, runs, reaches⟩ := fails
  exact ⟨stopped, .bind_error runs, reaches⟩

/-- What the action inspects is known. -/
theorem get {next : State → Action γ} {reader : Run β tokens}
    (goesOn : Follows source (next state) view reader state) :
    Follows source (get >>= next) view reader state :=
  .skip (.step (.done _ _)) rfl rfl rfl goesOn

theorem current {next : Token → Action γ} {reader : Run β tokens}
    (goesOn : Follows source (next state.current) view reader state) :
    Follows source (current >>= next) view reader state := .get goesOn

theorem check {limit : Nat} {kind : Kind} {next : Bool → Action γ} {reader : Run β tokens}
    {front : List Token} (real : kind ≠ .endOfInput) (here : state.At source limit front)
    (goesOn : Follows source (next (readKind? kind front).isSome) view reader state) :
    Follows source (check kind >>= next) view reader state := by
  rw [← check_eq real here.unread] at goesOn
  exact .get goesOn

/-- Both know what is remembered. -/
theorem consult {next : State → Action γ} {reader : Option Span → Run β tokens}
    (goesOn : Follows source (next state) view (reader state.grouped) state) :
    Follows source (MonadState.get >>= next) view (MonadState.get >>= reader) state := .get goesOn

theorem advance {limit : Nat} {front : List Token} {reading : Reading α front}
    {next : Token → Action γ} {reader : Run β tokens} (here : state.At source limit front)
    (read : readToken? choose front = some reading)
    (goesOn : ∀ after, after.At source (limit - 1) reading.rest →
      after.stream.file = state.stream.file →
      Follows source (next state.current) view reader after) :
    Follows source (advance >>= next) view reader state := by
  have split := (choose_of_some here.unread read).2
  obtain ⟨after, runs, moves⟩ := runs_advance (current_of_unread split).2
  have file := moves.passes.sameFile
  exact .skip runs moves.grouped file moves.account (goesOn after (moves.here here read) file)

/-- The reader remembers what the action does. -/
theorem remember {reading : Reading β tokens} {span : Span} (here : state.At source 0 reading.rest)
    (parentheses : Remembered.IsParentheses source span) :
    Follows source
      (do modify fun state => { state with grouped := some span }; return reading.value)
      Reading.value (do set (some span); return reading) state := by
  have known : Remembered.Known source (some span) := by
    intro other same
    rw [← Option.some.inj same]
    exact parentheses
  let after : State := { state with grouped := some span }
  have there : after.At source 0 reading.rest := ⟨here.unread, here.inside, known, here.ahead⟩
  exact ⟨after, .step (.done _ _), ⟨there, rfl, rfl⟩, rfl⟩

theorem map {action : Action α} {change : α → γ} {view' : Reading β tokens → α}
    {reader : Run β tokens} (follows : Follows source action view' reader state)
    (same : ∀ reading, change (view' reading) = view reading) :
    Follows source (do return change (← action)) view reader state := by
  rw [← bind_pure reader]
  refine follows.bind fun reading after here _ => ?_
  exact pure here (same reading)

theorem fail {error : SyntaxError} {failure : Failure} (here : state.At source 0 failure.rest)
    (same : error = .ofFailure state.current failure) :
    Follows source (fail error) view (throw failure) state := by
  subst same
  exact ⟨state, .step (.done _ _), here, rfl, rfl⟩

theorem unexpected {expectation : Expectation} (here : state.At source 0 others) :
    Follows source (unexpected expectation) view (throw ⟨.expected expectation, others⟩)
      state := by
  refine Follows.current ?_
  apply fail here
  cases others with
  | nil => rfl
  | cons token rest =>
    rw [(current_of_unread here.unread).1]
    rfl

section Accept
variable {limit : Nat} {front : List Token} {next : Option α → Action γ} {reader : Run β tokens}

theorem acceptNone (sees : Sees choose) (here : state.At source limit front)
    (rejected : readToken? choose front = none)
    (goesOn : Follows source (next none) view reader state) :
    Follows source (accept choose >>= next) view reader state := by
  have runs := runs_accept_none (choose_of_none sees here.unread rejected)
  exact .skip runs rfl rfl rfl goesOn

theorem acceptSome {reading : Reading α front} (sees : Sees choose)
    (here : state.At source limit front) (read : readToken? choose front = some reading)
    (goesOn : ∀ after, after.At source (limit - 1) reading.rest →
      after.stream.file = state.stream.file →
      Follows source (next (some reading.value)) view reader after) :
    Follows source (accept choose >>= next) view reader state := by
  obtain ⟨after, runs, moves, there⟩ := runs_accept sees here read
  have file := moves.passes.sameFile
  exact .skip runs moves.grouped file moves.account (goesOn after there file)

end Accept

section Expect
variable {front : List Token} {next : α → Action γ} {expectation : Expectation}

theorem expectSome {limit : Nat} {reading : Reading α front} {reader : Run β tokens}
    (sees : Sees choose) (here : state.At source limit front)
    (read : readToken? choose front = some reading)
    (goesOn : ∀ after, after.At source (limit - 1) reading.rest →
      after.stream.file = state.stream.file →
      Follows source (next reading.value) view reader after) :
    Follows source (expect choose expectation >>= next) view reader state := by
  obtain ⟨after, runs, moves, there⟩ := runs_accept sees here read
  have takes : Runs (Stepwise.expect choose expectation) state (.ok reading.value) after :=
    runs.bind_ok (.done _ _)
  have file := moves.passes.sameFile
  exact .skip takes moves.grouped file moves.account (goesOn after there file)

theorem expectNone {view : Reading β tokens → α} (sees : Sees choose)
    (here : state.At source 0 front) (rejected : readToken? choose front = none) :
    Follows source (expect choose expectation) view (throw ⟨.expected expectation, front⟩)
      state := by
  refine acceptNone sees here rejected ?_
  exact unexpected here

theorem expect (sees : Sees choose) (here : state.At source 0 front) :
    Follows source (expect choose expectation) Reading.value
      (liftM (readToken choose expectation front)) state := by
  rw [readToken]
  cases read : readToken? choose front with
  | none => exact expectNone sees here read
  | some reading =>
    refine acceptSome sees here read fun after here _ => ?_
    exact pure here rfl

/-- Where the token is missing, nothing has been looked at behind it. -/
theorem expectBind {limit : Nat} {more : Reading α front → Run β tokens} (sees : Sees choose)
    (here : state.At source limit front)
    (calm : readToken? choose front = none → state.At source 0 front)
    (goesOn : ∀ reading after, readToken? choose front = some reading →
      after.At source (limit - 1) reading.rest → after.stream.file = state.stream.file →
      Follows source (next reading.value) view (more reading) after) :
    Follows source (Stepwise.expect choose expectation >>= next) view
      (liftM (readToken choose expectation front) >>= more) state := by
  rw [readToken]
  cases read : readToken? choose front with
  | none =>
    have missing : Follows source (Stepwise.expect choose expectation) Reading.value
        (throw ⟨.expected expectation, front⟩ : Run α front) state :=
      expectNone sees (calm read) read
    exact bindFailed missing
  | some reading =>
    exact expectSome sees here read fun after there file => goesOn reading after read there file

end Expect

end Follows

theorem follows_expectKind {kind : Kind} {state : State} (real : kind ≠ .endOfInput)
    (here : state.At source 0 tokens) :
    Follows source (expectKind kind) Reading.value (liftM (readKind kind tokens)) state :=
  .expect (sees_kind real) here

theorem follows_expectName {state : State} (here : state.At source 0 tokens) :
    Follows source expectName Reading.value (liftM (readName tokens)) state :=
  .expect sees_name here

/-- Does something, and takes a token of a kind behind it. -/
def upTo (kind : Kind) (action : Action α) : Action (α × Span) := do
  let value ← action
  return (value, ← expectKind kind)

theorem Follows.upTo {kind : Kind} {action : Action α} {next : α → Span → Action β}
    {view : Reading γ tokens → α × Span} {view' : Reading δ others → β}
    {reader : Run γ tokens} {more : Reading γ tokens → Run δ others} {state : State}
    (follows : Follows source (upTo kind action) view reader state)
    (goesOn : ∀ reading after, after.At source 0 reading.rest →
      after.stream.file = state.stream.file →
      Follows source (next (view reading).1 (view reading).2) view' (more reading) after) :
    Follows source (action >>= fun value => expectKind kind >>= next value) view'
      (reader >>= more) state := by
  have regrouped : (action >>= fun value => expectKind kind >>= next value) =
      Stepwise.upTo kind action >>= fun result => next result.1 result.2 := by
    simp only [Stepwise.upTo, bind_assoc, pure_bind]
  rw [regrouped]
  exact follows.bind goesOn

-- A statement may begin when the parser has looked at what comes behind a word. Then that word is a
-- name and is taken next, and if it has looked behind a bracket, so is the bracket.

section Foreseen
variable {choose : Token → Option α} {other : Token → Option β}

/-- What the first takes a value from, the other does not. -/
def Apart (choose : Token → Option α) (other : Token → Option β) : Prop :=
  ∀ token value, choose token = some value → other token = none

theorem apart_kind {kind different : Kind} (differ : kind ≠ different) :
    Apart (spanOfKind kind) (spanOfKind different) := by
  intro token span chosen
  rw [spanOfKind, kind_of_spanOfKind chosen, if_neg differ]

theorem apart_of_kind {kind : Kind} (noWord : kind ≠ .identifier) :
    Apart (spanOfKind kind) Name.ofToken? := by
  intro token span chosen
  simp [Name.ofToken?, Token.isName, kind_of_spanOfKind chosen, noWord]

theorem apart_of_word {word : String} (reserved : isKeyword word = true) :
    Apart (spanOfWord word) Name.ofToken? := by
  intro token span chosen
  have isWord := isWord_of_spanOfWord chosen
  rw [Token.isWord, Bool.and_eq_true, beq_iff_eq, beq_iff_eq] at isWord
  simp [Name.ofToken?, Token.isName, isWord.2, reserved]

theorem apart_of_sign {operator? : Kind → Option α} (noWord : operator? .identifier = none) :
    Apart (signed operator?) Name.ofToken? := by
  intro token sign chosen
  obtain ⟨op, stands, -⟩ := Option.map_eq_some_iff.mp chosen
  have different : token.kind ≠ .identifier := by
    intro isWord
    rw [isWord, noWord] at stands
    contradiction
  simp [Name.ofToken?, Token.isName, different]

theorem apart_of_constant : Apart Expr.constant? Name.ofToken? := by
  intro token constant chosen
  have different : token.kind ≠ .identifier := by
    intro isWord
    rw [Expr.constant?, isWord] at chosen
    contradiction
  simp [Name.ofToken?, Token.isName, different]

theorem Apart.eq_none {reading : Reading α tokens} (apart : Apart choose other)
    (read : readToken? choose tokens = some reading) : readToken? other tokens = none := by
  cases tokens with
  | nil => rfl
  | cons token rest =>
    obtain ⟨value, chosen, -⟩ := Option.map_eq_some_iff.mp read
    rw [readToken?, apart token value chosen]
    rfl

/-- One, if there is a bracket. -/
def bracketed (tokens : List Token) : Nat := if kindAt tokens 0 = .leftBracket then 1 else 0

theorem bracketed_sub_one (tokens : List Token) : bracketed tokens - 1 = 0 := by
  rw [bracketed]
  split <;> rfl

theorem bracketed_of_none (rejected : readKind? .leftBracket tokens = none) :
    bracketed tokens = 0 := by
  rw [bracketed, if_neg]
  cases tokens with
  | nil => decide
  | cons token rest =>
    have refused : spanOfKind .leftBracket token = none := Option.map_eq_none_iff.mp rejected
    intro opens
    have isBracket : token.kind = .leftBracket := opens
    rw [spanOfKind, if_pos isBracket] at refused
    contradiction

theorem foreseen_of_none (rejected : readToken? Name.ofToken? tokens = none) :
    foreseen tokens = 0 := by
  cases tokens with
  | nil => rfl
  | cons token rest =>
    have refused : Name.ofToken? token = none := Option.map_eq_none_iff.mp rejected
    rw [foreseen, if_neg]
    intro isName
    rw [Name.ofToken?, if_pos isName] at refused
    contradiction

theorem foreseen_of_some {name : Reading Name tokens}
    (read : readToken? Name.ofToken? tokens = some name) :
    foreseen tokens - 1 = bracketed name.rest := by
  cases tokens with
  | nil => cases read
  | cons token rest =>
    obtain ⟨value, chosen, rfl⟩ := Option.map_eq_some_iff.mp read
    rw [foreseen, if_pos (name_of_ofToken? chosen).1, bracketed]
    split <;> rfl

/-- Nothing has been looked at behind a token that is no name. -/
theorem State.At.calm {state : State} (here : state.At source (foreseen tokens) tokens)
    (rejected : readToken? Name.ofToken? tokens = none) : state.At source 0 tokens := by
  rwa [foreseen_of_none rejected] at here

end Foreseen

theorem span_readType {state : State} {reading : Reading TypeName tokens}
    (unread : state.unread = tokens) (read : readType tokens = .ok reading) :
    reading.value.span = state.current.span := by
  obtain ⟨name, named, rest⟩ := bind_eq_ok.mp read
  have spans : reading.value.span = name.value.span := by
    split at rest
    · cases rest
      rfl
    · obtain ⟨close, -, done⟩ := bind_eq_ok.mp rest
      cases done
      rfl
  rw [readName, readToken] at named
  split at named
  · next found =>
    cases named
    have chosen := (choose_of_some unread found).1
    rw [Name.ofToken?] at chosen
    split at chosen
    · rw [spans, ← Option.some.inj chosen]
    · cases chosen
  · cases named

theorem follows_parseType {state : State} (here : state.At source (foreseen tokens) tokens) :
    Follows source parseType (fun reading => reading.value.type) (liftM (readType tokens))
      state := by
  rw [readType, liftM_bind]
  refine .expectBind sees_name here here.calm fun name after names here _ => ?_
  rw [foreseen_of_some names] at here
  rcases brackets : readKind? .leftBracket name.rest with _ | bracket
  · rw [bracketed_of_none brackets] at here
    refine .acceptNone (sees_kind (by decide)) here brackets ?_
    exact .pure here rfl
  · refine .acceptSome (sees_kind (by decide)) here brackets fun after here _ => ?_
    rw [bracketed_sub_one] at here
    dsimp only
    rw [liftM_bind]
    refine (follows_expectKind (by decide) here).bind fun close after here _ => ?_
    exact .pure here rfl

/-- A reader of tokens takes no notice of what is remembered. -/
theorem ok_of_liftM {outcome : Outcome α tokens} {reading : Reading α tokens}
    {marker later : Option Span}
    (read : (liftM outcome : Run α tokens) marker = .ok (reading, later)) :
    outcome = .ok reading := by
  cases outcome with
  | error failure => cases read
  | ok other => rw [(Prod.mk.inj (Except.ok.inj read)).1]

theorem Follows.type {front : List Token} {view : Reading α tokens → β} {next : Ty → Action β}
    {more : Reading TypeName front → Run α tokens} {state : State}
    (here : state.At source (foreseen front) front)
    (goesOn : ∀ reading after, reading.value.span = state.current.span →
      after.At source 0 reading.rest → after.stream.file = state.stream.file →
      Follows source (next reading.value.type) view (more reading) after) :
    Follows source (parseType >>= next) view (liftM (readType front) >>= more) state := by
  refine (follows_parseType here).bindFound fun reading after found there file => ?_
  have read := ok_of_liftM found
  exact goesOn reading after (span_readType here.unread read) there file

/-- The word of a type test is no sign of an operator. -/
theorem typeTest?_of_signed {level : Level} {token : Token} {sign : BinaryOp × Span}
    (signs : signed level.operator? token = some sign) : level.typeTest? token = none := by
  obtain ⟨op, stands, -⟩ := Option.map_eq_some_iff.mp signs
  rw [Level.typeTest?]
  split
  · rw [spanOfWord, Token.isWord]
    cases level <;> cases kind : token.kind <;> simp_all [Level.operator?]
  · rfl

theorem eq_head_of_undotted {head selected : Reading Expr tokens} {marker later : Option Span}
    (undotted : readKind? .dot head.rest = none)
    (selects : Remembered.readSelections head marker = .ok (selected, later)) :
    selected = head := by
  rw [Remembered.readSelections, undotted] at selects
  exact (Prod.mk.inj (Except.ok.inj selects)).1.symm

mutual

theorem follows_parseExpr {tokens : List Token} {state : State}
    (here : state.At source (foreseen tokens) tokens) :
    Follows source parseExpr Reading.value (Remembered.readExpr tokens) state := by
  refine .call ?_
  rw [Procedure.body, assignment, Remembered.readExpr]
  refine (follows_parseOperators .or here).bind fun left after here _ => ?_
  have fewer := left.shorter
  refine .check (by decide) here ?_
  cases found : readKind? .assign left.rest with
  | none => exact .pure here rfl
  | some sign =>
    have fewer' := sign.shorter
    refine .consult ?_
    cases assigns : Remembered.assignment? after.grouped left.value with
    | none => exact .fail here rfl
    | some assign =>
      refine .advance here found fun after here _ => ?_
      refine (follows_parseExpr here.ready).bind fun right after here _ => ?_
      exact .pure here rfl
termination_by descent tokens 17
decreasing_by all_goals simp only [descent, Level.height]; omega

theorem follows_parseOperators (level : Level) {tokens : List Token} {state : State}
    (here : state.At source (foreseen tokens) tokens) :
    Follows source (parseOperators level) Reading.value (Remembered.readOperators level tokens)
      state := by
  refine .call ?_
  rw [Procedure.body, operation, Remembered.readOperators]
  refine (follows_parseOperand level here).bind fun first after here _ => ?_
  have fewer := first.shorter
  exact follows_parseMoreOperators level first here
termination_by descent tokens (2 * level.height + 4)
decreasing_by all_goals simp only [descent]; omega

theorem follows_parseMoreOperators (level : Level) {tokens : List Token}
    (left : Reading Expr tokens) {state : State} (here : state.At source 0 left.rest) :
    Follows source (parseMoreOperators level left.value) Reading.value
      (Remembered.readMoreOperators level left) state := by
  refine .call ?_
  rw [Procedure.body, moreOperators, operatorRound, Remembered.readMoreOperators, bind_assoc]
  cases signs : readToken? (signed level.operator?) left.rest with
  | some sign =>
    have fewer := sign.shorter
    have untested : level.typeTest? state.current = none :=
      typeTest?_of_signed (choose_of_some here.unread signs).1
    refine .skip (runs_accept_none untested) rfl rfl rfl ?_
    rw [bind_assoc]
    refine .acceptSome (sees_operator level) here signs fun after here _ => ?_
    dsimp only
    rw [bind_assoc]
    refine (follows_parseOperand level here.ready).bind fun right after here _ => ?_
    have fewer' := right.shorter
    rw [pure_bind]
    exact follows_parseMoreOperators level
      ((left.followedBy (sign.followedBy right)).give _) here
  | none =>
    cases tests : readToken? level.typeTest? left.rest with
    | none =>
      refine .acceptNone (sees_typeTest level) here tests ?_
      rw [bind_assoc]
      refine .acceptNone (sees_operator level) here signs ?_
      exact .pure here rfl
    | some word =>
      have fewer := word.shorter
      refine .acceptSome (sees_typeTest level) here tests fun after here _ => ?_
      rw [bind_assoc]
      refine .current ?_
      rw [bind_assoc]
      refine .type here.ready fun type after span here _ => ?_
      have fewer' := type.shorter
      rw [pure_bind, ← span]
      exact follows_parseMoreOperators level
        ((left.followedBy (word.followedBy type)).give _) here
termination_by descent left.rest (2 * level.height + 4)
decreasing_by all_goals simp only [descent, Reading.give, Reading.followedBy]; omega

theorem follows_parseOperand (level : Level) {tokens : List Token} {state : State}
    (here : state.At source (foreseen tokens) tokens) :
    Follows source (parseOperand level) Reading.value (Remembered.readOperand level tokens)
      state := by
  cases found : level.tighter? with
  | some tighter =>
    have lower := Level.height_of_tighter? found
    rw [parseOperand, Remembered.readOperand_of_tighter? found, found]
    exact follows_parseOperators tighter here
  | none =>
    have positive := level.height_pos
    rw [parseOperand, Remembered.readOperand_of_tightest found, found]
    exact follows_parseUnary here
termination_by descent tokens (2 * level.height + 3)
decreasing_by all_goals simp only [descent]; omega

theorem follows_parseUnary {tokens : List Token} {state : State}
    (here : state.At source (foreseen tokens) tokens) :
    Follows source parseUnary Reading.value (Remembered.readUnary tokens) state := by
  refine .call ?_
  rw [Procedure.body, unary, Remembered.readUnary]
  cases signs : readToken? (signed UnaryOp.before?) tokens with
  | some sign =>
    have fewer := sign.shorter
    have calm := here.calm ((apart_of_sign rfl).eq_none signs)
    refine .acceptSome (sees_signed rfl) calm signs fun after here _ => ?_
    refine (follows_parseUnary here.ready).bind fun operand after here _ => ?_
    exact .pure here rfl
  | none =>
    refine .acceptNone (sees_signed rfl) here signs ?_
    refine .current ?_
    cases news : readWord? "new" tokens with
    | some word =>
      have fewer := word.shorter
      have isWord := isWord_of_spanOfWord (choose_of_some here.unread news).1
      have calm := here.calm ((apart_of_word (by decide)).eq_none news)
      rw [if_pos isWord, parseNew]
      refine .expectSome (sees_word "new") calm news fun after here _ => ?_
      refine (follows_expectName here).bind fun name after here _ => ?_
      have fewer' := name.shorter
      cases parens : readKind? .leftParen name.rest with
      | some paren =>
        refine .acceptSome (sees_kind (by decide)) here parens fun after here _ => ?_
        refine (follows_expectKind (by decide) here).bind fun close after here _ => ?_
        exact .pure here rfl
      | none =>
        refine .acceptNone (sees_kind (by decide)) here parens ?_
        cases brackets : readKind? .leftBracket name.rest with
        | some bracket =>
          have fewer'' := bracket.shorter
          refine .acceptSome (sees_kind (by decide)) here brackets fun after here _ => ?_
          refine (follows_parseExpr here.ready).bind fun size after here _ => ?_
          refine (follows_expectKind (by decide) here).bind fun close after here _ => ?_
          exact .pure here rfl
        | none =>
          refine .acceptNone (sees_kind (by decide)) here brackets ?_
          exact .unexpected here
    | none =>
      have notNew := choose_of_none (sees_word "new") here.unread news
      rw [if_neg (by simpa [spanOfWord] using notNew)]
      refine .current ?_
      cases casts : readWord? "cast" tokens with
      | some word =>
        have fewer := word.shorter
        have isWord := isWord_of_spanOfWord (choose_of_some here.unread casts).1
        have calm := here.calm ((apart_of_word (by decide)).eq_none casts)
        rw [if_pos isWord, parseCast]
        refine .expectSome (sees_word "cast") calm casts fun after here _ => ?_
        refine (follows_expectKind (by decide) here).bind fun paren after here _ => ?_
        refine .type here.ready fun type after _ here _ => ?_
        refine (follows_expectKind (by decide) here).bind fun comma after here _ => ?_
        have fewer' := comma.isSuffix.trans (type.isSuffix.trans paren.isSuffix)
        have fewer' := fewer'.length_le
        refine (follows_parseExpr here.ready).bind fun operand after here _ => ?_
        refine (follows_expectKind (by decide) here).bind fun close after here _ => ?_
        exact .pure here rfl
      | none =>
        have notCast := choose_of_none (sees_word "cast") here.unread casts
        rw [if_neg (by simpa [spanOfWord] using notCast), parsePostfix]
        refine (follows_parsePrimary here).bind fun operand after here _ => ?_
        cases behind : readToken? (signed UnaryOp.behind?) operand.rest with
        | some sign =>
          refine .acceptSome (sees_signed rfl) here behind fun after here _ => ?_
          exact .pure here rfl
        | none =>
          refine .acceptNone (sees_signed rfl) here behind ?_
          exact .pure here rfl
termination_by descent tokens 4
decreasing_by all_goals simp only [descent]; omega

theorem follows_parsePrimary {tokens : List Token} {state : State}
    (here : state.At source (foreseen tokens) tokens) :
    Follows source parsePrimary Reading.value (Remembered.readPrimary tokens) state := by
  have opens := check_eq (show Kind.leftParen ≠ .endOfInput by decide) here.unread
  rw [parsePrimary, parseAtom, Remembered.readPrimary]
  refine .current ?_
  rw [bind_assoc]
  cases parens : readKind? .leftParen tokens with
  | some paren =>
    have fewer := paren.shorter
    rw [parens, Option.isSome_some, beq_iff_eq] at opens
    simp only [opens, true_and]
    have calm := here.calm ((apart_of_kind (by decide)).eq_none parens)
    refine .acceptSome (sees_kind (by decide)) calm parens fun after here _ => ?_
    rw [bind_assoc]
    refine (follows_parseExpr here.ready).bind fun inner after here _ => ?_
    rw [bind_assoc]
    refine (follows_expectKind (by decide) here).bindFound fun close after closes there _ => ?_
    have parentheses := Remembered.isParentheses calm.inside here.inside parens (ok_of_liftM closes)
    rw [pure_bind]
    have fewer' := inner.shorter
    have fewer'' := close.shorter
    refine (follows_parseSelections ((paren.followedBy (inner.followedBy close)).give
      (inner.value.withSpan (paren.value.merge close.value))) false there).bindFound
      fun selected after selects here _ => ?_
    simp only [Bool.false_or, Option.not_isSome]
    split_ifs with undotted
    · refine .remember here ?_
      rw [eq_head_of_undotted (Option.isNone_iff_eq_none.mp undotted) selects]
      exact (Expr.span_withSpan _ _).symm ▸ parentheses
    · exact .pure here rfl
  | none =>
    rw [parens, Option.isSome_none, beq_eq_false_iff_ne] at opens
    simp only [opens, false_and, if_false]
    refine .acceptNone (sees_kind (by decide)) here parens ?_
    rw [bind_assoc]
    cases constants : readToken? Expr.constant? tokens with
    | some constant =>
      have fewer := constant.shorter
      have calm := here.calm (apart_of_constant.eq_none constants)
      refine .acceptSome sees_constant calm constants fun after here _ => ?_
      rw [pure_bind]
      exact (follows_parseSelections constant false here).map fun _ => rfl
    | none =>
      refine .acceptNone sees_constant here constants ?_
      rw [bind_assoc]
      refine .current ?_
      cases names : readToken? Name.ofToken? tokens with
      | some name =>
        have fewer := name.shorter
        have isName := (name_of_ofToken? (choose_of_some here.unread names).1).1
        rw [if_pos isName, parseNamed, bind_assoc]
        refine .expectSome sees_name here names fun after here _ => ?_
        rw [foreseen_of_some names] at here
        refine (follows_parseSuffix none name here).bind fun expr after here _ => ?_
        have fewer' := expr.shorter
        exact (follows_parseSelections expr false here).map fun _ => rfl
      | none =>
        have notName := choose_of_none sees_name here.unread names
        rw [if_neg (by simpa [Name.ofToken?] using notName)]
        exact .bindFailed (.unexpected (here.calm names))
termination_by descent tokens 2
decreasing_by all_goals simp only [descent, Reading.give, Reading.followedBy]; omega

theorem follows_parseSelections {tokens : List Token} (head : Reading Expr tokens)
    (selected : Bool) {state : State} (here : state.At source 0 head.rest) :
    Follows source (parseSelections head.value selected)
      (fun reading => (reading.value, selected || (readKind? .dot head.rest).isSome))
      (Remembered.readSelections head) state := by
  refine .call ?_
  rw [Procedure.body, selections, selectionRound, Remembered.readSelections, bind_assoc]
  cases dots : readKind? .dot head.rest with
  | some dot =>
    have fewer := dot.shorter
    refine .acceptSome (sees_kind (by decide)) here dots fun after here _ => ?_
    rw [bind_assoc, parseNamed, bind_assoc]
    refine (follows_expectName here).bind fun name after here _ => ?_
    have fewer' := name.shorter
    refine (follows_parseSuffix (some head.value) (dot.followedBy name) here.ready).bind
      fun expr after here _ => ?_
    have fewer'' := expr.shorter
    rw [pure_bind]
    have selection := follows_parseSelections (head.followedBy expr) true here
    simp only [Bool.true_or] at selection
    simp only [Option.isSome_some, Bool.or_true]
    exact selection
  | none =>
    refine .acceptNone (sees_kind (by decide)) here dots ?_
    exact .pure here (by simp)
termination_by descent head.rest 1
decreasing_by all_goals simp only [descent, Reading.followedBy]; omega

theorem follows_parseSuffix (qualifier : Option Expr) {tokens : List Token}
    (name : Reading Name tokens) {state : State}
    (here : state.At source (bracketed name.rest) name.rest) :
    Follows source (parseSuffix qualifier name.value) Reading.value
      (Remembered.readNamed qualifier name) state := by
  rw [parseSuffix, Remembered.readNamed]
  refine .check (by decide) here ?_
  cases parens : readKind? .leftParen name.rest with
  | some paren =>
    have fewer := paren.shorter
    rw [parseArguments]
    simp only [Option.isSome_some, if_true, bind_assoc]
    have calm : state.At source 0 name.rest := by
      rwa [bracketed_of_none ((apart_kind (by decide)).eq_none parens)] at here
    refine .expectSome (sees_kind (by decide)) calm parens fun after here _ => ?_
    refine .check (by decide) here ?_
    rw [Remembered.readArguments]
    cases closes : readKind? .rightParen paren.rest with
    | some close =>
      simp only [Option.isSome_some, if_true, bind_assoc, pure_bind]
      refine .expectSome (sees_kind (by decide)) here closes fun after here _ => ?_
      exact .pure here rfl
    | none =>
      simp only [Option.isSome_none, Bool.false_eq_true, if_false, bind_assoc, pure_bind]
      refine .upTo (follows_parseMoreArguments here) fun arguments after here _ => ?_
      exact .pure here rfl
  | none =>
    cases brackets : readKind? .leftBracket name.rest with
    | some bracket =>
      have fewer := bracket.shorter
      refine .acceptSome (sees_kind (by decide)) here brackets fun after here _ => ?_
      rw [bracketed_sub_one] at here
      refine (follows_parseExpr here.ready).bind fun index after here _ => ?_
      refine (follows_expectKind (by decide) here).bind fun close after here _ => ?_
      exact .pure here rfl
    | none =>
      rw [bracketed_of_none brackets] at here
      refine .acceptNone (sees_kind (by decide)) here brackets ?_
      exact .pure here rfl
termination_by descent name.rest 19
decreasing_by all_goals simp only [descent]; omega

theorem follows_parseMoreArguments {tokens : List Token} {state : State}
    (here : state.At source 0 tokens) :
    Follows source (upTo .rightParen parseMoreArguments) Reading.value
      (Remembered.readMoreArguments tokens) state := by
  refine .callBind ?_
  rw [Procedure.body, moreArguments, separated, commaRound, Remembered.readMoreArguments]
  simp only [bind_assoc, pure_bind]
  refine (follows_parseExpr here.ready).bind fun first after here _ => ?_
  have fewer := first.shorter
  cases commas : readKind? .comma first.rest with
  | some comma =>
    have fewer' := comma.shorter
    refine .acceptSome (sees_kind (by decide)) here commas fun after here _ => ?_
    simp only [Option.isSome_some, if_true, bind_assoc, pure_bind]
    refine .upTo (follows_parseMoreArguments here) fun more after here _ => ?_
    exact .pure here rfl
  | none =>
    refine .acceptNone (sees_kind (by decide)) here commas ?_
    simp only [Option.isSome_none, Bool.false_eq_true, if_false, pure_bind]
    refine (follows_expectKind (by decide) here).bind fun close after here _ => ?_
    exact .pure here rfl
termination_by descent tokens 18
decreasing_by all_goals simp only [descent]; omega

end

end
end Bantam.Stepwise
