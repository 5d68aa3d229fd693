import Bantam.Proofs.Syntax.PendingTokens
import Bantam.Proofs.Syntax.StepwiseParser

/-! Progress. From any state whatever, each function of the stepwise parser comes to an end, and all
that it takes are tokens before the end of input. A class, a member, a statement, a type and an
expression take at least one token, and so does each round of a loop that is not its last one; this
is what ends the loops and the recursion. -/
namespace Bantam.Stepwise
variable {α β : Type}

def significant (tokens : List Token) : List Token := tokens.filter (·.kind != .comment)

/-- The tokens from the current one up to the end of input. -/
def State.unread (state : State) : List Token :=
  if state.current.kind = .endOfInput then []
  else state.current :: significant state.stream.pending

def State.EndsWith (state : State) (finish : Token) : Prop :=
  (state.current.kind = .endOfInput → state.current = finish) ∧ state.stream.EndsWith finish

def State.Ended (state : State) : Prop :=
  (state.current.kind = .endOfInput → state.stream.cursor.next? = none) ∧ state.stream.Ended

/-- Between two states, just these tokens were taken, from the first of those that were unread. -/
structure Passes (before : State) (tokens : List Token) (after : State) : Prop where
  unread : before.unread = tokens ++ after.unread
  taken : after.taken = before.taken ++ tokens
  inside : ∀ token ∈ tokens, token.kind ≠ .endOfInput
  sameFile : after.stream.file = before.stream.file
  endsWith : ∀ finish, before.EndsWith finish → after.EndsWith finish
  ended : before.Ended → after.Ended

/-- The action comes to an end. Unless it fails, what it returns says how many tokens it has taken
at least. -/
def Progresses (least : α → Nat) (action : Action α) (before : State) : Prop :=
  ∃ outcome after tokens, Runs action before outcome after ∧
    Passes before tokens after ∧ ∀ value, outcome = .ok value → least value ≤ tokens.length

abbrev Takes (least : Nat) (action : Action α) (before : State) : Prop :=
  Progresses (fun _ => least) action before

/-- A round of a loop takes a token, unless it was the last one. -/
abbrev Rounds (action : Action (Option α)) (before : State) : Prop :=
  Progresses (fun found => if found.isSome then 1 else 0) action before

namespace Passes
variable {before between after : State} {tokens others : List Token}

theorem refl (state : State) : Passes state [] state where
  unread := rfl
  taken := (List.append_nil _).symm
  inside := by simp
  sameFile := rfl
  endsWith := fun _ => id
  ended := id

theorem trans (passes : Passes before tokens between) (further : Passes between others after) :
    Passes before (tokens ++ others) after where
  unread := by rw [passes.unread, further.unread, List.append_assoc]
  taken := by rw [further.taken, passes.taken, List.append_assoc]
  inside := List.forall_mem_append.mpr ⟨passes.inside, further.inside⟩
  sameFile := further.sameFile.trans passes.sameFile
  endsWith := fun finish ends => further.endsWith finish (passes.endsWith finish ends)
  ended := fun ended => further.ended (passes.ended ended)

theorem length_eq (passes : Passes before tokens after) :
    before.unread.length = tokens.length + after.unread.length := by
  rw [passes.unread, List.length_append]

end Passes

namespace Runs
variable {action : Action α} {next : α → Action β} {before between after : State}

theorem bind_ok {value : α} {outcome : Except SyntaxError β}
    (first : Runs action before (.ok value) between)
    (second : Runs (next value) between outcome after) :
    Runs (action >>= next) before outcome after := by
  induction action generalizing before with
  | done early =>
    cases first
    exact second
  | step change further ih =>
    cases first with
    | step rest => exact .step (ih _ rest)
  | call procedure further ih =>
    cases first with
    | returned inner rest => exact .returned inner (ih _ rest)

theorem bind_error {error : SyntaxError} (first : Runs action before (.error error) after) :
    Runs (action >>= next) before (.error error) after := by
  induction action generalizing before with
  | done early =>
    cases first
    exact .done _ _
  | step change further ih =>
    cases first with
    | step rest => exact .step (ih _ rest)
  | call procedure further ih =>
    cases first with
    | returned inner rest => exact .returned inner (ih _ rest)
    | failed inner => exact .failed inner

theorem bind_cases {outcome : Except SyntaxError β}
    (runs : Runs (action >>= next) before outcome after) :
    (∃ value between, Runs action before (.ok value) between ∧
      Runs (next value) between outcome after) ∨
    ∃ error, outcome = .error error ∧ Runs action before (.error error) after := by
  induction action generalizing before with
  | done early =>
    cases early with
    | ok value => exact .inl ⟨value, before, .done _ _, runs⟩
    | error error =>
      cases runs
      exact .inr ⟨error, rfl, .done _ _⟩
  | step change further ih =>
    cases runs with
    | step rest =>
      rcases ih _ rest with ⟨value, between, first, second⟩ | ⟨error, same, first⟩
      · exact .inl ⟨value, between, .step first, second⟩
      · exact .inr ⟨error, same, .step first⟩
  | call procedure further ih =>
    cases runs with
    | returned inner rest =>
      rcases ih _ rest with ⟨value, between, first, second⟩ | ⟨error, same, first⟩
      · exact .inl ⟨value, between, .returned inner first, second⟩
      · exact .inr ⟨error, same, .returned inner first⟩
    | failed inner => exact .inr ⟨_, rfl, .failed inner⟩

theorem call {procedure : Procedure α} {outcome : Except SyntaxError α}
    (inner : Runs procedure.body before outcome after) :
    Runs (call procedure) before outcome after := by
  cases outcome with
  | ok value => exact .returned inner (.done _ _)
  | error error => exact .failed inner

theorem call_bind {procedure : Procedure α} {outcome : Except SyntaxError β}
    (runs : Runs (procedure.body >>= next) before outcome after) :
    Runs (Stepwise.call procedure >>= next) before outcome after := by
  rcases runs.bind_cases with ⟨value, between, inner, rest⟩ | ⟨error, rfl, inner⟩
  · exact .returned inner rest
  · exact .failed inner

theorem current {next : Token → Action α} {state : State} {outcome : Except SyntaxError α}
    (rest : Runs (next state.current) state outcome after) :
    Runs (current >>= next) state outcome after :=
  .step rest

theorem atEnd {next : Bool → Action α} {state : State} {outcome : Except SyntaxError α}
    (rest : Runs (next (state.current.kind == .endOfInput)) state outcome after) :
    Runs (atEnd >>= next) state outcome after :=
  .step rest

theorem nextToken {next : Token → Action α} {state : State} {outcome : Except SyntaxError α}
    (rest : Runs (next state.stream.next.1) { state with stream := state.stream.next.2 } outcome
      after) :
    Runs (nextToken >>= next) state outcome after :=
  .step rest

theorem look {offset : Nat} {next : Token → Action α} {state : State}
    {outcome : Except SyntaxError α}
    (rest : Runs (next (state.stream.peek offset).1)
      { state with stream := (state.stream.peek offset).2 } outcome after) :
    Runs (look offset >>= next) state outcome after :=
  .step rest

/-- What an action comes to is determined by the state in which it begins. -/
theorem unique {outcome other : Except SyntaxError α} {last : State}
    (runs : Runs action before outcome after) (again : Runs action before other last) :
    outcome = other ∧ after = last := by
  induction runs generalizing last with
  | done outcome state =>
    cases again
    exact ⟨rfl, rfl⟩
  | step rest ih =>
    cases again with
    | step rest' => exact ih rest'
  | returned inner rest ihInner ihRest =>
    cases again with
    | returned inner' rest' =>
      obtain ⟨same, rfl⟩ := ihInner inner'
      cases same
      exact ihRest rest'
    | failed inner' =>
      obtain ⟨impossible, -⟩ := ihInner inner'
      cases impossible
  | failed inner ih =>
    cases again with
    | returned inner' rest' =>
      obtain ⟨impossible, -⟩ := ih inner'
      cases impossible
    | failed inner' =>
      obtain ⟨same, rfl⟩ := ih inner'
      cases same
      exact ⟨rfl, rfl⟩

end Runs

section Steps
variable {action : Action α} {next : α → Action β} {before after : State}

theorem Progresses.mono {least more : α → Nat} (progresses : Progresses more action before)
    (fewer : ∀ value, least value ≤ more value) : Progresses least action before := by
  obtain ⟨outcome, after, tokens, runs, passes, enough⟩ := progresses
  exact ⟨outcome, after, tokens, runs, passes, fun value ok =>
    (fewer value).trans (enough value ok)⟩

theorem Progresses.value {least : α → Nat} {value : α} (state : State) (nothing : least value = 0) :
    Progresses least (Pure.pure value) state := by
  refine ⟨.ok value, state, [], .done _ _, .refl state, fun _ ok => ?_⟩
  cases ok
  exact nothing.le

theorem Progresses.pure (value : α) (state : State) :
    Progresses (fun _ => 0) (Pure.pure value) state :=
  .value state rfl

theorem Progresses.fail (least : α → Nat) (error : SyntaxError) (state : State) :
    Progresses least (fail error) state := by
  refine ⟨.error error, state.report error, [], .step (.done _ _), ?_, ?_⟩
  · exact { Passes.refl state with }
  · intro value impossible
    cases impossible

theorem Progresses.call {least : α → Nat} {procedure : Procedure α}
    (progresses : Progresses least procedure.body before) :
    Progresses least (Stepwise.call procedure) before := by
  obtain ⟨outcome, after, tokens, runs, rest⟩ := progresses
  exact ⟨outcome, after, tokens, .call runs, rest⟩

theorem Progresses.get {least : α → Nat} {next : State → Action α} {state : State}
    (goesOn : Progresses least (next state) state) : Progresses least (get >>= next) state := by
  obtain ⟨outcome, after, tokens, runs, rest⟩ := goesOn
  exact ⟨outcome, after, tokens, .step runs, rest⟩

theorem Progresses.unexpected (least : α → Nat) (expectation : Expectation) (state : State) :
    Progresses least (unexpected expectation) state :=
  .get (.fail least _ state)

/-- What the first action takes counts for both. -/
theorem Progresses.bind {least : β → Nat} {early : α → Nat} (first : Progresses early action before)
    (goesOn : ∀ value after, after.unread.length + early value ≤ before.unread.length →
      Progresses (fun result => least result - early value) (next value) after) :
    Progresses least (action >>= next) before := by
  obtain ⟨outcome, between, tokens, runs, passes, enough⟩ := first
  cases outcome with
  | error error =>
    refine ⟨.error error, between, tokens, .bind_error runs, passes, ?_⟩
    intro value impossible
    cases impossible
  | ok value =>
    have early := enough value rfl
    have length := passes.length_eq
    obtain ⟨outcome, after, others, runs', further, late⟩ := goesOn value between (by omega)
    refine ⟨outcome, after, tokens ++ others, runs.bind_ok runs', passes.trans further, ?_⟩
    intro result ok
    have late : least result - _ ≤ others.length := late result ok
    rw [List.length_append]
    omega

theorem Takes.round (takes : Takes 1 action before) :
    Rounds (do return some (← action)) before := by
  refine Progresses.bind takes fun value after _ => ?_
  exact .value after rfl

end Steps

section Rounds
variable {round : Action (Option α)} {before : State}

/-- Either there is another round, and a token less, or what follows has to make up for it. -/
theorem Rounds.bind {least : Nat} {next : Option α → Action β} (rounds : Rounds round before)
    (again : ∀ value after, after.unread.length < before.unread.length →
      Takes (least - 1) (next (some value)) after)
    (done : ∀ after, after.unread.length ≤ before.unread.length → Takes least (next none) after) :
    Takes least (round >>= next) before := by
  refine Progresses.bind rounds fun found after shorter => ?_
  cases found with
  | some value => exact again value after shorter
  | none => exact done after shorter

theorem Rounds.orElse {next : Option α → Action (Option β)} (rounds : Rounds round before)
    (again : ∀ value after, after.unread.length < before.unread.length →
      Takes 0 (next (some value)) after)
    (done : ∀ after, after.unread.length ≤ before.unread.length → Rounds (next none) after) :
    Rounds (round >>= next) before := by
  refine Progresses.bind rounds fun found after shorter => ?_
  cases found with
  | some value =>
    refine (again value after shorter).mono fun result => ?_
    cases result <;> exact le_rfl
  | none => exact done after shorter

end Rounds

/-- The first token that comes and is no comment, and the stream behind it. -/
structure Supplies (stream : TokenStream) (token : Token) (behind : TokenStream) : Prop where
  unread : (if token.kind = .endOfInput then [] else token :: significant behind.pending) =
    significant stream.pending
  sameFile : behind.file = stream.file
  endsWith : ∀ finish, stream.EndsWith finish →
    (token.kind = .endOfInput → token = finish) ∧ behind.EndsWith finish
  ended : stream.Ended →
    (token.kind = .endOfInput → behind.cursor.next? = none) ∧ behind.Ended
  account : behind.account = stream.account
  atMost : ∀ limit, AtMost limit stream.buffer → AtMost (limit - 1) behind.buffer

theorem supplies_next {stream : TokenStream} (isReal : stream.next.1.kind ≠ .comment) :
    Supplies stream stream.next.1 stream.next.2 where
  unread := by
    split
    · next isEnd =>
      rw [stream.pending_of_next isEnd]
      rfl
    · next goesOn =>
      rw [(stream.leads_next goesOn).pending]
      simp [significant, isReal]
  sameFile := stream.file_next
  endsWith := fun finish ends => (stream.endsWith_next ends).symm
  ended := fun ended => (stream.ended_next ended).symm
  account := stream.account_next
  atMost := fun limit atMost => by
    have waiting := stream.atMost_next atMost
    rwa [if_neg isReal] at waiting

theorem Supplies.behindComment {stream behind : TokenStream} {token : Token}
    (isComment : stream.next.1.kind = .comment) (supplies : Supplies stream.next.2 token behind) :
    Supplies stream token behind := by
  have leads := stream.leads_next (by rw [isComment]; decide)
  constructor
  case unread =>
    rw [supplies.unread, leads.pending]
    simp [significant, isComment]
  case sameFile => exact supplies.sameFile.trans leads.sameFile
  case endsWith => exact fun finish ends => supplies.endsWith finish (leads.endsWith finish ends)
  case ended => exact fun ended => supplies.ended (leads.ended ended)
  case account => exact supplies.account.trans leads.account
  case atMost =>
    intro limit atMost
    have waiting := stream.atMost_next atMost
    rw [if_pos isComment] at waiting
    exact supplies.atMost limit waiting

theorem runs_nextSignificant (state : State) : ∃ token behind,
    Runs nextSignificant state (.ok token) { state with stream := behind } ∧
      Supplies state.stream token behind := by
  induction counted : state.stream.pending.length using Nat.strong_induction_on
    generalizing state with
  | _ count ih =>
    by_cases isComment : state.stream.next.1.kind = .comment
    · -- The comment was one of the tokens that come, and there are fewer behind it.
      have leads := state.stream.leads_next (by rw [isComment]; decide)
      have shorter : state.stream.next.2.pending.length < count := by
        rw [← counted, leads.pending]
        exact Nat.lt_succ_self _
      obtain ⟨token, behind, runs, supplies⟩ :=
        ih _ shorter { state with stream := state.stream.next.2 } rfl
      refine ⟨token, behind, .call (.nextToken ?_), supplies.behindComment isComment⟩
      rw [if_pos isComment]
      exact runs
    · refine ⟨_, _, .call (.nextToken ?_), supplies_next isComment⟩
      rw [if_neg isComment]
      exact .done _ _

theorem runs_start (earlier : List Diagnostic) (file source : String) : ∃ token behind,
    Runs start (.ofTextAfter earlier file source) (.ok ()) { stream := behind, current := token } ∧
      Supplies (State.ofTextAfter earlier file source).stream token behind := by
  obtain ⟨token, behind, runs, supplies⟩ :=
    runs_nextSignificant (.ofTextAfter earlier file source)
  exact ⟨token, behind, runs.bind_ok (.step (.done _ _)), supplies⟩

/-- The current token was taken, and nothing else has happened. -/
structure Moves (before after : State) : Prop where
  passes : Passes before [before.current] after
  grouped : after.grouped = before.grouped
  account : after.stream.account = before.stream.account
  atMost : ∀ limit, AtMost limit before.stream.buffer → AtMost (limit - 1) after.stream.buffer

theorem runs_advance {state : State} (goesOn : state.current.kind ≠ .endOfInput) :
    ∃ after, Runs advance state (.ok state.current) after ∧ Moves state after := by
  obtain ⟨token, behind, runs, supplies⟩ := runs_nextSignificant state
  let after : State := { state with stream := behind, current := token,
                                    taken := state.taken ++ [state.current] }
  have passes : Passes state [state.current] after := by
    constructor
    case unread =>
      rw [State.unread, if_neg goesOn, ← supplies.unread]
      rfl
    case taken => rfl
    case inside => simpa using goesOn
    case sameFile => exact supplies.sameFile
    case endsWith => exact fun finish given => supplies.endsWith finish given.2
    case ended => exact fun given => supplies.ended given.2
  exact ⟨after, .step (runs.bind_ok (.step (.done _ _))), passes, rfl, supplies.account,
    supplies.atMost⟩

theorem takes_advance {state : State} (goesOn : state.current.kind ≠ .endOfInput) :
    Takes 1 advance state := by
  obtain ⟨after, runs, moves⟩ := runs_advance goesOn
  exact ⟨.ok state.current, after, [state.current], runs, moves.passes, fun _ _ => le_rfl⟩

/-- Nothing is taken from the end of input. -/
def Sees (choose : Token → Option α) : Prop :=
  ∀ token : Token, token.kind = .endOfInput → choose token = none

section Sees

theorem sees_kind {kind : Kind} (real : kind ≠ .endOfInput) : Sees (spanOfKind kind) := by
  intro token isEnd
  rw [spanOfKind, isEnd, if_neg real.symm]

theorem sees_word (word : String) : Sees (spanOfWord word) := by
  intro token isEnd
  simp [spanOfWord, Token.isWord, isEnd]

theorem sees_name : Sees Name.ofToken? := by
  intro token isEnd
  simp [Name.ofToken?, Token.isName, isEnd]

theorem sees_constant : Sees Expr.constant? := by
  intro token isEnd
  rw [Expr.constant?, isEnd]

theorem sees_signed {operator? : Kind → Option α} (real : operator? .endOfInput = none) :
    Sees (signed operator?) := by
  intro token isEnd
  rw [signed, isEnd, real]
  rfl

theorem sees_operator (level : Level) : Sees (signed level.operator?) :=
  sees_signed (by cases level <;> rfl)

theorem sees_typeTest (level : Level) : Sees level.typeTest? := by
  intro token isEnd
  rw [Level.typeTest?, sees_word _ token isEnd, ite_self]

end Sees

section Tokens
variable {choose : Token → Option α}

theorem runs_accept_none {state : State} (rejected : choose state.current = none) :
    Runs (accept choose) state (.ok none) state := by
  refine .current ?_
  rw [rejected]
  exact .done _ _

theorem runs_accept_some {state : State} {value : α} (sees : Sees choose)
    (chosen : choose state.current = some value) :
    ∃ after, Runs (accept choose) state (.ok (some value)) after ∧ Moves state after := by
  have goesOn : state.current.kind ≠ .endOfInput := by
    intro isEnd
    rw [sees _ isEnd] at chosen
    cases chosen
  obtain ⟨after, runs, moves⟩ := runs_advance goesOn
  refine ⟨after, .current ?_, moves⟩
  rw [chosen]
  exact runs.bind_ok (.done _ _)

theorem rounds_accept (sees : Sees choose) (state : State) : Rounds (accept choose) state := by
  cases chosen : choose state.current with
  | none => exact ⟨_, state, [], runs_accept_none chosen, .refl state, by simp⟩
  | some value =>
    obtain ⟨after, runs, moves⟩ := runs_accept_some sees chosen
    exact ⟨_, after, _, runs, moves.passes, by simp⟩

theorem takes_expect (sees : Sees choose) (expectation : Expectation) (state : State) :
    Takes 1 (expect choose expectation) state := by
  refine (rounds_accept sees state).bind (fun value after _ => ?_) (fun after _ => ?_)
  · exact .pure _ after
  · exact .unexpected _ expectation after

end Tokens

theorem takes_expectKind {kind : Kind} (real : kind ≠ .endOfInput) (state : State) :
    Takes 1 (expectKind kind) state :=
  takes_expect (sees_kind real) _ state

theorem takes_expectWord (word : String) (state : State) : Takes 1 (expectWord word) state :=
  takes_expect (sees_word word) _ state

theorem takes_expectName (state : State) : Takes 1 expectName state :=
  takes_expect sees_name _ state

theorem takes_parseType (state : State) : Takes 1 parseType state := by
  refine (takes_expectName state).bind fun name after _ => ?_
  refine (rounds_accept (sees_kind (by decide)) after).bind (fun _ after _ => ?_) fun after _ => ?_
  · refine (takes_expectKind (by decide) after).bind fun _ after _ => ?_
    exact .pure _ after
  · exact .pure _ after

section Questions
variable {least : α → Nat} {state : State}

theorem Progresses.current {next : Token → Action α}
    (goesOn : Progresses least (next state.current) state) :
    Progresses least (current >>= next) state := .get goesOn

theorem Progresses.check {kind : Kind} {next : Bool → Action α}
    (goesOn : Progresses least (next (state.current.kind == kind)) state) :
    Progresses least (check kind >>= next) state := .get goesOn

theorem Progresses.atEnd {next : Bool → Action α}
    (goesOn : Progresses least (next (state.current.kind == .endOfInput)) state) :
    Progresses least (atEnd >>= next) state := .get goesOn

theorem takes_remember (span : Option Span) (value : α) :
    Takes 0 (do modify fun state => { state with grouped := span }; return value) state :=
  ⟨.ok value, { state with grouped := span }, [], .step (.done _ _), { Passes.refl state with },
    fun _ _ => Nat.zero_le _⟩

end Questions

theorem Progresses.skip {least : β → Nat} {action : Action α} {next : α → Action β} {value : α}
    {before after : State} (runs : Runs action before (.ok value) after)
    (passes : Passes before [] after) (goesOn : Progresses least (next value) after) :
    Progresses least (action >>= next) before := by
  obtain ⟨outcome, last, tokens, runs', further, enough⟩ := goesOn
  exact ⟨outcome, last, tokens, runs.bind_ok runs', passes.trans further, enough⟩

/-- The kind of the token at an index, which is that of the end of input behind the tokens. -/
def kindAt (tokens : List Token) (index : Nat) : Kind :=
  (tokens[index]?.map Token.kind).getD .endOfInput

theorem passes_looked {state : State} {stream : TokenStream} (looked : state.stream.Looked stream) :
    Passes state [] { state with stream } where
  unread := by
    simp only [State.unread, looked.leads.pending]
    rfl
  taken := (List.append_nil _).symm
  inside := by simp
  sameFile := looked.leads.sameFile
  endsWith := fun finish ends => ⟨ends.1, looked.leads.endsWith finish ends.2⟩
  ended := fun ended =>
    ⟨fun isEnd => looked.leads.finished (ended.1 isEnd), looked.leads.ended ended.2⟩

theorem runs_lookaheadFrom {n seen offset : Nat} (few : seen ≤ n) (state : State)
    (inside : offset ≤ state.stream.pending.length) : ∃ stream,
    Runs (lookaheadFrom n seen offset) state
        (.ok (kindAt (significant (state.stream.pending.drop offset)) (n - seen)))
        { state with stream } ∧
      state.stream.Looked stream ∧ state.stream.Keeps (n - seen + 1) offset stream := by
  induction left : state.stream.pending.length - offset generalizing state seen offset with
  | zero =>
    have last : offset = state.stream.pending.length := by omega
    have isEnd : (state.stream.peek offset).1.kind = .endOfInput := by
      rw [last]
      exact TokenStream.kind_peek_length
    refine ⟨_, .call (.look ?_), TokenStream.looked_peek inside, state.stream.keeps_peek _ offset⟩
    rw [if_pos isEnd, isEnd, last, List.drop_length]
    exact .done _ _
  | succ left ih =>
    have further : offset < state.stream.pending.length := by omega
    have isNext := TokenStream.peek_of_lt further
    have goesOn : (state.stream.peek offset).1.kind ≠ .endOfInput := by
      rw [isNext]
      exact TokenStream.kind_of_pending (List.getElem_mem further)
    have looked := TokenStream.looked_peek inside
    have same : (state.stream.peek offset).2.pending = state.stream.pending :=
      looked.leads.pending.symm
    -- One round on, the same tokens come, and the offset is closer to their end.
    have again {seen : Nat} (few : seen ≤ n) : ∃ stream,
        Runs (lookaheadFrom n seen (offset + 1))
            { state with stream := (state.stream.peek offset).2 }
            (.ok (kindAt (significant (state.stream.pending.drop (offset + 1))) (n - seen)))
            { state with stream } ∧
          state.stream.Looked stream ∧
          (state.stream.peek offset).2.Keeps (n - seen + 1) (offset + 1) stream := by
      have ahead := @ih seen (offset + 1) few { state with stream := (state.stream.peek offset).2 }
      dsimp only at ahead
      rw [same] at ahead
      obtain ⟨stream, runs, more, keeps⟩ := ahead further (by omega)
      exact ⟨stream, runs, looked.trans more, keeps⟩
    rw [List.drop_eq_getElem_cons further, ← isNext]
    by_cases isComment : (state.stream.peek offset).1.kind = .comment
    · obtain ⟨stream, runs, looked, keeps⟩ := again few
      refine ⟨stream, .call (.look ?_), looked, keeps.behindComment isComment⟩
      rw [if_neg goesOn, if_pos isComment]
      simpa [significant, isComment] using runs
    · have first : significant ((state.stream.peek offset).1 ::
          state.stream.pending.drop (offset + 1)) =
          (state.stream.peek offset).1 :: significant (state.stream.pending.drop (offset + 1)) :=
        List.filter_cons_of_pos (by simpa using isComment)
      rw [first]
      by_cases found : seen = n
      · refine ⟨_, .call (.look ?_), looked, state.stream.keeps_peek _ offset⟩
        rw [if_neg goesOn, if_neg isComment, if_pos found, found, Nat.sub_self]
        exact .done _ _
      · have fewer : n - seen = n - (seen + 1) + 1 := by omega
        obtain ⟨stream, runs, looked, keeps⟩ := again (Nat.lt_of_le_of_ne few found)
        rw [fewer]
        refine ⟨stream, .call (.look ?_), looked, keeps.behindToken isComment⟩
        rw [if_neg goesOn, if_neg isComment, if_neg found]
        exact runs

theorem runs_lookahead (n : Nat) (state : State) : ∃ stream,
    Runs (lookahead n) state (.ok (kindAt (significant state.stream.pending) n))
        { state with stream } ∧
      state.stream.Looked stream ∧
      (AtMost (n + 1) state.stream.buffer → AtMost (n + 1) stream.buffer) := by
  obtain ⟨stream, runs, looked, keeps⟩ :=
    runs_lookaheadFrom (Nat.zero_le n) state (Nat.zero_le _)
  refine ⟨stream, runs, looked, fun atMost => ?_⟩
  obtain ⟨rest, buffer, few⟩ := keeps [] state.stream.buffer rfl rfl atMost
  rw [buffer]
  exact few

section Lists
variable {item : Action α} {others : Action (List α)} {state : State}

theorem rounds_braceRound (takes : Takes 1 item state) : Rounds (braceRound item) state := by
  refine .check (.atEnd ?_)
  split
  · exact .value state rfl
  · exact takes.round

theorem takes_collect {round : Action (Option α)} (rounds : Rounds round state)
    (again : ∀ after, after.unread.length < state.unread.length → Takes 0 others after) :
    Takes 0 (collect round others) state := by
  refine rounds.bind (fun first after shorter => ?_) fun after _ => ?_
  · refine (again after shorter).bind fun others after _ => ?_
    exact .pure _ after
  · exact .pure _ after

theorem takes_commaRound (takes : Takes 1 item state) : Takes 1 (commaRound item) state := by
  refine takes.bind fun value after _ => ?_
  refine (rounds_accept (sees_kind (by decide)) after).bind (fun _ after _ => ?_) fun after _ => ?_
  · exact .pure _ after
  · exact .pure _ after

theorem takes_separated (takes : Takes 1 item state)
    (again : ∀ after, after.unread.length < state.unread.length → Takes 1 others after) :
    Takes 1 (separated item others) state := by
  refine (takes_commaRound takes).bind fun (first, more) after shorter => ?_
  dsimp only
  split
  · refine (again after shorter).bind fun others after _ => ?_
    exact .pure _ after
  · exact .pure _ after

end Lists

-- Behind the first token of an expression there are fewer tokens, so each function is given what
-- `parseExpr` takes below some number of tokens.
section Expressions
variable {bound : Nat}
  (below : ∀ state : State, state.unread.length < bound → Takes 1 parseExpr state)
include below

theorem takes_parseMoreArguments {state : State} (inside : state.unread.length < bound) :
    Takes 1 parseMoreArguments state := by
  refine .call ?_
  refine takes_separated (below state inside) fun after shorter => ?_
  have further : after.unread.length < bound := by omega
  exact takes_parseMoreArguments further
termination_by state.unread.length

variable {state : State} (inside : state.unread.length ≤ bound)
include inside

theorem takes_parseArguments : Takes 1 parseArguments state := by
  rw [parseArguments]
  refine (takes_expectKind (by decide) state).bind fun _ after _ => ?_
  refine .check ?_
  split
  · refine (takes_expectKind (by decide) after).bind fun close after _ => ?_
    exact .pure _ after
  · refine (takes_parseMoreArguments below (by omega)).bind fun arguments after _ => ?_
    refine (takes_expectKind (by decide) after).bind fun close after _ => ?_
    exact .pure _ after

theorem takes_parseSuffix (qualifier : Option Expr) (name : Name) :
    Takes 0 (parseSuffix qualifier name) state := by
  rw [parseSuffix]
  refine .check ?_
  split
  · refine (takes_parseArguments below inside).bind fun (arguments, close) after _ => ?_
    exact .pure _ after
  · refine (rounds_accept (sees_kind (by decide)) state).bind (fun _ after _ => ?_)
      fun after _ => ?_
    · refine (below after (by omega)).bind fun index after _ => ?_
      refine (takes_expectKind (by decide) after).bind fun close after _ => ?_
      exact .pure _ after
    · exact .pure _ after

theorem takes_parseNamed (qualifier : Option Expr) : Takes 1 (parseNamed qualifier) state := by
  rw [parseNamed]
  refine (takes_expectName state).bind fun name after _ => ?_
  exact takes_parseSuffix below (by omega) qualifier name

theorem rounds_selectionRound (head : Expr) : Rounds (selectionRound head) state := by
  rw [selectionRound]
  refine (rounds_accept (sees_kind (by decide)) state).orElse (fun _ after _ => ?_)
    fun after _ => ?_
  · refine (takes_parseNamed below (by omega) (some head)).bind fun selection after _ => ?_
    exact .pure _ after
  · exact .value after rfl

omit inside in
theorem takes_parseSelections {state : State} (inside : state.unread.length ≤ bound) (head : Expr)
    (selected : Bool) : Takes 0 (parseSelections head selected) state := by
  refine .call ?_
  rw [Procedure.body, selections]
  have round := rounds_selectionRound below inside head
  refine round.bind (fun selection after _ => ?_) fun after _ => ?_
  · exact takes_parseSelections (by omega) selection true
  · exact .pure _ after
termination_by state.unread.length

theorem takes_parseAtom : Takes 1 parseAtom state := by
  rw [parseAtom]
  refine (rounds_accept (sees_kind (by decide)) state).bind (fun span after _ => ?_)
    fun after _ => ?_
  · refine (below after (by omega)).bind fun inner after _ => ?_
    refine (takes_expectKind (by decide) after).bind fun close after _ => ?_
    exact .pure _ after
  · refine (rounds_accept sees_constant after).bind (fun constant after _ => ?_) fun after _ => ?_
    · exact .pure _ after
    · refine .current ?_
      split
      · exact takes_parseNamed below (by omega) none
      · exact .unexpected _ _ after

theorem takes_parsePrimary : Takes 1 parsePrimary state := by
  rw [parsePrimary]
  refine .current ?_
  refine (takes_parseAtom below inside).bind fun atom after _ => ?_
  have selections := takes_parseSelections below (by omega : after.unread.length ≤ bound) atom false
  refine selections.bind fun (expr, selected) after _ => ?_
  dsimp only
  split
  · exact takes_remember (some expr.span) expr
  · exact .pure _ after

theorem takes_parsePostfix : Takes 1 parsePostfix state := by
  rw [parsePostfix]
  refine (takes_parsePrimary below inside).bind fun operand after _ => ?_
  refine (rounds_accept (sees_signed rfl) after).bind (fun sign after _ => ?_) fun after _ => ?_
  · exact .pure _ after
  · exact .pure _ after

theorem takes_parseNew : Takes 1 parseNew state := by
  rw [parseNew]
  refine (takes_expectWord "new" state).bind fun span after _ => ?_
  refine (takes_expectName after).bind fun name after _ => ?_
  refine (rounds_accept (sees_kind (by decide)) after).bind (fun _ after _ => ?_) fun after _ => ?_
  · refine (takes_expectKind (by decide) after).bind fun close after _ => ?_
    exact .pure _ after
  · refine (rounds_accept (sees_kind (by decide)) after).bind (fun _ after _ => ?_)
      fun after _ => ?_
    · refine (below after (by omega)).bind fun size after _ => ?_
      refine (takes_expectKind (by decide) after).bind fun close after _ => ?_
      exact .pure _ after
    · exact .unexpected _ _ after

theorem takes_parseCast : Takes 1 parseCast state := by
  rw [parseCast]
  refine (takes_expectWord "cast" state).bind fun span after _ => ?_
  refine (takes_expectKind (by decide) after).bind fun _ after _ => ?_
  refine (takes_parseType after).bind fun type after _ => ?_
  refine (takes_expectKind (by decide) after).bind fun _ after _ => ?_
  refine (below after (by omega)).bind fun operand after _ => ?_
  refine (takes_expectKind (by decide) after).bind fun close after _ => ?_
  exact .pure _ after

omit inside in
theorem takes_parseUnary {state : State} (inside : state.unread.length ≤ bound) :
    Takes 1 parseUnary state := by
  refine .call ?_
  rw [Procedure.body, unary]
  refine (rounds_accept (sees_signed rfl) state).bind (fun sign after _ => ?_) fun after _ => ?_
  · have further : after.unread.length ≤ bound := by omega
    refine (takes_parseUnary further).bind fun operand after _ => ?_
    exact .pure _ after
  · have same : after.unread.length ≤ bound := by omega
    refine .current ?_
    split
    · exact takes_parseNew below same
    · refine .current ?_
      split
      · exact takes_parseCast below same
      · exact takes_parsePostfix below same
termination_by state.unread.length

end Expressions

section Operators
variable {bound : Nat} {level : Level}
  (operand : ∀ state : State, state.unread.length ≤ bound → Takes 1 (parseOperand level) state)
include operand

theorem rounds_operatorRound (left : Expr) {state : State} (inside : state.unread.length ≤ bound) :
    Rounds (operatorRound level left) state := by
  rw [operatorRound]
  have test := rounds_accept (sees_typeTest level) state
  refine test.orElse (fun _ after _ => ?_) fun after _ => ?_
  · refine .current ?_
    refine (takes_parseType after).bind fun type after _ => ?_
    exact .pure _ after
  · have sign := rounds_accept (sees_operator level) after
    refine sign.orElse (fun _ after _ => ?_) fun after _ => ?_
    · refine (operand after (by omega)).bind fun right after _ => ?_
      exact .pure _ after
    · exact .value after rfl

theorem takes_parseMoreOperators (left : Expr) {state : State}
    (inside : state.unread.length ≤ bound) : Takes 0 (parseMoreOperators level left) state := by
  refine .call ?_
  rw [Procedure.body, moreOperators]
  have round := rounds_operatorRound operand left inside
  refine round.bind (fun joined after _ => ?_) fun after _ => ?_
  · exact takes_parseMoreOperators joined (by omega)
  · exact .pure _ after
termination_by state.unread.length

theorem takes_parseOperators {state : State} (inside : state.unread.length ≤ bound) :
    Takes 1 (parseOperators level) state := by
  refine .call ?_
  rw [Procedure.body, operation]
  refine (operand state inside).bind fun left after _ => ?_
  exact takes_parseMoreOperators operand left (by omega)

end Operators

section Levels
variable {bound : Nat}
  (below : ∀ state : State, state.unread.length < bound → Takes 1 parseExpr state)
include below

theorem takes_parseOperand (level : Level) {state : State} (inside : state.unread.length ≤ bound) :
    Takes 1 (parseOperand level) state := by
  rw [parseOperand]
  split
  · next tighter found =>
    have lower := Level.height_of_tighter? found
    apply takes_parseOperators _ inside
    intro state inside
    exact takes_parseOperand tighter inside
  · exact takes_parseUnary below inside
termination_by level.height

end Levels

theorem takes_parseExpr (state : State) : Takes 1 parseExpr state := by
  have below (after : State) (shorter : after.unread.length < state.unread.length) :
      Takes 1 parseExpr after := takes_parseExpr after
  have operand (after : State) (inside : after.unread.length ≤ state.unread.length) :=
    takes_parseOperand below .or inside
  refine .call ?_
  rw [Procedure.body, assignment]
  refine (takes_parseOperators operand le_rfl).bind fun left after _ => ?_
  refine .check ?_
  split
  · exact .pure _ after
  · next assigns =>
    refine .get ?_
    split
    · have goesOn : after.current.kind ≠ .endOfInput := by
        intro isEnd
        simp [isEnd] at assigns
      refine (takes_advance goesOn).bind fun _ after _ => ?_
      refine (below after (by omega)).bind fun value after _ => ?_
      exact .pure _ after
    · exact .fail _ _ after
termination_by state.unread.length

theorem takes_below (bound : Nat) (state : State) (_ : state.unread.length < bound) :
    Takes 1 parseExpr state :=
  takes_parseExpr state

/-- The tokens that a declaration is told by. -/
def declares (word : Token) (ahead : List Token) : Bool :=
  !isKeyword word.spelling && (kindAt ahead 0 == .identifier ||
    kindAt ahead 0 == .leftBracket && kindAt ahead 1 == .rightBracket)

/-- So many tokens behind the first are looked at to tell whether it begins a declaration. -/
def foreseen : List Token → Nat
  | [] => 0
  | word :: ahead => if word.isName then if kindAt ahead 0 = .leftBracket then 2 else 1 else 0

theorem runs_atDeclaration (state : State) : ∃ stream,
    Runs atDeclaration state
        (.ok (declares state.current (significant state.stream.pending)))
        { state with stream } ∧
      state.stream.Looked stream ∧
      (state.current.kind = .identifier → state.stream.buffer = [] →
        AtMost (foreseen (state.current :: significant state.stream.pending)) stream.buffer) := by
  unfold declares
  cases keyword : isKeyword state.current.spelling with
  | true =>
    refine ⟨state.stream, .current ?_, .refl _, fun _ empty => ?_⟩
    · rw [if_pos keyword]
      exact .done _ _
    · rw [empty]
      exact .nil _
  | false =>
    obtain ⟨stream, runs, looked, few⟩ := runs_lookahead 0 state
    have free : ¬isKeyword state.current.spelling = true := by simp [keyword]
    have isName (isWord : state.current.kind = .identifier) : state.current.isName = true := by
      simp [Token.isName, isWord, keyword]
    have one (empty : state.stream.buffer = []) : AtMost 1 stream.buffer := by
      rw [empty] at few
      exact few (.nil 1)
    cases first : kindAt (significant state.stream.pending) 0 with
    | leftBracket =>
      obtain ⟨stream', runs', looked', few'⟩ := runs_lookahead 1 { state with stream }
      refine ⟨stream', .current ?_, looked.trans looked', fun isWord empty => ?_⟩
      · rw [first] at runs
        rw [if_neg free, looked.leads.pending]
        exact runs.bind_ok (runs'.bind_ok (.done _ _))
      · rw [foreseen, if_pos (isName isWord), first, if_pos rfl]
        exact few' ((one empty).mono (by decide))
    | _ =>
      refine ⟨stream, .current ?_, looked, fun isWord empty => ?_⟩
      · rw [first] at runs
        rw [if_neg free]
        exact runs.bind_ok (.done _ _)
      · rw [foreseen, if_pos (isName isWord), first, if_neg (by decide)]
        exact one empty

theorem takes_parseOptional (closing : Kind) (state : State) :
    Takes 0 (parseOptional closing) state := by
  refine .check ?_
  split
  · exact .pure _ state
  · refine (takes_parseExpr state).bind fun expr after _ => ?_
    exact .pure _ after

theorem takes_parseDeclaration (state : State) : Takes 1 parseDeclaration state := by
  refine .current ?_
  refine (takes_parseType state).bind fun type after _ => ?_
  refine (takes_expectName after).bind fun name after _ => ?_
  refine (takes_expectKind (by decide) after).bind fun _ after _ => ?_
  refine (takes_parseExpr after).bind fun init after _ => ?_
  refine (takes_expectKind (by decide) after).bind fun close after _ => ?_
  exact .pure _ after

theorem takes_parseReturn (state : State) : Takes 1 parseReturn state := by
  refine (takes_expectWord "return" state).bind fun start after _ => ?_
  refine (takes_parseOptional .semicolon after).bind fun value after _ => ?_
  refine (takes_expectKind (by decide) after).bind fun close after _ => ?_
  exact .pure _ after

theorem takes_parseEffect (state : State) : Takes 1 parseEffect state := by
  refine (takes_parseExpr state).bind fun expr after _ => ?_
  refine (takes_expectKind (by decide) after).bind fun close after _ => ?_
  exact .pure _ after

theorem takes_parseCondition (state : State) : Takes 1 parseCondition state := by
  refine (takes_expectKind (by decide) state).bind fun _ after _ => ?_
  refine (takes_parseExpr after).bind fun condition after _ => ?_
  refine (takes_expectKind (by decide) after).bind fun _ after _ => ?_
  exact .pure _ after

theorem takes_parseLoopHead (state : State) : Takes 1 parseLoopHead state := by
  refine (takes_expectKind (by decide) state).bind fun _ after _ => ?_
  refine (takes_parseOptional .semicolon after).bind fun init after _ => ?_
  refine (takes_expectKind (by decide) after).bind fun _ after _ => ?_
  refine (takes_parseOptional .semicolon after).bind fun condition after _ => ?_
  refine (takes_expectKind (by decide) after).bind fun _ after _ => ?_
  refine (takes_parseOptional .rightParen after).bind fun update after _ => ?_
  refine (takes_expectKind (by decide) after).bind fun _ after _ => ?_
  exact .pure _ after

mutual

theorem takes_parseStatement (state : State) : Takes 1 parseStatement state := by
  refine .call ?_
  rw [Procedure.body, statement]
  refine .current ?_
  split
  · refine (takes_parseBlock state).bind fun (body, span) after _ => ?_
    exact .pure _ after
  · next isWord =>
    obtain ⟨stream, runs, looked, -⟩ := runs_atDeclaration state
    have passes := passes_looked looked
    have same := passes.length_eq
    refine .skip runs passes ?_
    split
    · exact takes_parseDeclaration _
    · split
      · exact takes_parseBranch _
      · exact takes_parseWhile _
      · exact takes_parseFor _
      · exact takes_parseReturn _
      · have goesOn : state.current.kind ≠ .endOfInput := by
          rw [isWord]
          decide
        refine (@takes_advance { state with stream } goesOn).bind fun _ after _ => ?_
        refine (takes_expectKind (by decide) after).bind fun close after _ => ?_
        exact .pure _ after
      · exact takes_parseEffect _
  · exact takes_parseEffect state
termination_by descent state.unread 1
decreasing_by all_goals simp only [descent]; omega

theorem takes_parseBlock (state : State) : Takes 1 parseBlock state := by
  rw [parseBlock]
  refine (takes_expectKind (by decide) state).bind fun start after _ => ?_
  refine (takes_parseStatements after).bind fun body after _ => ?_
  refine (takes_expectKind (by decide) after).bind fun close after _ => ?_
  exact .pure _ after
termination_by descent state.unread 0
decreasing_by simp only [descent]; omega

theorem takes_parseStatements (state : State) : Takes 0 parseStatements state := by
  refine .call ?_
  refine takes_collect (rounds_braceRound (takes_parseStatement state)) fun after shorter => ?_
  exact takes_parseStatements after
termination_by descent state.unread 2
decreasing_by all_goals simp only [descent]; omega

theorem takes_parseBranch (state : State) : Takes 1 parseBranch state := by
  rw [parseBranch]
  refine (takes_expectWord "if" state).bind fun start after _ => ?_
  refine (takes_parseCondition after).bind fun condition after _ => ?_
  refine (takes_parseStatement after).bind fun thenBranch after _ => ?_
  refine (rounds_accept (sees_word "else") after).bind (fun _ after _ => ?_) fun after _ => ?_
  · refine (takes_parseStatement after).bind fun elseBranch after _ => ?_
    exact .pure _ after
  · exact .pure _ after
termination_by descent state.unread 0
decreasing_by all_goals simp only [descent]; omega

theorem takes_parseWhile (state : State) : Takes 1 parseWhile state := by
  rw [parseWhile]
  refine (takes_expectWord "while" state).bind fun start after _ => ?_
  refine (takes_parseCondition after).bind fun condition after _ => ?_
  refine (takes_parseStatement after).bind fun body after _ => ?_
  exact .pure _ after
termination_by descent state.unread 0
decreasing_by simp only [descent]; omega

theorem takes_parseFor (state : State) : Takes 1 parseFor state := by
  rw [parseFor]
  refine (takes_expectWord "for" state).bind fun start after _ => ?_
  refine (takes_parseLoopHead after).bind fun head after _ => ?_
  refine (takes_parseStatement after).bind fun body after _ => ?_
  exact .pure _ after
termination_by descent state.unread 0
decreasing_by simp only [descent]; omega

end

theorem takes_parseFormal (state : State) : Takes 1 parseFormal state := by
  refine .current ?_
  refine (takes_parseType state).bind fun type after _ => ?_
  refine (takes_expectName after).bind fun name after _ => ?_
  exact .pure _ after

theorem takes_parseMoreFormals (state : State) : Takes 1 parseMoreFormals state := by
  refine .call ?_
  refine takes_separated (takes_parseFormal state) fun after shorter => ?_
  exact takes_parseMoreFormals after
termination_by state.unread.length
decreasing_by omega

theorem takes_parseFormals (state : State) : Takes 0 parseFormals state := by
  refine .check ?_
  split
  · exact .pure _ state
  · exact (takes_parseMoreFormals state).mono fun _ => Nat.zero_le _

theorem takes_parseInit (state : State) : Takes 0 parseInit state := by
  refine (rounds_accept (sees_kind (by decide)) state).bind (fun _ after _ => ?_) fun after _ => ?_
  · refine (takes_parseExpr after).bind fun init after _ => ?_
    exact .pure _ after
  · exact .pure _ after

theorem takes_parseMember (state : State) : Takes 1 parseMember state := by
  refine .current ?_
  refine (takes_parseType state).bind fun type after _ => ?_
  refine (takes_expectName after).bind fun name after _ => ?_
  refine (rounds_accept (sees_kind (by decide)) after).bind (fun _ after _ => ?_) fun after _ => ?_
  · refine (takes_parseFormals after).bind fun formals after _ => ?_
    refine (takes_expectKind (by decide) after).bind fun _ after _ => ?_
    refine (takes_parseBlock after).bind fun (body, span) after _ => ?_
    exact .pure _ after
  · refine (takes_parseInit after).bind fun init after _ => ?_
    refine (takes_expectKind (by decide) after).bind fun close after _ => ?_
    exact .pure _ after

theorem takes_parseMembers (state : State) : Takes 0 parseMembers state := by
  refine .call ?_
  refine takes_collect (rounds_braceRound (takes_parseMember state)) fun after shorter => ?_
  exact takes_parseMembers after
termination_by state.unread.length

theorem takes_parseParent (state : State) : Takes 0 parseParent state := by
  refine (rounds_accept (sees_word "extends") state).bind (fun _ after _ => ?_) fun after _ => ?_
  · refine (takes_expectName after).bind fun parent after _ => ?_
    exact .pure _ after
  · exact .pure _ after

theorem takes_parseClass (state : State) : Takes 1 parseClass state := by
  refine (takes_expectWord "class" state).bind fun start after _ => ?_
  refine (takes_expectName after).bind fun name after _ => ?_
  refine (takes_parseParent after).bind fun parent after _ => ?_
  refine (takes_expectKind (by decide) after).bind fun _ after _ => ?_
  refine (takes_parseMembers after).bind fun members after _ => ?_
  refine (takes_expectKind (by decide) after).bind fun close after _ => ?_
  exact .get (.pure _ after)

theorem rounds_classRound (state : State) : Rounds classRound state := by
  refine .atEnd ?_
  split
  · exact .value state rfl
  · exact (takes_parseClass state).round

theorem takes_parseClasses (state : State) : Takes 0 parseClasses state := by
  refine .call ?_
  refine takes_collect (rounds_classRound state) fun after shorter => ?_
  exact takes_parseClasses after
termination_by state.unread.length

theorem takes_parseProgram (state : State) : Takes 0 parseProgram state := by
  refine (takes_parseClasses state).bind fun classes after _ => ?_
  exact .pure _ after

/-- From every state the action comes to an end. If it succeeds, it has taken a token. -/
def Advances (action : Action α) : Prop := ∀ state, Takes 1 action state

/-- From every state the action comes to an end, with or without taking a token. -/
def Ends (action : Action α) : Prop := ∀ state, Takes 0 action state

/-- From every state the round comes to an end. If it is not the last one, it has taken a token. -/
def Shrinks (round : Action (Option α)) : Prop := ∀ state, Rounds round state

/-- In every round that is not the last one, skipping comments and looking ahead get closer to the
end of input. A lookahead leaves what is to come, and reads no more than the end of input. -/
structure StreamLoops : Prop where
  comments : ∀ stream : TokenStream, stream.next.1.kind = .comment →
    stream.next.2.pending.length < stream.pending.length
  lookaheadRounds : ∀ (stream : TokenStream) (offset : Nat), offset ≤ stream.pending.length →
    (stream.peek offset).1.kind ≠ .endOfInput →
      offset + 1 ≤ (stream.peek offset).2.pending.length ∧
      ((stream.peek offset).2.pending.drop (offset + 1)).length <
        (stream.pending.drop offset).length
  lookaheads : ∀ (n : Nat) (state : State), ∃ stream, state.stream.Looked stream ∧
    Runs (lookahead n) state (.ok (kindAt (significant state.stream.pending) n))
      { state with stream }

theorem streamLoops : StreamLoops where
  comments := by
    intro stream isComment
    have leads := stream.leads_next (by rw [isComment]; decide)
    rw [leads.pending]
    exact Nat.lt_succ_self _
  lookaheadRounds := by
    intro stream offset inside goesOn
    have further : offset ≠ stream.pending.length := by
      rintro rfl
      exact goesOn TokenStream.kind_peek_length
    have same : (stream.peek offset).2.pending = stream.pending :=
      (TokenStream.leads_peek stream offset).pending.symm
    rw [same, List.length_drop, List.length_drop]
    omega
  lookaheads := by
    intro n state
    obtain ⟨stream, runs, looked, -⟩ := runs_lookahead n state
    exact ⟨stream, looked, runs⟩

/-- What each function of the parser takes, and each round of its loops. There is just one end to
which it can come. -/
structure Progress : Prop extends StreamLoops where
  determined : ∀ {α : Type} {action : Action α} {before after last : State}
    {outcome other : Except SyntaxError α},
    Runs action before outcome after → Runs action before other last →
      outcome = other ∧ after = last
  classes : Advances parseClass
  members : Advances parseMember
  formals : Ends parseFormals
  types : Advances parseType
  statements : Advances parseStatement
  blocks : Advances parseBlock
  declarations : Advances parseDeclaration
  branches : Advances parseBranch
  whileLoops : Advances parseWhile
  forLoops : Advances parseFor
  returns : Advances parseReturn
  effects : Advances parseEffect
  optionals : ∀ closing, Ends (parseOptional closing)
  expressions : Advances parseExpr
  operators : ∀ level, Advances (parseOperators level)
  operands : ∀ level, Advances (parseOperand level)
  unaries : Advances parseUnary
  creations : Advances parseNew
  casts : Advances parseCast
  postfixes : Advances parsePostfix
  primaries : Advances parsePrimary
  names : ∀ qualifier, Advances (parseNamed qualifier)
  arguments : Advances parseArguments
  programs : Ends parseProgram
  classRounds : Shrinks classRound
  memberRounds : Shrinks (braceRound parseMember)
  statementRounds : Shrinks (braceRound parseStatement)
  formalRounds : Advances (commaRound parseFormal)
  argumentRounds : Advances (commaRound parseExpr)
  operatorRounds : ∀ level left, Shrinks (operatorRound level left)
  selectionRounds : ∀ head, Shrinks (selectionRound head)

theorem progress : Progress where
  toStreamLoops := streamLoops
  determined := Runs.unique
  classes := takes_parseClass
  members := takes_parseMember
  formals := takes_parseFormals
  types := takes_parseType
  statements := takes_parseStatement
  blocks := takes_parseBlock
  declarations := takes_parseDeclaration
  branches := takes_parseBranch
  whileLoops := takes_parseWhile
  forLoops := takes_parseFor
  returns := takes_parseReturn
  effects := takes_parseEffect
  optionals := takes_parseOptional
  expressions := takes_parseExpr
  operators := fun level _ =>
    takes_parseOperators (fun _ => takes_parseOperand (takes_below _) level) le_rfl
  operands := fun level _ => takes_parseOperand (takes_below _) level le_rfl
  unaries := fun _ => takes_parseUnary (takes_below _) le_rfl
  creations := fun _ => takes_parseNew (takes_below _) le_rfl
  casts := fun _ => takes_parseCast (takes_below _) le_rfl
  postfixes := fun _ => takes_parsePostfix (takes_below _) le_rfl
  primaries := fun _ => takes_parsePrimary (takes_below _) le_rfl
  names := fun qualifier _ => takes_parseNamed (takes_below _) le_rfl qualifier
  arguments := fun _ => takes_parseArguments (takes_below _) le_rfl
  programs := takes_parseProgram
  classRounds := rounds_classRound
  memberRounds := fun state => rounds_braceRound (takes_parseMember state)
  statementRounds := fun state => rounds_braceRound (takes_parseStatement state)
  formalRounds := fun state => takes_commaRound (takes_parseFormal state)
  argumentRounds := fun state => takes_commaRound (takes_parseExpr state)
  operatorRounds := fun level left _ =>
    rounds_operatorRound (fun _ => takes_parseOperand (takes_below _) level) left le_rfl
  selectionRounds := fun head _ => rounds_selectionRound (takes_below _) le_rfl head

end Bantam.Stepwise
