import Bantam.Proofs.Syntax.Resumption
import Bantam.Proofs.Syntax.StepwisePrograms

/-! Texts, step by step. From the beginning of a text the stepwise parser comes to what the text is
parsed as, and it has reported the same by then: the invalid tokens up to its current one, each when
it was read, and the error, if there is one, where it fails. Called again it goes on as a parser
does that is asked again, with whatever tokens it has looked at and whatever parentheses it
remembers. -/
namespace Bantam.Stepwise

section Texts
variable {stream : TokenStream} {state : State}

theorem endsWith_ofText (file source : String) :
    (TokenStream.ofText file source).EndsWith (Cursor.ofText source).endOfInput := by
  obtain ⟨front, split, inside⟩ := (Cursor.ofText source).exists_tokens
  intro token member isEnd
  have member : token ∈ (Cursor.ofText source).tokens := member
  rw [split] at member
  rcases List.mem_append.mp member with early | last
  · exact absurd isEnd (inside token early)
  · exact List.mem_singleton.mp last

/-- If no token waits, those that come are the rest of the text. -/
theorem significant_pending (empty : stream.buffer = []) : significant stream.pending =
    stream.cursor.tokens.filter fun token =>
      token.kind != .comment && token.kind != .endOfInput := by
  obtain ⟨front, split, inside⟩ := stream.cursor.exists_tokens
  have coming : stream.coming = front ++ [stream.cursor.endOfInput] := by
    rw [TokenStream.coming, empty, List.nil_append, split]
  have last : ([stream.cursor.endOfInput].filter fun token =>
      token.kind != .comment && token.kind != .endOfInput) = [] := rfl
  rw [TokenStream.pending_of_coming coming inside rfl, split, List.filter_append, last,
    List.append_nil, significant]
  apply List.filter_congr
  intro token member
  simp [inside token member]

theorem significant_ofText (file source : String) :
    significant (TokenStream.ofText file source).pending = Grammar.meaningful source :=
  significant_pending rfl

theorem lexicalDiagnostics_pending (empty : stream.buffer = []) :
    lexicalDiagnostics stream.file (significant stream.pending) =
      lexicalDiagnostics stream.file stream.cursor.tokens := by
  rw [significant_pending empty]
  apply lexicalDiagnostics_filter
  intro token invalid
  simp [invalid]

theorem ofFailure_eq {finish : Token} {failure : Failure}
    (unread : state.unread = failure.rest) (ends : state.EndsWith finish) :
    SyntaxError.ofFailure state.current failure = .ofFailure finish failure := by
  obtain ⟨obstacle, rest⟩ := failure
  cases rest with
  | nil => rw [ends.1 (current_of_unread_nil unread)]
  | cons token rest => cases obstacle <;> rfl

theorem account_eq (empty : state.stream.buffer = []) (ended : state.Ended) :
    state.stream.account = state.stream.reported ++
      lexicalDiagnostics state.stream.file (state.unread.drop 1) := by
  rw [TokenStream.account, ← lexicalDiagnostics_pending empty, State.unread]
  split
  · next isEnd =>
    -- Nothing comes any more, so nothing is left to report.
    rw [lexicalDiagnostics_pending empty, Cursor.tokens_of_none (ended.1 isEnd)]
    rfl
  · rfl

theorem reported_of_account {file : String} {base : List Diagnostic} {reached : List Token}
    (empty : state.stream.buffer = []) (ended : state.Ended) (sameFile : state.stream.file = file)
    (account : state.stream.account =
      base ++ lexicalDiagnostics file (reached ++ state.unread.drop 1)) :
    state.stream.reported = base ++ lexicalDiagnostics file reached := by
  rw [account_eq empty ended, sameFile, lexicalDiagnostics_append, ← List.append_assoc] at account
  exact List.append_cancel_right account

end Texts

/-- The stepwise parser stands in a source text where another parser stands, and the same has been
reported. -/
structure Matches (file source : String) (parser : Parser) (state : State) : Prop where
  inside : parser.Inside file source
  here : state.At source 0 parser.unread
  endsWith : state.EndsWith parser.finish
  ended : state.Ended
  sameFile : state.stream.file = file
  reported : state.stream.reported = parser.reported

theorem matches_start (earlier : List Diagnostic) (file source : String) : ∃ state,
    Runs start (.ofTextAfter earlier file source) (.ok ()) state ∧
      Matches file source (.ofText file source earlier) state := by
  obtain ⟨token, behind, runs, supplies⟩ := runs_start earlier file source
  let state : State := { stream := behind, current := token }
  have unread : state.unread = Grammar.meaningful source :=
    supplies.unread.trans (significant_ofText file source)
  have empty : AtMost 0 state.stream.buffer := supplies.atMost 0 (.nil 0)
  have ended : state.Ended := supplies.ended fun _ member => nomatch member
  refine ⟨state, runs, ?_⟩
  constructor
  case inside => exact Parser.inside_ofText file source earlier
  case here => exact ⟨unread, List.suffix_rfl, (fun _ same => nomatch same), empty⟩
  case endsWith => exact supplies.endsWith _ (endsWith_ofText file source)
  case ended => exact ended
  case sameFile => exact supplies.sameFile
  case reported =>
    apply reported_of_account empty.eq_nil ended supplies.sameFile
    rw [unread]
    show state.stream.account = earlier ++ lexicalDiagnostics file
      ((Grammar.meaningful source).take 1 ++ (Grammar.meaningful source).drop 1)
    rw [List.take_append_drop, lexicalDiagnostics_meaningful]
    exact supplies.account

theorem State.At.report {source : String} {limit : Nat} {tokens : List Token} {state : State}
    (here : state.At source limit tokens) (error : SyntaxError) :
    (state.report error).At source limit tokens :=
  ⟨here.unread, here.inside, here.known, here.ahead⟩

section Goings
variable {file source : String} {parser : Parser} {state after : State} {rest : List Token}

theorem Matches.reported_goTo (standing : Matches file source parser state)
    (reaches : Reaches source state rest after) (ended : after.Ended)
    (suffix : rest <:+ parser.unread) : after.stream.reported = (parser.goTo rest).reported := by
  obtain ⟨front, split⟩ := suffix
  have passed : parser.unread.length - rest.length = front.length := by
    rw [← split, List.length_append, Nat.add_sub_cancel_right]
  have left : (parser.unread.drop 1).drop front.length = rest.drop 1 := by
    rw [List.drop_drop, Nat.add_comm, ← List.drop_drop, ← split, List.drop_left]
  have file : after.stream.file = parser.file :=
    reaches.sameFile.trans (standing.sameFile.trans standing.inside.file.symm)
  apply reported_of_account reaches.here.ahead.eq_nil ended file
  rw [reaches.account, account_eq standing.here.ahead.eq_nil standing.ended, standing.here.unread,
    reaches.here.unread, standing.reported, standing.sameFile, standing.inside.file, passed, ← left,
    List.take_append_drop]

/-- Called once, both come to the same outcome, and stand at the same place again. -/
theorem Matches.parse (standing : Matches file source parser state) : ∃ after,
    Runs parseProgram state parser.parse.1 after ∧ Matches file source parser.parse.2 after := by
  have plain := Remembered.readClasses_fst file standing.here.inside standing.here.known
  have follows := follows_parseClasses standing.here
  obtain ⟨outcome, last, tokens, runs, passes, -⟩ := takes_parseClasses state
  have inside := standing.inside.parse
  rw [standing.sameFile] at follows
  rw [Parser.parse, standing.inside.file, ← plain] at inside ⊢
  split at follows
  · next failure failed =>
    obtain ⟨stopped, stops, reaches⟩ := follows
    obtain rfl := (stops.unique runs).2
    have endsWith : stopped.EndsWith parser.finish := passes.endsWith _ standing.endsWith
    have ended : stopped.Ended := passes.ended standing.ended
    have suffix : failure.rest <:+ parser.unread := by
      rw [← standing.here.unread, passes.unread]
      exact ⟨tokens, congrArg _ reaches.here.unread.symm⟩
    have reported := standing.reported_goTo reaches ended suffix
    rw [ofFailure_eq reaches.here.unread endsWith] at stops
    rw [failed] at inside ⊢
    refine ⟨_, .bind_error stops, ?_⟩
    constructor
    case inside => exact inside
    case here => exact reaches.here.report _
    case endsWith => exact endsWith
    case ended => exact ended
    case sameFile => exact reaches.sameFile.trans standing.sameFile
    case reported =>
      show stopped.stream.reported ++ [SyntaxError.toDiagnostic stopped.stream.file _] =
        (parser.goTo failure.rest).reported ++ [SyntaxError.toDiagnostic file _]
      rw [reported, reaches.sameFile, standing.sameFile]
  · next classes grouped read =>
    obtain ⟨after, reads, reaches⟩ := follows
    obtain rfl := (reads.unique runs).2
    have ended : after.Ended := passes.ended standing.ended
    rw [read] at inside ⊢
    refine ⟨after, reads.bind_ok (.done _ _), ?_⟩
    constructor
    case inside => exact inside
    case here => exact reaches.here
    case endsWith => exact passes.endsWith _ standing.endsWith
    case ended => exact ended
    case sameFile => exact reaches.sameFile.trans standing.sameFile
    case reported => exact standing.reported_goTo reaches ended List.nil_suffix

inductive Calls : Nat → State → State → Prop
  | none (state : State) : Calls 0 state state
  | more {calls : Nat} {before between after : State} {outcome : Except SyntaxError Program}
      (first : Runs parseProgram before outcome between) (others : Calls calls between after) :
      Calls (calls + 1) before after

theorem Matches.calls (standing : Matches file source parser state) (calls : Nat) : ∃ last,
    Calls calls state last ∧ Matches file source (parser.after calls) last := by
  induction calls generalizing parser state with
  | zero => exact ⟨state, .none state, standing⟩
  | succ calls ih =>
    obtain ⟨between, first, further⟩ := standing.parse
    obtain ⟨last, others, there⟩ := ih further
    exact ⟨last, .more first others, there⟩

end Goings

/-- However often the parser was called before and wherever it has stopped, it remembers no
parentheses but some of the text, and its next call comes to what a parser comes to that is asked
again, and reports the same. -/
theorem runs_again (earlier : List Diagnostic) (file source : String) (calls : Nat) :
    let parser := (Parser.ofText file source earlier).after calls
    ∃ first last after, Runs start (.ofTextAfter earlier file source) (.ok ()) first ∧
      Calls calls first last ∧ Remembered.Known source last.grouped ∧
      Runs parseProgram last parser.parse.1 after ∧
      Remembered.Known source after.grouped ∧ after.stream.reported = parser.parse.2.reported := by
  obtain ⟨first, starts, standing⟩ := matches_start earlier file source
  obtain ⟨last, called, standing⟩ := standing.calls calls
  obtain ⟨after, runs, standing'⟩ := standing.parse
  exact ⟨first, last, after, starts, called, standing.here.known, runs, standing'.here.known,
    standing'.reported⟩

theorem runs_parseAfter (earlier : List Diagnostic) (file source : String) : ∃ after,
    Runs (do start; parseProgram) (.ofTextAfter earlier file source)
        (parseAfter earlier file source).1 after ∧
      after.stream.reported = (parseAfter earlier file source).2 := by
  obtain ⟨state, starts, standing⟩ := matches_start earlier file source
  obtain ⟨after, runs, standing⟩ := standing.parse
  exact ⟨after, starts.bind_ok runs, standing.reported⟩

/-- Each function takes tokens before the end of input only, each round of a loop has less to go on
with, and so the parser comes to an end, which is what the text is parsed as. -/
theorem parsing_progresses : Progress ∧ ∀ file source, ∃ after,
    Runs (do start; parseProgram) (.ofText file source) (parse file source).1 after := by
  refine ⟨progress, fun file source => ?_⟩
  obtain ⟨after, runs, -⟩ := runs_parseAfter [] file source
  exact ⟨after, runs⟩

/-- The parser has one run over a text, and what it reports there it adds to the earlier
diagnostics. It succeeds if and only if it adds none; if it fails, it has added those of the first
invalid tokens and behind them the one of its error. A text with an invalid token is not parsed. -/
theorem parse_reports (earlier : List Diagnostic) (file source : String) : ∃ outcome after,
    Runs (do start; parseProgram) (.ofTextAfter earlier file source) outcome after ∧
    (∀ other last, Runs (do start; parseProgram) (.ofTextAfter earlier file source) other last →
      other = outcome ∧ last = after) ∧
    parseAfter earlier file source = (outcome, after.stream.reported) ∧
    ∃ added, after.stream.reported = earlier ++ added ∧
      ((∃ program, outcome = .ok program) ↔ added = []) ∧
      (∀ error, outcome = .error error →
        ∃ lexical, lexical <+: lexicalDiagnostics file (scan source) ∧
          added = lexical ++ [⟨.syntactic, file, error.span, error.detail⟩]) ∧
      ((∃ program, outcome = .ok program) → lexicalDiagnostics file (scan source) = []) := by
  obtain ⟨after, runs, reported⟩ := runs_parseAfter earlier file source
  refine ⟨(parseAfter earlier file source).1, after, runs, ?_, ?_, ?_⟩
  · intro other last again
    exact again.unique runs
  · rw [reported]
  · rw [reported]
    exact exists_added earlier file source

end Bantam.Stepwise
