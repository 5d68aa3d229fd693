import Bantam.CommandLine
import Bantam.Proofs.Driver.Messages
import Bantam.Proofs.Syntax.Lookahead
import Bantam.Proofs.Typing.ValidSpans

/-! Calls on a session, and what the command line makes of them. Main statement: no call sees what
was left by the calls before it, a call succeeds if and only if it leaves no diagnostic, and the
exit status and the report of a run say whether the call of its mode succeeded and what it left. -/
namespace Bantam

inductive Call where
  | scan
  | parse
  | check
  deriving DecidableEq, Repr

def Mode.call : Mode → Call
  | scan => .scan
  | parse => .parse
  | check => .check

inductive Answer where
  | tokens (read : List Token)
  | program (result : Except CompileError Program)
  | analysis (result : Except CompileError Analysis)

/-- No token is invalid, or there is a result. -/
def Answer.Good : Answer → Prop
  | tokens read => AllValid read
  | program result => ∃ program, result = .ok program
  | analysis result => ∃ analysis, result = .ok analysis

namespace Session
variable (session : Session)

def call : Call → Answer × Session
  | .scan => (.tokens session.scan.1, session.scan.2)
  | .parse => (.program session.parse.1, session.parse.2)
  | .check => (.analysis session.check.1, session.check.2)

def after (calls : List Call) : Session :=
  calls.foldl (fun session call => (session.call call).2) session

theorem parse_cases :
    (∃ program, session.parse.1 = .ok program ∧ session.parse.2.diagnostics = []) ∨
      ∃ error, session.parse.1 = .error error ∧ session.parse.2.diagnostics ≠ [] := by
  have outcome : session.parse.1 =
      (Bantam.parse session.file session.source).1.mapError .parsing := rfl
  have reported : session.parse.2.diagnostics =
      (Bantam.parse session.file session.source).2 := rfl
  rw [outcome, reported, Bantam.parse, parseAfter_eq]
  cases read : readClasses session.file (Grammar.meaningful session.source) with
  | ok classes =>
    have valid := (readClasses_sound read).allValid
    refine .inl ⟨⟨classes⟩, rfl, ?_⟩
    dsimp only
    rw [reported_goTo, List.nil_append, lexicalDiagnostics_eq_nil]
    exact fun token member => valid token (List.mem_of_mem_take member)
  | error failure =>
    exact .inr ⟨_, rfl, List.append_ne_nil_of_right_ne_nil _ (List.cons_ne_nil _ _)⟩

theorem of_parse_ok {program : Program} (read : session.parse.1 = .ok program) :
    (Bantam.parse session.file session.source).1 = .ok program := by
  have mapped : (Bantam.parse session.file session.source).1.mapError CompileError.parsing =
    .ok program := read
  cases outcome : (Bantam.parse session.file session.source).1 with
  | error =>
    rw [outcome] at mapped
    contradiction
  | ok =>
    rw [outcome] at mapped
    cases mapped
    rfl

theorem check_cases :
    (∃ program, session.parse.1 = .ok program ∧ session.check =
      ((analyze program).outcome.mapError .analysis |>.map fun _ => analyze program,
        { session with diagnostics := (analyze program).diagnostics })) ∨
      ∃ error, session.parse.1 = .error error ∧
        session.check = (.error error, session.parse.2) := by
  have pair : session.parse = (session.parse.1, session.parse.2) := rfl
  rw [check, pair]
  rcases session.parse_cases with ⟨program, read, clean⟩ | ⟨error, failed, -⟩
  · rw [read]
    refine .inl ⟨program, rfl, ?_⟩
    dsimp only
    rw [clean]
    rfl
  · rw [failed]
    exact .inr ⟨error, rfl, rfl⟩

theorem ok_outcome_iff (analysis : Analysis) :
    (∃ result, (analysis.outcome.mapError CompileError.analysis |>.map fun _ => analysis) =
      .ok result) ↔ analysis.diagnostics = [] := by
  rw [Analysis.outcome, ← List.isEmpty_iff]
  cases analysis.diagnostics.isEmpty with
  | true => exact iff_of_true ⟨analysis, rfl⟩ rfl
  | false => exact iff_of_false (by simp [Except.mapError, Except.map]) (by decide)

/-- A call succeeds if and only if it leaves no diagnostic. -/
theorem good_iff (call : Call) :
    (session.call call).1.Good ↔ (session.call call).2.diagnostics = [] := by
  cases call with
  | scan =>
    rw [call, scan_eq]
    exact lexicalDiagnostics_eq_nil.symm
  | parse =>
    rcases session.parse_cases with ⟨program, read, clean⟩ | ⟨error, failed, reported⟩
    · exact iff_of_true ⟨program, read⟩ clean
    · exact iff_of_false (by simp [call, Answer.Good, failed]) reported
  | check =>
    show (∃ analysis, session.check.1 = .ok analysis) ↔ session.check.2.diagnostics = []
    rcases session.check_cases with ⟨program, -, same⟩ | ⟨error, failed, same⟩
    · rw [same]
      exact ok_outcome_iff (analyze program)
    · rw [same]
      refine iff_of_false (by simp) ?_
      rcases session.parse_cases with ⟨_, read, -⟩ | ⟨_, -, reported⟩
      · cases failed.symm.trans read
      · exact reported

theorem call_keeps (call : Call) :
    (session.call call).2.file = session.file ∧ (session.call call).2.source = session.source := by
  cases call with
  | scan | parse => exact ⟨rfl, rfl⟩
  | check =>
    rw [Session.call]
    rcases session.check_cases with ⟨program, -, same⟩ | ⟨error, -, same⟩ <;>
    · rw [same]
      exact ⟨rfl, rfl⟩

theorem call_congr {other : Session} (file : session.file = other.file)
    (source : session.source = other.source) (call : Call) :
    session.call call = other.call call := by
  have scan : session.scan = other.scan := by
    rw [Session.scan, Session.scan, file, source]
  have parse : session.parse = other.parse := by
    rw [Session.parse, Session.parse, file, source]
  cases call with
  | scan => rw [Session.call, Session.call, scan]
  | parse => rw [Session.call, Session.call, parse]
  | check => rw [Session.call, Session.call, Session.check, Session.check, parse]

/-- What was called before makes no difference to a call. -/
theorem call_after (calls : List Call) (call : Call) :
    (session.after calls).call call = session.call call := by
  have keeps : (session.after calls).file = session.file ∧
      (session.after calls).source = session.source := by
    refine List.foldlRecOn (motive := fun later : Session =>
      later.file = session.file ∧ later.source = session.source) _ _ ⟨rfl, rfl⟩ ?_
    intro later before call _
    obtain ⟨file, source⟩ := later.call_keeps call
    exact ⟨file.trans before.1, source.trans before.2⟩
  exact call_congr _ keeps.1 keeps.2 call

/-- The report of a diagnostic takes one line, as far as it does not depend on the file. -/
structure Reported (diagnostic : Diagnostic) : Prop where
  message : OnOneLine diagnostic.message
  file : diagnostic.file = session.file ∨ diagnostic.file = builtinFile

theorem Reported.onOneLine {diagnostic : Diagnostic} (reported : session.Reported diagnostic)
    (file : OnOneLine session.file) : OnOneLine (toString diagnostic) := by
  have named : OnOneLine diagnostic.file := by
    rcases reported.file with same | same <;> rw [same]
    · exact file
    · exact onOneLine_ofList.mpr (by decide)
  show OnOneLine s!"{diagnostic.message} ({diagnostic.file}:{diagnostic.line})"
  simp only [onOneLine_append, onOneLine_toString, reported.message, named, Nat.toString_eq_repr,
    onOneLine_nat, true_and, and_true]
  decide

theorem reported_standsIn {diagnostic : Diagnostic}
    (placed : diagnostic.StandsIn ⟨session.file, session.source⟩) :
    session.Reported diagnostic := ⟨placed.message, .inl placed.file⟩

theorem reported_parse : ∀ diagnostic ∈ session.parse.2.diagnostics,
    session.Reported diagnostic := by
  intro diagnostic reported
  rcases standsIn_parseAfter [] session.file session.source diagnostic reported with none | placed
  · contradiction
  · exact session.reported_standsIn placed

theorem reported_analyze {program : Program} (read : session.parse.1 = .ok program) :
    ∀ diagnostic ∈ (analyze program).diagnostics,
      diagnostic.stage = .semantic ∧ session.Reported diagnostic := by
  have within := within_of_parse (session.of_parse_ok read)
  intro diagnostic reported
  rcases Hierarchy.concerns_analyze onOneLine_fixed
      (fun decl member => (within decl member).2.declares) diagnostic reported with
    rfl | ⟨decl, member, issue, rfl, inside⟩
  · refine ⟨rfl, onOneLine_ofList.mpr (by decide), ?_⟩
    rw [Hierarchy.missingMain]
    cases first : program.classes.head? with
    | none => exact .inr rfl
    | some decl => exact .inl (within decl (List.mem_of_head? first)).1
  · have error := (inside _ (within decl member).2).error
    exact ⟨rfl, SemanticError.onOneLine_message error, .inl (within decl member).1⟩

theorem reported_call (call : Call) : ∀ diagnostic ∈ (session.call call).2.diagnostics,
    session.Reported diagnostic := by
  cases call with
  | scan =>
    rw [call, scan_eq]
    intro diagnostic reported
    apply session.reported_standsIn
    exact standsIn_lexical session.file (fun _ => id) diagnostic reported
  | parse => exact session.reported_parse
  | check =>
    rw [Session.call]
    rcases session.check_cases with ⟨program, read, same⟩ | ⟨error, -, same⟩
    · rw [same]
      exact fun diagnostic reported => (session.reported_analyze read diagnostic reported).2
    · rw [same]
      exact session.reported_parse

end Session

namespace Options
variable (options : Options) (session : Session)

theorem process_diagnostics :
    (options.process session).diagnostics = (session.call options.mode.call).2.diagnostics := by
  have pair : session.parse = (session.parse.1, session.parse.2) := rfl
  rw [process, pair]
  cases mode : options.mode with
  | scan => rfl
  | parse =>
    show _ = session.parse.2.diagnostics
    cases session.parse.1 <;> rfl
  | check =>
    show _ = session.check.2.diagnostics
    rw [Session.check, pair]
    cases session.parse.1 <;> rfl

theorem process_dumps (tokens : options.dumpTokens = false) (tree : options.dumpTree = false)
    (hierarchy : options.dumpHierarchy = false) : (options.process session).dumps = "" := by
  have pair : session.parse = (session.parse.1, session.parse.2) := rfl
  rw [process, tokens, tree, hierarchy, pair]
  cases options.mode with
  | scan => rfl
  | parse => cases session.parse.1 <;> rfl
  | check => cases session.parse.1 <;> rfl

end Options

/-- A call on a session has the same result and leaves the same as if it were the first one. A check
succeeds if and only if it leaves no diagnostic; if it fails, it leaves those of the parse if that
fails, and semantic ones alone if not. A run ends with 0 if the call of its mode is good and with 1
if not; then, where plain reports are asked for, it writes one line for each diagnostic, in order,
and one for their number. -/
theorem driver_faithful (session : Session) (options : Options) :
    (∀ calls call, (session.after calls).call call =
      Session.call { file := session.file, source := session.source } call) ∧
    ((∃ analysis, session.check.1 = .ok analysis) ↔ session.check.2.diagnostics = []) ∧
    (∀ error, session.check.1 = .error error →
      (∃ error, session.parse.1 = .error error) ∧
        session.check.2.diagnostics = session.parse.2.diagnostics ∨
      (∃ program, session.parse.1 = .ok program) ∧
        ∀ diagnostic ∈ session.check.2.diagnostics, diagnostic.stage = .semantic) ∧
    ((options.respond session.file (.ok session.source)).exit = 0 ↔
      (session.call options.mode.call).1.Good) ∧
    (¬ (session.call options.mode.call).1.Good →
      (options.respond session.file (.ok session.source)).exit = 1 ∧
      (options.plain = true → ∃ dumps,
        (options.respond session.file (.ok session.source)).errors = dumps ++ unlines
          ((session.call options.mode.call).2.diagnostics.map toString ++
            [s!"{(session.call options.mode.call).2.diagnostics.length} error(s) found"]) ∧
        (options.dumpTokens = false → options.dumpTree = false → options.dumpHierarchy = false →
          dumps = "") ∧
        (OnOneLine session.file → ∀ diagnostic ∈ (session.call options.mode.call).2.diagnostics,
          OnOneLine (toString diagnostic)))) := by
  -- A run is a call on a session that is fresh.
  have fresh (call : Call) :
      Session.call { file := session.file, source := session.source } call = session.call call :=
    Session.call_congr _ rfl rfl call
  have left : (options.process { file := session.file, source := session.source }).diagnostics =
      (session.call options.mode.call).2.diagnostics := by
    rw [Options.process_diagnostics, fresh]
  have good := session.good_iff options.mode.call
  refine ⟨fun calls call => (session.call_after calls call).trans (fresh call).symm,
    session.good_iff .check, fun error failed => ?_, ?_, fun bad => ?_⟩
  · rcases session.check_cases with ⟨program, read, same⟩ | ⟨other, refused, same⟩
    · rw [same]
      exact .inr ⟨⟨program, read⟩, fun diagnostic reported =>
        (session.reported_analyze read diagnostic reported).1⟩
    · rw [same]
      exact .inl ⟨⟨other, refused⟩, rfl⟩
  · rw [good, Options.respond]
    dsimp only
    rw [left, ← List.isEmpty_iff]
    cases (session.call options.mode.call).2.diagnostics.isEmpty <;> simp
  · have some : (session.call options.mode.call).2.diagnostics.isEmpty = false := by
      rw [List.isEmpty_eq_false_iff]
      exact fun none => bad (good.mpr none)
    rw [Options.respond]
    dsimp only
    rw [left, some]
    refine ⟨rfl, fun plain => ⟨(options.process ⟨session.file, session.source, []⟩).dumps, ?_,
      options.process_dumps _, fun file diagnostic reported =>
        (session.reported_call _ diagnostic reported).onOneLine session file⟩⟩
    rw [Options.reportLines, Options.closingLines, plain, some]
    rfl

end Bantam
