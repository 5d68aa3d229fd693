import Bantam.Proofs.Syntax.ProgramRelocation
import Bantam.Proofs.Syntax.Scanning

/-! Layout and comments. A text says what its tokens say, in their order. How it is laid out decides
only where they stand; so with all places wiped out, texts that say the same are parsed the same. -/
namespace Bantam

/-- What a text says: the kinds and the spellings of its tokens, without the comments. -/
def wording (source : String) : List (Kind × String) :=
  ((scan source).filter (·.kind != .comment)).map fun token => (token.kind, token.spelling)

namespace Relocation

def erasure : Relocation where
  move := fun _ => .synthetic
  merge := fun _ _ => rfl
  behind := []

theorem tokens_erasure (source : String) :
    erasure.tokens (Grammar.meaningful source) = ((wording source).filter (·.1 != .endOfInput)).map
      fun (kind, spelling) => ⟨kind, spelling, .synthetic⟩ := by
  have split : Grammar.meaningful source =
      ((scan source).filter (·.kind != .comment)).filter (·.kind != .endOfInput) := by
    rw [Grammar.meaningful, List.filter_filter]
    congr 1
    funext token
    exact Bool.and_comm ..
  rw [split, tokens_eq_map rfl, wording, List.filter_map, List.map_map]
  rfl

theorem parser_erasure (earlier : List Diagnostic) (file : String) {first second : String}
    (same : wording first = wording second) :
    erasure.parser (.ofText file first earlier) = erasure.parser (.ofText file second earlier) := by
  have unread : erasure.tokens (Grammar.meaningful first) =
      erasure.tokens (Grammar.meaningful second) := by
    rw [tokens_erasure, tokens_erasure, same]
  have reported (source : String) :
      (Parser.ofText file source earlier).reported.map erasure.diagnostic =
        earlier.map erasure.diagnostic ++
          lexicalDiagnostics file ((erasure.tokens (Grammar.meaningful source)).take 1) := by
    rw [tokens_eq_map rfl, ← List.map_take, lexicalDiagnostics_moved, ← List.map_append]
    rfl
  show Parser.mk _ _ (erasure.tokens (Grammar.meaningful first)) _ =
    Parser.mk _ _ (erasure.tokens (Grammar.meaningful second)) _
  rw [reported, reported, unread]
  rfl

end Relocation

def Program.placeless (program : Program) : Program := program.mark Relocation.erasure.marking

/-- Layout and comments are not parsed: of texts that say the same, either both are programs, which
differ in nothing but the places of their parts, or both fail, for the same reason; and what is
reported of them has the same messages. -/
theorem parse_layout (earlier : List Diagnostic) (file : String) {first second : String}
    (same : wording first = wording second) :
    ((∃ program other, (parseAfter earlier file first).1 = .ok program ∧
        (parseAfter earlier file second).1 = .ok other ∧ program.placeless = other.placeless) ∨
      ∃ error other, (parseAfter earlier file first).1 = .error error ∧
        (parseAfter earlier file second).1 = .error other ∧ error.detail = other.detail) ∧
    (parseAfter earlier file first).2.map (·.message) =
      (parseAfter earlier file second).2.map (·.message) := by
  have erased (source : String) :=
    @Relocation.parse_moved .erasure rfl (Parser.ofText file source earlier)
  have both := (erased first).symm.trans
    ((congrArg Parser.parse (Relocation.parser_erasure earlier file same)).trans (erased second))
  obtain ⟨outcomes, parsers⟩ := Prod.mk.inj both
  refine ⟨?_, ?_⟩
  · show (∃ program other, (Parser.ofText file first earlier).parse.1 = .ok program ∧
      (Parser.ofText file second earlier).parse.1 = .ok other ∧ _) ∨
      ∃ error other, (Parser.ofText file first earlier).parse.1 = .error error ∧
        (Parser.ofText file second earlier).parse.1 = .error other ∧ _
    revert outcomes
    cases (Parser.ofText file first earlier).parse.1 with
    | ok program =>
      cases (Parser.ofText file second earlier).parse.1 with
      | ok other => exact fun alike => .inl ⟨program, other, rfl, rfl, Except.ok.inj alike⟩
      | error other => exact fun alike => nomatch alike
    | error error =>
      cases (Parser.ofText file second earlier).parse.1 with
      | ok other => exact fun alike => nomatch alike
      | error other =>
        intro alike
        refine .inr ⟨error, other, rfl, rfl, ?_⟩
        rw [← Relocation.detail_syntaxError .erasure, Except.error.inj alike,
          Relocation.detail_syntaxError]
  · have messages (diagnostics : List Diagnostic) : diagnostics.map (·.message) =
        (diagnostics.map Relocation.erasure.diagnostic).map (·.message) := by
      rw [List.map_map]
      rfl
    have reported := congrArg Parser.reported parsers
    show (Parser.ofText file first earlier).parse.2.reported.map _ =
      (Parser.ofText file second earlier).parse.2.reported.map _
    rw [messages, messages (Parser.parse _).2.reported]
    exact congrArg _ reported

-- A brace in a comment closes nothing.
theorem parse_layout_brace :
    wording "class A\x7b\x7d" = wording "class A \x7b/* \x7d */\x7d" ∧
    ((∃ program other, (parseAfter [] "a" "class A\x7b\x7d").1 = .ok program ∧
        (parseAfter [] "a" "class A \x7b/* \x7d */\x7d").1 = .ok other ∧
        program.placeless = other.placeless) ∨
      ∃ error other, (parseAfter [] "a" "class A\x7b\x7d").1 = .error error ∧
        (parseAfter [] "a" "class A \x7b/* \x7d */\x7d").1 = .error other ∧
        error.detail = other.detail) ∧
    (parseAfter [] "a" "class A\x7b\x7d").2.map (·.message) =
      (parseAfter [] "a" "class A \x7b/* \x7d */\x7d").2.map (·.message) := by
  have same : wording "class A\x7b\x7d" = wording "class A \x7b/* \x7d */\x7d" := by
    rw [wording, wording, scan_eq 10 (by decide), scan_eq 18 (by decide)]
    decide +kernel
  exact ⟨same, parse_layout [] "a" same⟩

end Bantam
