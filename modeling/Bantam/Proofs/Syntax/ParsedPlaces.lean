import Bantam.Proofs.Syntax.OneLine

/-! What a parse says of a text stands in it. All spans of a program that is read, and those of all
diagnostics, are places in the source text; all names, and all messages, are on one line. -/
namespace Bantam
open Grammar

def Bounds.inText (source : String) : Bounds := ⟨Span.ValidIn source, OnOneLine⟩

section Tokens
variable {source : String} {last : Token} {span : Span} {piece : List Token}

theorem scan_of_meaningful {token : Token} (member : token ∈ meaningful source) :
    token ∈ scan source ∧ token.kind ≠ .comment := by
  obtain ⟨scanned, meaning⟩ := List.mem_filter.mp member
  rw [Bool.and_eq_true, bne_iff_ne] at meaning
  exact ⟨scanned, meaning.1⟩

theorem validIn_of_runsTo (within : piece.Sublist (meaningful source))
    (runs : RunsTo piece last span) : span.ValidIn source := by
  have ordered := (ordered_meaningful source).sublist within
  obtain ⟨isLast, first, starts, rfl⟩ := runs
  have isFirst := List.mem_of_head? starts
  have place {token : Token} (member : token ∈ piece) : token.span.ValidIn source :=
    validIn_scan (scan_of_meaningful (within.subset member)).1
  refine (place isFirst).upTo (place isLast) ?_
  -- The last token is the first one, or stands behind it.
  obtain ⟨rest, rfl⟩ := List.head?_eq_some_iff.mp starts
  have filled := ordered.nonempty last isLast
  rcases List.mem_cons.mp isLast with rfl | later
  · exact filled.le
  · have apart := List.rel_of_pairwise_cons ordered.apart later
    exact ((ordered.nonempty first isFirst).le.trans apart).trans filled.le

theorem admits_meaningful (source : String) :
    Located.Admits (.inText source) (meaningful source) where
  place _ _ _ within runs := validIn_of_runsTo within runs
  word _ member _ :=
    onOneLine_scan (scan_of_meaningful member).1 (scan_of_meaningful member).2

end Tokens

theorem within_of_admits {bounds : Bounds} {file source : String} {program : Program}
    (admits : Located.Admits bounds (meaningful source))
    (read : (parse file source).1 = .ok program) :
    ∀ decl ∈ program.classes, decl.file = file ∧ decl.Within bounds := by
  have placed := readClasses_meets (ordered_meaningful source) file List.suffix_rfl
  rw [parse_eq_ok_iff.mp read] at placed
  exact placed.within admits

/-- The classes of a program that is read carry the name of their file, and are within its text. -/
theorem within_of_parse {file source : String} {program : Program}
    (read : (parse file source).1 = .ok program) :
    ∀ decl ∈ program.classes, decl.file = file ∧ decl.Within (.inText source) :=
  within_of_admits (admits_meaningful source) read

/-- The diagnostic carries the name of a file, stands in its text and says so on one line. -/
structure Diagnostic.StandsIn (diagnostic : Diagnostic) (origin : SourceFile) : Prop where
  file : diagnostic.file = origin.name
  place : diagnostic.span.ValidIn origin.text
  message : OnOneLine diagnostic.message

theorem onOneLine_kind (kind : Kind) : OnOneLine kind.phrase := by
  cases kind <;> decide

theorem onOneLine_phrase {token : Token} (spelled : OnOneLine token.spelling) :
    OnOneLine token.phrase := by
  have quoted : OnOneLine s!"keyword '{token.spelling}'" := by
    simp only [onOneLine_append]
    exact ⟨⟨by decide, spelled⟩, by decide⟩
  have shown : OnOneLine s!"{token.kind.phrase} {token.spelling}" := by
    simp only [onOneLine_append]
    exact ⟨⟨onOneLine_kind _, by decide⟩, spelled⟩
  unfold Token.phrase
  split
  · split
    · exact quoted
    · exact shown
  · exact shown
  · exact shown
  · exact shown
  · exact onOneLine_kind _

theorem onOneLine_expected {expectation : Expectation}
    (asks : ∀ word, expectation = .word word → word = "class") : OnOneLine expectation.phrase := by
  cases expectation with
  | kind kind => exact onOneLine_kind kind
  | word word =>
    obtain rfl := asks word rfl
    decide
  | expression => decide
  | parenOrBracket => decide

section Parsing
variable {source : String}

theorem standsIn_ofFailure {failure : Failure} (blames : Blames (meaningful source) failure)
    (file : String) :
    ((SyntaxError.ofFailure (Cursor.ofText source).endOfInput failure).toDiagnostic file).StandsIn
      ⟨file, source⟩ := by
  cases blames with
  | target inside placed runs =>
    exact ⟨rfl, validIn_of_runsTo placed runs, (by decide : OnOneLine "invalid assignment target")⟩
  | @expected expectation rest inside asks =>
    -- The token that was found is the first that is left, or that of the end of input.
    have found : ∃ token, rest.head?.getD (Cursor.ofText source).endOfInput = token ∧
        token.span.ValidIn source ∧ OnOneLine token.spelling := by
      refine ⟨_, rfl, ?_⟩
      cases rest with
      | nil => exact ⟨validIn_endOfInput source, (by decide : OnOneLine "")⟩
      | cons token others =>
        have scanned := scan_of_meaningful (inside.subset List.mem_cons_self)
        exact ⟨validIn_scan scanned.1, onOneLine_scan scanned.1 scanned.2⟩
    obtain ⟨token, isFound, place, spelled⟩ := found
    have error : SyntaxError.ofFailure (Cursor.ofText source).endOfInput
        ⟨.expected expectation, rest⟩ = .unexpected expectation token := by
      rw [← isFound]
      rfl
    have phrased : OnOneLine s!"expected {expectation.phrase}, found {token.phrase}" := by
      simp only [onOneLine_append]
      exact ⟨⟨⟨by decide, onOneLine_expected asks⟩, by decide⟩, onOneLine_phrase spelled⟩
    rw [error]
    exact ⟨rfl, place, phrased⟩

theorem standsIn_lexical (file : String) {tokens : List Token}
    (scanned : ∀ token ∈ tokens, token ∈ scan source) :
    ∀ diagnostic ∈ lexicalDiagnostics file tokens, diagnostic.StandsIn ⟨file, source⟩ := by
  intro diagnostic reported
  obtain ⟨token, member, reported⟩ := List.mem_filterMap.mp reported
  rw [Token.diagnostic?] at reported
  split at reported
  · next invalid =>
    obtain rfl := Option.some.inj reported
    have noComment : token.kind ≠ .comment := by simp [invalid]
    have scanned := scanned token member
    exact ⟨rfl, validIn_scan scanned, onOneLine_scan scanned noComment⟩
  · contradiction

/-- What a parse reports stands in the text that is parsed. -/
theorem standsIn_parseAfter (earlier : List Diagnostic) (file source : String) :
    ∀ diagnostic ∈ (parseAfter earlier file source).2,
      diagnostic ∈ earlier ∨ diagnostic.StandsIn ⟨file, source⟩ := by
  have reported (rest : List Token) : ∀ diagnostic ∈
      ((Parser.ofText file source earlier).goTo rest).reported,
      diagnostic ∈ earlier ∨ diagnostic.StandsIn ⟨file, source⟩ := by
    rw [reported_goTo]
    refine List.forall_mem_append.mpr ⟨fun _ => .inl, fun diagnostic lexical => .inr ?_⟩
    exact standsIn_lexical file
      (fun token member => (scan_of_meaningful (List.mem_of_mem_take member)).1) diagnostic lexical
  have placed := readClasses_meets (ordered_meaningful source) file List.suffix_rfl
  rw [parseAfter_eq]
  cases read : readClasses file (meaningful source) with
  | ok classes => exact reported []
  | error failure =>
    rw [read] at placed
    refine List.forall_mem_append.mpr ⟨reported failure.rest, ?_⟩
    exact List.forall_mem_singleton.mpr (.inr (standsIn_ofFailure placed file))

end Parsing

end Bantam
