import Bantam.Proofs.Syntax.ParsedPlaces
import Mathlib.Order.Bounds.Basic

/-! Merging spans. Spans are merged two at a time, and on the way the line goes with the start that
wins. Main statement: where spans that start together are on one line, as those of one source text
are, neither order nor grouping matters; what comes out goes from the least start to the greatest
end, on the line of the least start. So each span of a program is that of its tokens, merged in any
way. -/
namespace Bantam
open Grammar

attribute [ext] Span

namespace Span

@[simp] theorem start_merge (left right : Span) :
    (left.merge right).start = min left.start right.start := rfl

@[simp] theorem stop_merge (left right : Span) :
    (left.merge right).stop = max left.stop right.stop := rfl

theorem line_merge (left right : Span) :
    (left.merge right).line = if left.start ≤ right.start then left.line else right.line := rfl

theorem merge_assoc (first second third : Span) :
    (first.merge second).merge third = first.merge (second.merge third) := by
  refine Span.ext (min_assoc ..) (max_assoc ..) ?_
  -- On both sides the line is that of the first span that starts where the whole does.
  rw [line_merge, line_merge, line_merge, line_merge, start_merge, start_merge]
  rcases le_or_gt first.start second.start with before | behind
  · rw [min_eq_left before, if_pos before]
    rcases le_or_gt first.start third.start with least | greater
    · rw [if_pos least, if_pos (le_min before least)]
    · have later : min second.start third.start < first.start := (min_le_right ..).trans_lt greater
      rw [if_neg greater.not_ge, if_neg later.not_ge, if_neg (greater.trans_le before).not_ge]
  · have later : min second.start third.start < first.start := (min_le_left ..).trans_lt behind
    rw [min_eq_right behind.le, if_neg behind.not_ge, if_neg later.not_ge]

instance : Std.Associative merge := ⟨merge_assoc⟩

@[simp] theorem merge_self (span : Span) : span.merge span = span :=
  merge_of_le le_rfl le_rfl

theorem merge_comm_iff {first second : Span} : first.merge second = second.merge first ↔
    (first.start = second.start → first.line = second.line) := by
  constructor
  · intro commutes same
    have line := congrArg Span.line commutes
    rwa [line_merge, line_merge, if_pos same.le, if_pos same.ge] at line
  · intro agree
    refine Span.ext (min_comm ..) (max_comm ..) ?_
    rw [line_merge, line_merge]
    rcases lt_trichotomy first.start second.start with before | same | behind
    · rw [if_pos before.le, if_neg before.not_ge]
    · rw [if_pos same.le, if_pos same.ge, agree same]
    · rw [if_neg behind.not_ge, if_pos behind.le]

def LinesAgree (spans : List Span) : Prop :=
  ∀ first ∈ spans, ∀ second ∈ spans, first.start = second.start → first.line = second.line

instance (spans : List Span) : Decidable (LinesAgree spans) :=
  inferInstanceAs (Decidable (∀ first ∈ spans, ∀ second ∈ spans,
    first.start = second.start → first.line = second.line))

/-- The span goes from the least start of the spans to their greatest end, and is on the line of
each of them that starts there. -/
structure Covers (whole : Span) (spans : List Span) : Prop where
  start : IsLeast {start | ∃ span ∈ spans, span.start = start} whole.start
  stop : IsGreatest {stop | ∃ span ∈ spans, span.stop = stop} whole.stop
  line : ∀ span ∈ spans, span.start = whole.start → span.line = whole.line

section Covers
variable {spans more : List Span} {whole front back : Span} {source : String}

theorem LinesAgree.subset (agree : LinesAgree spans) (inside : more ⊆ spans) : LinesAgree more :=
  fun first isFirst second isSecond => agree first (inside isFirst) second (inside isSecond)

theorem covers_single (span : Span) : Covers span [span] where
  start := by simp
  stop := by simp
  line := by simp

theorem Covers.exists_first (covers : Covers whole spans) :
    ∃ first ∈ spans, first.start = whole.start ∧ first.line = whole.line := by
  obtain ⟨first, isFirst, start⟩ := covers.start.1
  exact ⟨first, isFirst, start, covers.line first isFirst start⟩

theorem Covers.unique (covers : Covers front spans) (also : Covers back spans) : front = back := by
  have start := covers.start.unique also.start
  have stop := covers.stop.unique also.stop
  obtain ⟨first, isFirst, begins, line⟩ := covers.exists_first
  exact Span.ext start stop (line.symm.trans (also.line first isFirst (begins.trans start)))

theorem Covers.perm (covers : Covers whole spans) (perm : spans.Perm more) : Covers whole more where
  start := by simpa only [perm.mem_iff] using covers.start
  stop := by simpa only [perm.mem_iff] using covers.stop
  line span member := covers.line span (perm.mem_iff.mpr member)

theorem Covers.merge (atFront : Covers front spans) (atBack : Covers back more)
    (agree : LinesAgree (spans ++ more)) : Covers (front.merge back) (spans ++ more) where
  start := by
    simp only [List.mem_append, or_and_right, exists_or, Set.ofPred_or]
    exact atFront.start.union atBack.start
  stop := by
    simp only [List.mem_append, or_and_right, exists_or, Set.ofPred_or]
    exact atFront.stop.union atBack.stop
  line span member starts := by
    -- A span that starts where the one side does is on the line of that side.
    have frontLine (same : span.start = front.start) : span.line = front.line := by
      obtain ⟨first, isFirst, start, line⟩ := atFront.exists_first
      have isFirst := List.mem_append_left more isFirst
      exact (agree span member first isFirst (same.trans start.symm)).trans line
    have backLine (same : span.start = back.start) : span.line = back.line := by
      obtain ⟨first, isFirst, start, line⟩ := atBack.exists_first
      have isFirst := List.mem_append_right spans isFirst
      exact (agree span member first isFirst (same.trans start.symm)).trans line
    rw [start_merge] at starts
    rw [line_merge]
    split
    · next before => exact frontLine (starts.trans (min_eq_left before))
    · next behind => exact backLine (starts.trans (min_eq_right (not_le.mp behind).le))

theorem linesAgree_of_validIn (valid : ∀ span ∈ spans, span.ValidIn source) : LinesAgree spans := by
  intro first isFirst second isSecond same
  rw [(valid first isFirst).line, (valid second isSecond).line, same]

theorem Covers.validIn (covers : Covers whole spans) (valid : ∀ span ∈ spans, span.ValidIn source) :
    whole.ValidIn source := by
  obtain ⟨first, isFirst, start, line⟩ := covers.exists_first
  obtain ⟨last, isLast, stop⟩ := covers.stop.1
  have ends : first.stop ≤ whole.stop := covers.stop.2 ⟨first, isFirst, rfl⟩
  have upTo := (valid first isFirst).upTo (valid last isLast)
    ((valid first isFirst).ordered.trans (ends.trans_eq stop.symm))
  rwa [start, stop, line] at upTo

end Covers

end Span

inductive Merging
  | single (span : Span)
  | both (left right : Merging)

namespace Merging

def spans : Merging → List Span
  | single span => [span]
  | both left right => left.spans ++ right.spans

def result : Merging → Span
  | single span => span
  | both left right => left.result.merge right.result

variable {first : Span} {rest : List Span}

theorem spans_eq_cons (merging : Merging) : ∃ first rest, merging.spans = first :: rest := by
  induction merging with
  | single span => exact ⟨span, [], rfl⟩
  | both left right ihLeft ihRight =>
    obtain ⟨first, rest, begins⟩ := ihLeft
    exact ⟨first, rest ++ right.spans, by rw [spans, begins, List.cons_append]⟩

theorem exists_spans_eq (first : Span) (rest : List Span) :
    ∃ merging : Merging, merging.spans = first :: rest := by
  induction rest generalizing first with
  | nil => exact ⟨.single first, rfl⟩
  | cons next rest ih =>
    obtain ⟨merging, same⟩ := ih next
    exact ⟨.both (.single first) merging, congrArg (first :: ·) same⟩

/-- Spans in a given order are merged alike in any grouping, also where their lines do not agree. -/
theorem result_eq_foldl (merging : Merging) (begins : merging.spans = first :: rest) :
    merging.result = rest.foldl Span.merge first := by
  induction merging generalizing first rest with
  | single span =>
    obtain ⟨rfl, rfl⟩ := List.cons.inj begins
    rfl
  | both left right ihLeft ihRight =>
    obtain ⟨first', before, beginsLeft⟩ := left.spans_eq_cons
    obtain ⟨next, behind, beginsRight⟩ := right.spans_eq_cons
    rw [spans, beginsLeft, beginsRight, List.cons_append] at begins
    obtain ⟨rfl, rfl⟩ := List.cons.inj begins
    calc (both left right).result
        = (before.foldl Span.merge first').merge (behind.foldl Span.merge next) := by
          rw [result, ihLeft beginsLeft, ihRight beginsRight]
      _ = behind.foldl Span.merge ((before.foldl Span.merge first').merge next) :=
          List.foldl_assoc.symm
      _ = (before ++ next :: behind).foldl Span.merge first' := by
          rw [List.foldl_append, List.foldl_cons]

theorem covers_result (merging : Merging) (agree : Span.LinesAgree merging.spans) :
    merging.result.Covers merging.spans := by
  induction merging with
  | single span => exact Span.covers_single span
  | both left right ihLeft ihRight =>
    exact (ihLeft (agree.subset (List.subset_append_left ..))).merge
      (ihRight (agree.subset (List.subset_append_right ..))) agree

/-- Merging in any order gives what covers the spans. -/
theorem result_eq_of_covers {spans : List Span} {whole : Span} (covers : whole.Covers spans)
    (agree : Span.LinesAgree spans) (merging : Merging) (perm : merging.spans.Perm spans) :
    merging.result = whole :=
  ((merging.covers_result (agree.subset perm.subset)).perm perm).unique covers

end Merging

theorem Span.covers_foldl {first : Span} {rest : List Span} (agree : LinesAgree (first :: rest)) :
    Covers (rest.foldl merge first) (first :: rest) := by
  obtain ⟨merging, same⟩ := Merging.exists_spans_eq first rest
  rw [← merging.result_eq_foldl same, ← same]
  rw [← same] at agree
  exact merging.covers_result agree

/-- Merging is associative and idempotent, and it is commutative just where spans that start
together are on one line. One or more such spans, merged in any order and any grouping, give the
span from their least start to their greatest end, on the line of the least start. Spans of one
source text are such spans, and what they give is a span of the text. -/
theorem Span.merge_any_way :
    (∀ first second third : Span,
      (first.merge second).merge third = first.merge (second.merge third)) ∧
    (∀ span : Span, span.merge span = span) ∧
    (∀ first second : Span, first.merge second = second.merge first ↔
      (first.start = second.start → first.line = second.line)) ∧
    (∀ (first : Span) (rest : List Span), LinesAgree (first :: rest) →
      Covers (rest.foldl merge first) (first :: rest) ∧
      ∀ merging : Merging, merging.spans.Perm (first :: rest) →
        merging.result = rest.foldl merge first) ∧
    ∀ (source : String) (first : Span) (rest : List Span),
      (∀ span ∈ first :: rest, span.ValidIn source) →
      LinesAgree (first :: rest) ∧ (rest.foldl merge first).ValidIn source := by
  refine ⟨merge_assoc, merge_self, fun _ _ => merge_comm_iff, fun first rest agree => ?_,
    fun source first rest valid => ?_⟩
  · have covers := covers_foldl agree
    exact ⟨covers, Merging.result_eq_of_covers covers agree⟩
  · have agree := linesAgree_of_validIn valid
    exact ⟨agree, (covers_foldl agree).validIn valid⟩

-- Two lines that hold three spans, two of which start together.
theorem merge_any_way_on_two_lines :
    (∀ span ∈ [⟨0, 1, 1⟩, ⟨2, 3, 2⟩, ⟨0, 3, 1⟩], Span.ValidIn "a\nb" span) ∧
    Span.LinesAgree [⟨0, 1, 1⟩, ⟨2, 3, 2⟩, ⟨0, 3, 1⟩] ∧
    Span.Covers ⟨0, 3, 1⟩ [⟨0, 1, 1⟩, ⟨2, 3, 2⟩, ⟨0, 3, 1⟩] ∧
    (Merging.both (.single ⟨2, 3, 2⟩) (.both (.single ⟨0, 3, 1⟩) (.single ⟨0, 1, 1⟩))).result =
      ⟨0, 3, 1⟩ ∧
    Span.ValidIn "a\nb" ⟨0, 3, 1⟩ ∧
    (⟨2, 3, 2⟩ : Span).merge ⟨0, 1, 1⟩ = (⟨0, 1, 1⟩ : Span).merge ⟨2, 3, 2⟩ := by
  have tokens : scan "a\nb" =
      [⟨.identifier, "a", ⟨0, 1, 1⟩⟩, ⟨.identifier, "b", ⟨2, 3, 2⟩⟩,
        ⟨.endOfInput, "", ⟨3, 3, 2⟩⟩] := by
    rw [scan_eq 4 (by decide)]
    rfl
  have place {token : Token} (member : token ∈ scan "a\nb") : token.span.ValidIn "a\nb" :=
    validIn_scan member
  rw [tokens] at place
  have first := place List.mem_cons_self
  have second := place (List.mem_cons_of_mem _ List.mem_cons_self)
  have valid : ∀ span ∈ [⟨0, 1, 1⟩, ⟨2, 3, 2⟩, ⟨0, 3, 1⟩], Span.ValidIn "a\nb" span := by
    simp only [List.forall_mem_cons]
    exact ⟨first, second, first.upTo second (by decide), List.forall_mem_nil _⟩
  have perm : (Merging.both (.single ⟨2, 3, 2⟩)
      (.both (.single ⟨0, 3, 1⟩) (.single ⟨0, 1, 1⟩))).spans.Perm
      [⟨0, 1, 1⟩, ⟨2, 3, 2⟩, ⟨0, 3, 1⟩] := by decide
  obtain ⟨-, -, commutes, anyOrder, inSource⟩ := Span.merge_any_way
  obtain ⟨agree, whole⟩ := inSource _ _ _ valid
  obtain ⟨covers, same⟩ := anyOrder _ _ agree
  exact ⟨valid, agree, covers, same _ perm, whole, (commutes _ _).mpr (by decide)⟩

section Tokens
variable {source : String} {tokens : List Token} {last : Token} {span : Span}

theorem RunsTo.exists_spans (runs : RunsTo tokens last span) :
    ∃ piece, piece.Sublist tokens ∧ Spans piece span := by
  obtain ⟨isLast, first, starts, rfl⟩ := runs
  obtain ⟨before, after, rfl⟩ := List.append_of_mem isLast
  have whole : before ++ last :: after = before ++ [last] ++ after := List.append_cons ..
  rw [whole, List.head?_append_of_ne_nil _ (by simp)] at starts
  rw [whole]
  exact ⟨before ++ [last], List.sublist_append_left .., first, last, starts, by simp, rfl⟩

theorem Spans.covers (ordered : Ordered tokens) (spans : Spans tokens span) :
    span.Covers (tokens.map Token.span) := by
  obtain ⟨first, last, starts, ends, rfl⟩ := spans
  obtain ⟨rest, rfl⟩ := List.head?_eq_some_iff.mp starts
  have isLast := List.mem_of_getLast? ends
  have behind : ∀ token ∈ rest, first.span.start < token.span.start := fun token member =>
    (ordered.nonempty first List.mem_cons_self).trans_le
      (List.rel_of_pairwise_cons ordered.apart member)
  have least : ∀ token ∈ first :: rest, first.span.start ≤ token.span.start :=
    List.forall_mem_cons.mpr ⟨le_rfl, fun token member => (behind token member).le⟩
  refine { start := ⟨?_, ?_⟩, stop := ⟨?_, ?_⟩, line := ?_ }
  · exact ⟨first.span, List.mem_map_of_mem List.mem_cons_self, rfl⟩
  · rintro _ ⟨_, member, rfl⟩
    obtain ⟨token, isToken, rfl⟩ := List.mem_map.mp member
    exact least token isToken
  · exact ⟨last.span, List.mem_map_of_mem isLast, rfl⟩
  · rintro _ ⟨_, member, rfl⟩
    obtain ⟨token, isToken, rfl⟩ := List.mem_map.mp member
    exact (ordered.le_last ends isToken).2
  · -- No other token starts where the first one does.
    refine List.forall_mem_map.mpr (List.forall_mem_cons.mpr ⟨fun _ => rfl, ?_⟩)
    exact fun token member same => absurd same (behind token member).ne'

/-- A span from one token to another is what those between them give, merged in any way. -/
theorem Spans.merged (within : tokens.Sublist (meaningful source)) (spans : Spans tokens span)
    (merging : Merging) (perm : merging.spans.Perm (tokens.map Token.span)) :
    merging.result = span := by
  have valid : ∀ span ∈ tokens.map Token.span, span.ValidIn source :=
    List.forall_mem_map.mpr fun token member =>
      validIn_scan (scan_of_meaningful (within.subset member)).1
  have covers := spans.covers ((ordered_meaningful source).sublist within)
  exact Merging.result_eq_of_covers covers (Span.linesAgree_of_validIn valid) merging perm

end Tokens

def Bounds.merged (source : String) : Bounds where
  place span := ∃ tokens, tokens.Sublist (meaningful source) ∧ Spans tokens span ∧
    ∀ merging : Merging, merging.spans.Perm (tokens.map Token.span) → merging.result = span
  word _ := True

/-- Every span of a program that is read is what some of its tokens give, merged in any way. -/
theorem merged_of_parse {file source : String} {program : Program}
    (read : (parse file source).1 = .ok program) :
    ∀ decl ∈ program.classes, decl.Within (.merged source) := by
  have admits : Located.Admits (.merged source) (meaningful source) := by
    refine ⟨fun tokens last span within runs => ?_, fun _ _ _ => trivial⟩
    obtain ⟨piece, inside, spans⟩ := runs.exists_spans
    have within := inside.trans within
    exact ⟨piece, within, spans, spans.merged within⟩
  exact fun decl member => (within_of_admits admits read decl member).2

end Bantam
