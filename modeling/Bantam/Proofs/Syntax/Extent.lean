import Bantam.Proofs.Syntax.ExpressionSound
import Bantam.Proofs.Syntax.Leaves
import Bantam.Proofs.Syntax.Lossless
import Mathlib.Data.List.Nodup

/-! The extent of operands. A primary expression stands from its first token to its last, and with
parentheses around it from the one to the other. So the span of a variable tells whether it is
enclosed: one that is not ends where no parentheses do. -/
namespace Bantam
open Grammar

/-- Each token covers something, behind the ones before it. -/
structure Ordered (tokens : List Token) : Prop where
  apart : tokens.Pairwise fun first second => first.span.stop ≤ second.span.start
  nonempty : ∀ token ∈ tokens, token.span.start < token.span.stop

/-- The span is that from the first of the tokens to the last. -/
def Spans (tokens : List Token) (span : Span) : Prop :=
  ∃ first last, tokens.head? = some first ∧ tokens.getLast? = some last ∧
    span = ⟨first.span.start, last.span.stop, first.span.line⟩

/-- The span starts with the first of the tokens and ends with one of them. -/
def Begins (tokens : List Token) (span : Span) : Prop :=
  ∃ first, tokens.head? = some first ∧ span.start = first.span.start ∧
    span.line = first.span.line ∧ ∃ last ∈ tokens, span.stop = last.span.stop

/-- There are parentheses around the tokens, the first and the last of them. -/
def Enclosed (tokens : List Token) : Prop :=
  ∃ opening inside closing, tokens = opening :: (inside ++ [closing]) ∧
    opening.kind = .leftParen ∧ closing.kind = .rightParen

theorem Span.merge_of_le {left right : Span} (starts : left.start ≤ right.start)
    (stops : left.stop ≤ right.stop) : left.merge right = ⟨left.start, right.stop, left.line⟩ := by
  rw [merge, Nat.min_eq_left starts, Nat.max_eq_right stops, if_pos starts]

section Spans
variable {tokens more : List Token} {token last : Token} {span : Span}

theorem Ordered.sublist (ordered : Ordered tokens) (within : more.Sublist tokens) : Ordered more :=
  ⟨ordered.apart.sublist within, fun token member => ordered.nonempty token (within.subset member)⟩

theorem Ordered.le_last (ordered : Ordered tokens) (ends : tokens.getLast? = some last)
    (member : token ∈ tokens) :
    token.span.start ≤ last.span.start ∧ token.span.stop ≤ last.span.stop := by
  obtain ⟨init, rfl⟩ := List.getLast?_eq_some_iff.mp ends
  rcases List.mem_append.mp member with earlier | isLast
  · have apart := (List.pairwise_append.mp ordered.apart).2.2 token earlier last (by simp)
    have := ordered.nonempty token member
    have := ordered.nonempty last (by simp)
    omega
  · obtain rfl := List.mem_singleton.mp isLast
    exact ⟨Nat.le_refl _, Nat.le_refl _⟩

theorem Ordered.eq_of_stop (ordered : Ordered tokens) {first second : Token}
    (memberFirst : first ∈ tokens) (memberSecond : second ∈ tokens)
    (stop : first.span.stop = second.span.stop) : first = second := by
  have distinct : (tokens.map fun token => token.span.stop).Nodup := by
    rw [List.Nodup, List.pairwise_map]
    refine ordered.apart.imp_of_mem fun {first second} _ member apart same => ?_
    have := ordered.nonempty second member
    omega
  exact List.inj_on_of_nodup_map distinct memberFirst memberSecond stop

theorem ordered_meaningful (source : String) : Ordered (meaningful source) := by
  have lossless := lossless_scan source
  refine ⟨lossless.ordered.sublist List.filter_sublist, fun token member => ?_⟩
  obtain ⟨scanned, meaning⟩ := List.mem_filter.mp member
  obtain ⟨read, line, same, covers⟩ := lossless.finish
  rw [same] at scanned
  rcases List.mem_append.mp scanned with isRead | isLast
  · exact (covers token isRead).2.1
  · obtain rfl := List.mem_singleton.mp isLast
    contradiction

theorem spans_single (token : Token) : Spans [token] token.span :=
  ⟨token, token, rfl, rfl, rfl⟩

theorem Spans.unique {other : Span} (spans : Spans tokens span) (also : Spans tokens other) :
    span = other := by
  obtain ⟨first, last, starts, ends, rfl⟩ := spans
  obtain ⟨first', last', starts', ends', rfl⟩ := also
  obtain rfl := Option.some.inj (starts.symm.trans starts')
  obtain rfl := Option.some.inj (ends.symm.trans ends')
  rfl

theorem Spans.begins (spans : Spans tokens span) : Begins tokens span := by
  obtain ⟨first, last, starts, ends, rfl⟩ := spans
  exact ⟨first, starts, rfl, rfl, last, List.mem_of_getLast? ends, rfl⟩

theorem Begins.append (begins : Begins tokens span) (more : List Token) :
    Begins (tokens ++ more) span := by
  obtain ⟨first, starts, start, line, last, member, stop⟩ := begins
  exact ⟨first, by rw [List.head?_append, starts]; rfl, start, line, last,
    List.mem_append_left more member, stop⟩

theorem Begins.upTo (begins : Begins tokens span) (ordered : Ordered tokens)
    (ends : tokens.getLast? = some last) : Spans tokens (span.merge last.span) := by
  obtain ⟨first, starts, start, line, other, member, stop⟩ := begins
  have before : span.start ≤ last.span.start :=
    start.trans_le (ordered.le_last ends (List.mem_of_head? starts)).1
  have inside : span.stop ≤ last.span.stop := stop.trans_le (ordered.le_last ends member).2
  refine ⟨first, last, starts, ends, ?_⟩
  rw [Span.merge_of_le before inside, start, line]

end Spans

section Tokens
variable {kind : Kind} {tokens : List Token}

theorem span_of_spanOfKind {token : Token} {span : Span}
    (chosen : spanOfKind kind token = some span) : token.span = span := by
  rw [spanOfKind] at chosen
  split at chosen
  · exact Option.some.inj chosen
  · contradiction

theorem readKind?_span {reading : Reading Span tokens}
    (read : readKind? kind tokens = some reading) :
    ∃ token, reading.taken = [token] ∧ token.kind = kind ∧ token.span = reading.value := by
  obtain ⟨token, taken, chosen⟩ := readToken?_taken read
  exact ⟨token, taken, kind_of_spanOfKind chosen, span_of_spanOfKind chosen⟩

theorem readKind_span {reading : Reading Span tokens}
    (read : readKind kind tokens = .ok reading) :
    ∃ token, reading.taken = [token] ∧ token.kind = kind ∧ token.span = reading.value := by
  obtain ⟨token, taken, chosen⟩ := readToken_taken read
  exact ⟨token, taken, kind_of_spanOfKind chosen, span_of_spanOfKind chosen⟩

theorem span_of_ofToken? {token : Token} {name : Name}
    (chosen : Name.ofToken? token = some name) : token.span = name.span := by
  rw [Name.ofToken?] at chosen
  split at chosen
  · exact congrArg Name.span (Option.some.inj chosen)
  · contradiction

theorem Expr.span_of_constant? {token : Token} {expr : Expr}
    (chosen : Expr.constant? token = some expr) : expr.span = token.span := by
  unfold Expr.constant? at chosen
  split at chosen <;> cases chosen <;> rfl

theorem Expr.span_withSpan (span : Span) (expr : Expr) : (expr.withSpan span).span = span := by
  cases expr <;> rfl

end Tokens

section Primaries
variable {tokens : List Token}

theorem readMoreArguments_last {tokens : List Token} {reading : Reading (List Expr × Span) tokens}
    (read : readMoreArguments tokens = .ok reading) :
    ∃ inside closing, reading.taken = inside ++ [closing] ∧ closing.span = reading.value.2 := by
  rw [readMoreArguments] at read
  obtain ⟨first, readFirst, read⟩ := bind_eq_ok.mp read
  rcases found : readKind? .comma first.rest with _ | comma
  · simp only [found] at read
    obtain ⟨close, readClose, read⟩ := bind_eq_ok.mp read
    obtain ⟨closing, taken, -, span⟩ := readKind_span readClose
    cases read
    exact ⟨first.taken, closing, by simp [taken], span⟩
  · simp only [found] at read
    obtain ⟨more, readMore, read⟩ := bind_eq_ok.mp read
    obtain ⟨inside, closing, taken, span⟩ := readMoreArguments_last readMore
    cases read
    exact ⟨first.taken ++ (comma.taken ++ inside), closing, by simp [taken], span⟩
termination_by tokens.length
decreasing_by have := first.shorter; have := comma.shorter; omega

theorem readArguments_last {reading : Reading (List Expr × Span) tokens}
    (read : readArguments tokens = .ok reading) :
    ∃ inside closing, reading.taken = inside ++ [closing] ∧ closing.span = reading.value.2 := by
  rw [readArguments] at read
  split at read
  · next close found =>
    obtain ⟨closing, taken, -, span⟩ := readKind?_span found
    cases read
    exact ⟨[], closing, taken, span⟩
  · exact readMoreArguments_last read

theorem readNamed_spans {qualifier : Option Expr} {front before : List Token} {token : Token}
    {name : Reading Name tokens} {reading : Reading Expr tokens}
    (begins : Begins (front ++ name.taken) ((qualifier.map Expr.span).getD name.value.span))
    (taken : name.taken = before ++ [token]) (span : token.span = name.value.span)
    (read : readNamed qualifier name = .ok reading) (ordered : Ordered (front ++ reading.taken)) :
    Spans (front ++ reading.taken) reading.value.span := by
  rw [readNamed] at read
  rcases found : readKind? .leftParen name.rest with _ | paren
  · simp only [found] at read
    have spans (ordered : Ordered (front ++ name.taken)) := begins.upTo ordered
      (show (front ++ name.taken).getLast? = some token by simp [taken])
    rcases found : readKind? .leftBracket name.rest with _ | bracket
    · simp only [found] at read
      cases read
      rw [span] at spans
      exact spans ordered
    · simp only [found] at read
      obtain ⟨index, readIndex, read⟩ := bind_eq_ok.mp read
      obtain ⟨close, readClose, read⟩ := bind_eq_ok.mp read
      obtain ⟨closing, takenClosing, -, spanClosing⟩ := readKind_span readClose
      cases read
      have whole : front ++ (name.followedBy (bracket.followedBy (index.followedBy close))).taken =
          front ++ name.taken ++ (bracket.taken ++ index.taken ++ [closing]) := by
        simp [takenClosing]
      rw [Reading.taken_give, whole] at ordered ⊢
      have start := (spans (ordered.sublist (List.sublist_append_left _ _))).begins
      rw [span] at start
      show Spans _ (Span.merge _ close.value)
      rw [← spanClosing]
      exact (start.append _).upTo ordered (by simp)
  · simp only [found] at read
    obtain ⟨arguments, readArguments, read⟩ := bind_eq_ok.mp read
    obtain ⟨inside, closing, takenArguments, spanClosing⟩ := readArguments_last readArguments
    cases read
    have whole : front ++ (name.followedBy (paren.followedBy arguments)).taken =
        front ++ name.taken ++ (paren.taken ++ inside ++ [closing]) := by
      simp [takenArguments]
    rw [Reading.taken_give, whole] at ordered ⊢
    show Spans _ (Span.merge _ arguments.value.2)
    rw [← spanClosing]
    exact (begins.append _).upTo ordered (by simp)

/-- An operand stands from its first token to its last, and is enclosed if it is marked so. -/
structure Operand.Stands (operand : Operand) (tokens : List Token) : Prop where
  spans : Spans tokens operand.expr.span
  enclosed : operand.grouped = true → Enclosed tokens

theorem readSelections_stands {head reading : Reading Operand tokens}
    (before : Ordered head.taken → head.value.Stands head.taken)
    (read : readSelections head = .ok reading) (ordered : Ordered reading.taken) :
    reading.value.Stands reading.taken := by
  rw [readSelections] at read
  rcases found : readKind? .dot head.rest with _ | dot
  · simp only [found] at read
    cases read
    exact before ordered
  · simp only [found] at read
    obtain ⟨name, readName, read⟩ := bind_eq_ok.mp read
    obtain ⟨token, takenName, chosen⟩ := readToken_taken readName
    obtain ⟨expr, readNamed, read⟩ := bind_eq_ok.mp read
    refine readSelections_stands (fun ordered => ⟨?_, fun impossible => by contradiction⟩) read
      ordered
    rw [Reading.taken_give, Reading.taken_followedBy] at ordered ⊢
    have start := (before (ordered.sublist (List.sublist_append_left _ _))).spans.begins
    have takenBoth : (dot.followedBy name).taken = dot.taken ++ [token] := by
      rw [Reading.taken_followedBy, takenName]
    exact readNamed_spans (start.append _) takenBoth (span_of_ofToken? chosen) readNamed ordered
termination_by head.rest.length
decreasing_by
  have := dot.shorter; have := name.shorter; have := expr.shorter
  simp [Reading.followedBy, Reading.give]; omega

theorem readPrimary_stands {reading : Reading Operand tokens}
    (read : readPrimary tokens = .ok reading) (ordered : Ordered reading.taken) :
    reading.value.Stands reading.taken := by
  rw [readPrimary] at read
  rcases found : readKind? .leftParen tokens with _ | paren
  · simp only [found] at read
    rcases found : readToken? Expr.constant? tokens with _ | constant
    · simp only [found] at read
      rcases found : readToken? Name.ofToken? tokens with _ | name
      · simp only [found] at read
        contradiction
      · simp only [found] at read
        obtain ⟨token, taken, chosen⟩ := readToken?_taken found
        have span := span_of_ofToken? chosen
        obtain ⟨expr, readNamed, read⟩ := bind_eq_ok.mp read
        refine readSelections_stands (fun ordered => ⟨?_, fun impossible => by contradiction⟩) read
          ordered
        refine @readNamed_spans _ none [] [] token name expr ?_ taken span readNamed ordered
        rw [List.nil_append, taken]
        exact span ▸ (spans_single token).begins
    · simp only [found] at read
      obtain ⟨token, taken, chosen⟩ := readToken?_taken found
      refine readSelections_stands (fun _ => ⟨?_, fun impossible => by contradiction⟩) read ordered
      rw [Reading.taken_give, taken]
      exact Expr.span_of_constant? chosen ▸ spans_single token
  · simp only [found] at read
    obtain ⟨opening, takenOpening, opens, spanOpening⟩ := readKind?_span found
    obtain ⟨inner, readInner, read⟩ := bind_eq_ok.mp read
    obtain ⟨close, readClose, read⟩ := bind_eq_ok.mp read
    obtain ⟨closing, takenClosing, closes, spanClosing⟩ := readKind_span readClose
    have whole : (paren.followedBy (inner.followedBy close)).taken =
        [opening] ++ (inner.taken ++ [closing]) := by
      simp [takenOpening, takenClosing]
    refine readSelections_stands (fun ordered => ⟨?_, fun _ => ?_⟩) read ordered
    · rw [Reading.taken_give, whole] at ordered ⊢
      show Spans _ (inner.value.withSpan (paren.value.merge close.value)).span
      rw [Expr.span_withSpan, ← spanOpening, ← spanClosing]
      refine ((spans_single opening).begins.append _).upTo ordered ?_
      rw [← List.append_assoc]
      exact List.getLast?_concat ..
    · rw [Reading.taken_give, whole]
      exact ⟨opening, inner.taken, closing, rfl, opens, closes⟩

end Primaries

-- Operands that are no primaries need not end with their last token: a type test ends with the name
-- of its type, before the brackets.
section Operands
variable {tokens : List Token}

def Operand.Tells (operand : Operand) : Prop :=
  operand.grouped = true ∨ operand.expr.isVar = true

theorem readUnary_stands {reading : Reading Operand tokens}
    (read : readUnary tokens = .ok reading) (tells : reading.value.Tells)
    (ordered : Ordered reading.taken) : reading.value.Stands reading.taken := by
  rw [readUnary] at read
  split at read
  · obtain ⟨operand, -, read⟩ := bind_eq_ok.mp read
    cases read
    rcases tells with _ | _ <;> contradiction
  · split at read
    · next word _ =>
      obtain ⟨name, -, read⟩ := bind_eq_ok.mp read
      split at read
      · obtain ⟨close, -, read⟩ := bind_eq_ok.mp read
        cases read
        rcases tells with _ | _ <;> contradiction
      · split at read
        · obtain ⟨size, -, read⟩ := bind_eq_ok.mp read
          obtain ⟨close, -, read⟩ := bind_eq_ok.mp read
          cases read
          rcases tells with _ | _ <;> contradiction
        · contradiction
    · split at read
      · obtain ⟨paren, -, read⟩ := bind_eq_ok.mp read
        obtain ⟨type, -, read⟩ := bind_eq_ok.mp read
        obtain ⟨comma, -, read⟩ := bind_eq_ok.mp read
        obtain ⟨operand, -, read⟩ := bind_eq_ok.mp read
        obtain ⟨close, -, read⟩ := bind_eq_ok.mp read
        cases read
        rcases tells with _ | _ <;> contradiction
      · obtain ⟨operand, readOperand, read⟩ := bind_eq_ok.mp read
        split at read
        · cases read
          rcases tells with _ | _ <;> contradiction
        · cases read
          exact readPrimary_stands readOperand ordered

theorem readMoreOperators_stands {level : Level} {left reading : Reading Operand tokens}
    (before : left.value.Tells → Ordered left.taken → left.value.Stands left.taken)
    (read : readMoreOperators level left = .ok reading) (tells : reading.value.Tells)
    (ordered : Ordered reading.taken) : reading.value.Stands reading.taken := by
  rw [readMoreOperators] at read
  rcases found : readToken? (signed level.operator?) left.rest with _ | sign
  · simp only [found] at read
    rcases found : readToken? level.typeTest? left.rest with _ | word
    · simp only [found] at read
      cases read
      exact before tells ordered
    · simp only [found] at read
      obtain ⟨type, -, read⟩ := bind_eq_ok.mp read
      refine readMoreOperators_stands (fun tells => ?_) read tells ordered
      rcases tells with _ | _ <;> contradiction
  · simp only [found] at read
    obtain ⟨right, -, read⟩ := bind_eq_ok.mp read
    refine readMoreOperators_stands (fun tells => ?_) read tells ordered
    rcases tells with _ | _ <;> contradiction
termination_by left.rest.length
decreasing_by
  · have := word.shorter; have := type.shorter
    simp [Reading.followedBy, Reading.give]; omega
  · have := sign.shorter; have := right.shorter
    simp [Reading.followedBy, Reading.give]; omega

theorem readOperators_stands {level : Level} {reading : Reading Operand tokens}
    (read : readOperators level tokens = .ok reading) (tells : reading.value.Tells)
    (ordered : Ordered reading.taken) : reading.value.Stands reading.taken := by
  rw [readOperators] at read
  obtain ⟨first, readFirst, read⟩ := bind_eq_ok.mp read
  refine readMoreOperators_stands (fun tells ordered => ?_) read tells ordered
  rw [readOperand] at readFirst
  split at readFirst
  · exact readOperators_stands readFirst tells ordered
  · exact readUnary_stands readFirst tells ordered
termination_by level.height
decreasing_by rename_i found; exact Level.height_of_tighter? found

theorem last_of_variable {expr : Expr} {last : Token}
    (isVariable : Expression .variable tokens expr) (ends : tokens.getLast? = some last) :
    last.kind ≠ .leftParen ∧ last.kind ≠ .rightParen := by
  cases isVariable with
  | covered covers => cases covers
  | binary joins => cases joins
  | @var _ name _ _ _ isName =>
    rw [List.getLast?_concat] at ends
    obtain rfl := Option.some.inj ends
    simp [Token.kind_of_isName isName]
  | @indexed front inside _ opening closing _ _ _ _ _ _ _ closes =>
    rw [← List.cons_append, ← List.cons_append, ← List.append_assoc, List.getLast?_concat] at ends
    obtain rfl := Option.some.inj ends
    simp [closes]

end Operands

/-- A variable that is read from a source text is enclosed if and only if its span is that of some
parentheses of the text. -/
theorem grouped_iff_span {source : String} {tokens : List Token} {reading : Reading Operand tokens}
    (inside : tokens <:+ meaningful source) (read : readOperators .or tokens = .ok reading)
    (isVar : reading.value.expr.isVar = true) :
    reading.value.grouped = true ↔
      ∃ opening ∈ meaningful source, ∃ closing ∈ meaningful source, opening.kind = .leftParen ∧
        closing.kind = .rightParen ∧
        reading.value.expr.span = opening.span.merge closing.span := by
  have ordered := ordered_meaningful source
  have taken : reading.taken.Sublist (meaningful source) :=
    (List.take_sublist ..).trans inside.sublist
  have stands := readOperators_stands read (.inr isVar) (ordered.sublist taken)
  constructor
  · intro grouped
    obtain ⟨opening, inside, closing, whole, opens, closes⟩ := stands.enclosed grouped
    have ends : reading.taken.getLast? = some closing := by
      rw [whole, ← List.cons_append]
      exact List.getLast?_concat ..
    refine ⟨opening, taken.subset (by simp [whole]), closing, taken.subset (by simp [whole]),
      opens, closes, ?_⟩
    have begins : Begins reading.taken opening.span :=
      whole ▸ (spans_single opening).begins.append (inside ++ [closing])
    exact stands.spans.unique (begins.upTo (ordered.sublist taken) ends)
  · rintro ⟨opening, memberOpening, closing, memberClosing, opens, closes, span⟩
    by_contra single
    have isVariable := (readOperators_sound read).isVariable (by simpa using single) isVar
    obtain ⟨first, last, -, ends, place⟩ := stands.spans
    have memberLast := taken.subset (List.mem_of_getLast? ends)
    obtain ⟨notOpening, notClosing⟩ := last_of_variable isVariable ends
    have stop : max opening.span.stop closing.span.stop = last.span.stop :=
      congrArg Span.stop (span.symm.trans place)
    rcases Nat.le_total closing.span.stop opening.span.stop with later | later
    · rw [Nat.max_eq_left later] at stop
      exact notOpening (ordered.eq_of_stop memberOpening memberLast stop ▸ opens)
    · rw [Nat.max_eq_right later] at stop
      exact notClosing (ordered.eq_of_stop memberClosing memberLast stop ▸ closes)

end Bantam
