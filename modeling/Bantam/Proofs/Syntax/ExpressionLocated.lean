import Bantam.Proofs.Syntax.Located

/-! Expressions are read with their places. What a parser of expressions takes from tokens in order
is an expression in its place; what it blames, if it fails, lies within the tokens too. The lemmas
follow the parsers step by step, and the loops keep the place of what they have read so far. -/
namespace Bantam
open Grammar

/-- A failure leaves the end of the tokens. The only keyword that it may ask for opens a class, and
a wrong target stands from one of the tokens to another. -/
inductive Blames (base : List Token) : Failure → Prop
  | expected {expectation : Expectation} {rest : List Token} (inside : rest <:+ base)
      (asks : ∀ word, expectation = .word word → word = "class") :
      Blames base ⟨.expected expectation, rest⟩
  | target {tokens rest : List Token} {last : Token} {span : Span} (inside : rest <:+ base)
      (placed : tokens.Sublist base) (runs : RunsTo tokens last span) :
      Blames base ⟨.invalidTarget span, rest⟩

/-- The value read is good for the tokens that were taken, or else the failure lies within. -/
def Meets {α : Type} (base : List Token) (good : List Token → α → Prop) {tokens : List Token} :
    Outcome α tokens → Prop
  | .ok reading => good reading.taken reading.value
  | .error failure => Blames base failure

section Meets
variable {α β : Type} {base tokens others : List Token} {good : List Token → α → Prop}
  {better : List Token → β → Prop} {kind : Kind} {word : String}

theorem Reading.taken_sublist (reading : Reading α tokens) (inside : tokens <:+ base) :
    reading.taken.Sublist base := (List.take_sublist ..).trans inside.sublist

theorem Reading.inside (reading : Reading α tokens) (inside : tokens <:+ base) :
    reading.rest <:+ base := reading.isSuffix.trans inside

theorem Meets.bind {first : Outcome α tokens} {next : Reading α tokens → Outcome β others}
    (meets : Meets base good first)
    (later : ∀ reading : Reading α tokens, good reading.taken reading.value →
      Meets base better (next reading)) : Meets base better (first >>= next) := by
  cases first with
  | error failure => exact meets
  | ok reading => exact later reading meets

theorem Meets.imp {outcome : Outcome α tokens} {weaker : List Token → α → Prop}
    (meets : Meets base good outcome)
    (implies : ∀ taken value, good taken value → weaker taken value) :
    Meets base weaker outcome := by
  cases outcome with
  | error failure => exact meets
  | ok reading => exact implies _ _ meets

theorem Meets.done (ordered : Ordered base) (inside : tokens <:+ base) {reading : Reading α tokens}
    (holds : Ordered reading.taken → good reading.taken reading.value) :
    Meets base good (.ok reading : Outcome α tokens) :=
  holds (ordered.sublist (reading.taken_sublist inside))

theorem Meets.expected {expectation : Expectation} (inside : tokens <:+ base)
    (asks : ∀ word, expectation ≠ .word word) :
    Meets base good (.error ⟨.expected expectation, tokens⟩ : Outcome α others) :=
  Blames.expected inside fun word same => absurd same (asks word)

theorem readKind_meets (inside : tokens <:+ base) :
    Meets base (fun taken span => ∃ token, taken = [token] ∧ token.kind = kind ∧ token.span = span)
      (readKind kind tokens) := by
  cases read : readKind kind tokens with
  | ok reading => exact readKind_span read
  | error failure =>
    rw [readKind, readToken] at read
    split at read
    · contradiction
    · cases read
      exact .expected inside (by simp)

theorem name_ofToken? {token : Token} {name : Name} (chosen : Name.ofToken? token = some name) :
    token.isName ∧ name = ⟨token.spelling, token.span⟩ := by
  rw [Name.ofToken?] at chosen
  split at chosen
  · next isName => exact ⟨isName, (Option.some.inj chosen).symm⟩
  · contradiction

theorem readName_meets (inside : tokens <:+ base) :
    Meets base (fun taken name => ∃ token, taken = [token] ∧ token.isName ∧
      name = ⟨token.spelling, token.span⟩) (readName tokens) := by
  cases read : readName tokens with
  | ok reading =>
    obtain ⟨token, taken, chosen⟩ := readToken_taken read
    exact ⟨token, taken, name_ofToken? chosen⟩
  | error failure =>
    rw [readName, readToken] at read
    split at read
    · contradiction
    · cases read
      exact .expected inside (by simp)

theorem span_of_spanOfWord {token : Token} {span : Span}
    (chosen : spanOfWord word token = some span) : token.span = span := by
  rw [spanOfWord] at chosen
  split at chosen
  · exact Option.some.inj chosen
  · contradiction

theorem readWord?_span {reading : Reading Span tokens}
    (read : readWord? word tokens = some reading) :
    ∃ token, reading.taken = [token] ∧ token.isWord word ∧ token.span = reading.value := by
  obtain ⟨token, taken, chosen⟩ := readToken?_taken read
  exact ⟨token, taken, isWord_of_spanOfWord chosen, span_of_spanOfWord chosen⟩

theorem readSigned?_span {operator? : Kind → Option β} {reading : Reading (β × Span) tokens}
    (read : readToken? (signed operator?) tokens = some reading) :
    ∃ token, reading.taken = [token] ∧ operator? token.kind = some reading.value.1 ∧
      token.span = reading.value.2 := by
  obtain ⟨token, taken, chosen⟩ := readToken?_taken read
  obtain ⟨op, stands, same⟩ := Option.map_eq_some_iff.mp chosen
  rw [← same]
  exact ⟨token, taken, stands, rfl⟩

/-- A type begins with its name, whose span it carries. -/
def TypeName.Stands (taken : List Token) (name : TypeName) : Prop :=
  ∃ token brackets, taken = token :: brackets ∧ Grammar.TypeName taken name.type ∧
    token.span = name.span

theorem TypeName.Stands.begins {name : TypeName} (stands : name.Stands tokens) :
    Begins tokens name.span := by
  obtain ⟨token, brackets, rfl, -, span⟩ := stands
  exact span ▸ begins_cons token brackets

theorem TypeName.Stands.typeName {name : TypeName} (stands : name.Stands tokens) :
    Grammar.TypeName tokens name.type := by
  obtain ⟨-, -, -, named, -⟩ := stands
  exact named

theorem readType_meets (inside : tokens <:+ base) :
    Meets base (fun taken name => name.Stands taken) (readType tokens) := by
  refine (readName_meets inside).bind ?_
  rintro name ⟨token, taken, isName, value⟩
  rcases found : readKind? .leftBracket name.rest with _ | bracket
  · show TypeName.Stands name.taken ⟨.named name.value.text, name.value.span⟩
    rw [taken, value]
    exact ⟨token, [], rfl, .named isName, rfl⟩
  · obtain ⟨opening, takenOpening, opens, -⟩ := readKind?_span found
    refine (readKind_meets (bracket.inside (name.inside inside))).bind ?_
    rintro close ⟨closing, takenClosing, closes, -⟩
    show TypeName.Stands (name.followedBy (bracket.followedBy close)).taken
      ⟨(Ty.named name.value.text).array, name.value.span⟩
    rw [Reading.taken_followedBy, Reading.taken_followedBy, taken, takenOpening, takenClosing,
      value]
    exact ⟨token, [opening, closing], rfl, .array isName opens closes, rfl⟩

end Meets

theorem assigned_of_assignment? {target : Operand} {assign : Expr → Expr}
    (assigns : target.assignment? = some assign) : ∃ info qualifier name index,
      target.expr = .var info qualifier name index ∧ ∀ value, assign value =
        .assign ⟨info.span.merge value.span, none⟩ qualifier name index value := by
  unfold Operand.assignment? at assigns
  split at assigns
  · cases assigns
    exact ⟨_, _, _, _, rfl, fun _ => rfl⟩
  · contradiction

/-- The operand is read from the tokens. -/
def Operand.Whole (tokens : List Token) (operand : Operand) : Prop :=
  Located.Whole tokens operand.expr

/-- Arguments are read with the closing parenthesis, whose span they carry. -/
def ArgumentsStand (taken : List Token) (arguments : List Expr × Span) : Prop :=
  ∃ within closing, taken = within ++ [closing] ∧ Located.Arguments within arguments.1 ∧
    closing.kind = .rightParen ∧ closing.span = arguments.2

section Expressions
variable {base : List Token}

mutual

theorem readExpr_meets (ordered : Ordered base) {tokens : List Token} (inside : tokens <:+ base) :
    Meets base Located.Whole (readExpr tokens) := by
  rw [readExpr]
  refine (readOperators_meets ordered .or inside).bind fun left target => ?_
  rcases found : readKind? .assign left.rest with _ | sign
  · exact target
  · obtain ⟨token, taken, assigns, -⟩ := readKind?_span found
    rcases isTarget : left.value.assignment? with _ | assign
    · obtain ⟨last, located⟩ := target
      exact .target (left.inside inside) (left.taken_sublist inside) located.runs
    · obtain ⟨info, qualifier, name, index, isVar, result⟩ := assigned_of_assignment? isTarget
      refine (readExpr_meets ordered (sign.inside (left.inside inside))).bind fun right source => ?_
      refine .done ordered inside fun sorted => ?_
      simp only [Reading.taken_give, Reading.taken_followedBy, taken, Reading.value_give, result]
        at sorted ⊢
      rw [Operand.Whole, isVar] at target
      exact target.assign assigns source sorted
termination_by descent tokens 16
decreasing_by
  · simp [descent, Level.height]
  · have := left.shorter; have := sign.shorter; simp [descent]; omega

theorem readOperators_meets (ordered : Ordered base) (level : Level) {tokens : List Token}
    (inside : tokens <:+ base) :
    Meets base Operand.Whole (readOperators level tokens) := by
  rw [readOperators]
  exact (readOperand_meets ordered level inside).bind fun first operand =>
    readMoreOperators_meets ordered level inside operand
termination_by descent tokens (2 * level.height + 3)
decreasing_by
  · simp [descent]
  · have := first.shorter; simp [descent]; omega

theorem readMoreOperators_meets (ordered : Ordered base) (level : Level) {tokens : List Token}
    (inside : tokens <:+ base) {left : Reading Operand tokens}
    (before : left.value.Whole left.taken) :
    Meets base Operand.Whole (readMoreOperators level left) := by
  rw [readMoreOperators]
  have behind := left.inside inside
  rcases found : readToken? (signed level.operator?) left.rest with _ | sign
  · rcases found : readToken? level.typeTest? left.rest with _ | word
    · exact before
    · obtain ⟨token, taken, chosen⟩ := readToken?_taken found
      obtain ⟨-, tests⟩ := relational_of_typeTest? chosen
      refine (readType_meets (word.inside behind)).bind ?_
      rintro type ⟨name, brackets, takenType, named, span⟩
      refine readMoreOperators_meets ordered level inside ?_
      have sorted := ordered.sublist
        ((left.followedBy (word.followedBy type)).taken_sublist inside)
      rw [takenType] at named
      rw [Reading.taken_followedBy, Reading.taken_followedBy, taken, takenType] at sorted
      rw [Reading.taken_give, Reading.taken_followedBy, Reading.taken_followedBy, taken, takenType,
        Reading.value_give, ← span]
      exact before.instanceOf tests named sorted
  · obtain ⟨token, taken, stands, -⟩ := readSigned?_span found
    refine (readOperand_meets ordered level (sign.inside behind)).bind fun right operand => ?_
    refine readMoreOperators_meets ordered level inside ?_
    have sorted := ordered.sublist
      ((left.followedBy (sign.followedBy right)).taken_sublist inside)
    rw [Reading.taken_followedBy, Reading.taken_followedBy, taken] at sorted
    rw [Reading.taken_give, Reading.taken_followedBy, Reading.taken_followedBy, taken]
    exact Located.Whole.binary (Level.joins_of_operator? stands) before operand sorted
termination_by descent left.rest (2 * level.height + 3)
decreasing_by
  · have := word.shorter; have := type.shorter
    simp [descent, Reading.followedBy, Reading.give]; omega
  · have := sign.shorter; simp [descent]; omega
  · have := sign.shorter; have := right.shorter
    simp [descent, Reading.followedBy, Reading.give]; omega

theorem readOperand_meets (ordered : Ordered base) (level : Level) {tokens : List Token}
    (inside : tokens <:+ base) :
    Meets base Operand.Whole (readOperand level tokens) := by
  rw [readOperand]
  split
  · exact readOperators_meets ordered _ inside
  · exact readUnary_meets ordered inside
termination_by descent tokens (2 * level.height + 2)
decreasing_by
  · rename_i found; have := Level.height_of_tighter? found; simp [descent]; omega
  · have := level.height_pos; simp [descent]; omega

theorem readUnary_meets (ordered : Ordered base) {tokens : List Token} (inside : tokens <:+ base) :
    Meets base Operand.Whole (readUnary tokens) := by
  rw [readUnary]
  rcases found : readToken? (signed UnaryOp.before?) tokens with _ | sign
  · rcases found : readWord? "new" tokens with _ | word
    · rcases found : readWord? "cast" tokens with _ | word
      · refine (readPrimary_meets ordered inside).bind fun operand primary => ?_
        rcases found : readToken? (signed UnaryOp.behind?) operand.rest with _ | sign
        · exact primary
        · obtain ⟨token, taken, stands, span⟩ := readSigned?_span found
          refine .done ordered inside fun sorted => ?_
          simp only [Reading.taken_give, Reading.taken_followedBy, taken, Reading.value_give,
            ← span] at sorted ⊢
          exact primary.step (signBehind_of_behind? stands) sorted
      · obtain ⟨token, taken, casts, span⟩ := readWord?_span found
        have behind := word.inside inside
        refine (readKind_meets behind).bind ?_
        rintro paren ⟨opening, takenOpening, opens, -⟩
        refine (readType_meets (paren.inside behind)).bind ?_
        rintro type ⟨name, brackets, -, named, -⟩
        refine (readKind_meets (type.inside (paren.inside behind))).bind ?_
        rintro comma ⟨separator, takenComma, separates, -⟩
        have behind := comma.inside (type.inside (paren.inside behind))
        refine (readExpr_meets ordered behind).bind fun operand inner => ?_
        refine (readKind_meets (operand.inside behind)).bind ?_
        rintro close ⟨closing, takenClosing, closes, spanClosing⟩
        refine .done ordered inside fun sorted => ?_
        simp only [Reading.taken_give, Reading.taken_followedBy, taken, takenOpening, takenComma,
          takenClosing, Reading.value_give, ← span, ← spanClosing] at sorted ⊢
        exact Located.Whole.cast casts opens named separates inner closes sorted
    · obtain ⟨token, taken, creates, span⟩ := readWord?_span found
      have behind := word.inside inside
      refine (readName_meets behind).bind ?_
      rintro name ⟨nameToken, takenName, isName, value⟩
      have behind := name.inside behind
      rcases found : readKind? .leftParen name.rest with _ | paren
      · rcases found : readKind? .leftBracket name.rest with _ | bracket
        · exact Meets.expected behind (by simp)
        · obtain ⟨opening, takenOpening, opens, -⟩ := readKind?_span found
          have behind := bracket.inside behind
          refine (readExpr_meets ordered behind).bind fun size inner => ?_
          refine (readKind_meets (size.inside behind)).bind ?_
          rintro close ⟨closing, takenClosing, closes, spanClosing⟩
          refine .done ordered inside fun sorted => ?_
          simp only [Reading.taken_give, Reading.taken_followedBy, taken, takenName, takenOpening,
            takenClosing, Reading.value_give, value, ← span, ← spanClosing] at sorted ⊢
          exact Located.Whole.newArray creates isName opens inner closes sorted
      · obtain ⟨opening, takenOpening, opens, -⟩ := readKind?_span found
        refine (readKind_meets (paren.inside behind)).bind ?_
        rintro close ⟨closing, takenClosing, closes, spanClosing⟩
        refine .done ordered inside fun sorted => ?_
        simp only [Reading.taken_give, Reading.taken_followedBy, taken, takenName, takenOpening,
          takenClosing, Reading.value_give, value, ← span, ← spanClosing] at sorted ⊢
        exact Located.Whole.new creates isName opens closes sorted
  · obtain ⟨token, taken, stands, span⟩ := readSigned?_span found
    refine (readUnary_meets ordered (sign.inside inside)).bind fun operand inner => ?_
    refine .done ordered inside fun sorted => ?_
    simp only [Reading.taken_give, Reading.taken_followedBy, taken, Reading.value_give, ← span]
      at sorted ⊢
    exact Located.Whole.unary (signBefore_of_before? stands) inner sorted
termination_by descent tokens 3
decreasing_by
  · simp [descent]
  · have := word.shorter; have := paren.shorter; have := type.shorter; have := comma.shorter
    simp [descent]; omega
  · have := word.shorter; have := name.shorter; have := bracket.shorter; simp [descent]; omega
  · have := sign.shorter; simp [descent]; omega

theorem readPrimary_meets (ordered : Ordered base) {tokens : List Token}
    (inside : tokens <:+ base) :
    Meets base Operand.Whole (readPrimary tokens) := by
  rw [readPrimary]
  rcases found : readKind? .leftParen tokens with _ | paren
  · rcases found : readToken? Expr.constant? tokens with _ | constant
    · rcases found : readToken? Name.ofToken? tokens with _ | name
      · exact Meets.expected inside (by simp)
      · obtain ⟨token, taken, chosen⟩ := readToken?_taken found
        obtain ⟨isName, value⟩ := name_ofToken? chosen
        have unqualified : Located.Qualifier ([] ++ []) none := .none
        have named := readNamed_meets ordered inside unqualified taken isName value
        exact named.bind fun expr whole => readSelections_meets ordered inside
          (whole (ordered.sublist (expr.taken_sublist inside)))
    · obtain ⟨token, taken, chosen⟩ := readToken?_taken found
      refine readSelections_meets ordered inside ?_
      rw [Reading.taken_give, taken]
      exact Located.Whole.constant chosen
  · obtain ⟨opening, takenOpening, opens, span⟩ := readKind?_span found
    have behind := paren.inside inside
    refine (readExpr_meets ordered behind).bind fun inner enclosed => ?_
    refine (readKind_meets (inner.inside behind)).bind ?_
    rintro close ⟨closing, takenClosing, closes, spanClosing⟩
    refine readSelections_meets ordered inside ?_
    have sorted := ordered.sublist
      ((paren.followedBy (inner.followedBy close)).taken_sublist inside)
    rw [Reading.taken_followedBy, Reading.taken_followedBy, takenOpening, takenClosing] at sorted
    rw [Reading.taken_give, Reading.taken_followedBy, Reading.taken_followedBy, takenOpening,
      takenClosing, Reading.value_give, ← span, ← spanClosing]
    exact Located.Whole.group opens enclosed closes sorted
termination_by descent tokens 2
decreasing_by
  · have := name.shorter; simp [descent]; omega
  · have := expr.shorter; simp [descent, Reading.give]; omega
  · have := constant.shorter; simp [descent, Reading.give]; omega
  · have := paren.shorter; simp [descent]; omega
  · have := paren.shorter; have := inner.shorter; have := close.shorter
    simp [descent, Reading.followedBy, Reading.give]; omega

theorem readSelections_meets (ordered : Ordered base) {tokens : List Token}
    (inside : tokens <:+ base) {head : Reading Operand tokens}
    (before : head.value.Whole head.taken) :
    Meets base Operand.Whole (readSelections head) := by
  rw [readSelections]
  rcases found : readKind? .dot head.rest with _ | dot
  · exact before
  · obtain ⟨token, taken, selects, -⟩ := readKind?_span found
    have behind := head.inside inside
    refine (readName_meets (dot.inside behind)).bind ?_
    rintro name ⟨nameToken, takenName, isName, value⟩
    have takenBoth : (dot.followedBy name).taken = [token] ++ [nameToken] := by
      rw [Reading.taken_followedBy, taken, takenName]
    obtain ⟨ends, located⟩ := before
    have qualified : Located.Qualifier (head.taken ++ [token]) (some head.value.expr) :=
      .dotted located selects
    have named := readNamed_meets ordered behind qualified takenBoth isName value
    refine named.bind fun expr whole => ?_
    refine readSelections_meets ordered inside ?_
    have sorted := ordered.sublist ((head.followedBy expr).taken_sublist inside)
    rw [Reading.taken_followedBy] at sorted
    rw [Reading.taken_give, Reading.taken_followedBy]
    exact whole sorted
termination_by descent head.rest 1
decreasing_by
  · have := dot.shorter; have := name.shorter; simp [descent, Reading.followedBy]; omega
  · have := expr.shorter; simp [descent, Reading.followedBy, Reading.give]; omega

/-- A name is read together with what stands before it, of which the last tokens may be part of the
reading. -/
theorem readNamed_meets (ordered : Ordered base) {qualifier : Option Expr}
    {front before tokens : List Token} (inside : tokens <:+ base) {name : Reading Name tokens}
    {token : Token}
    (qualified : Located.Qualifier (front ++ before) qualifier)
    (taken : name.taken = before ++ [token]) (isName : token.isName)
    (value : name.value = ⟨token.spelling, token.span⟩) :
    Meets base (fun taken expr => Ordered (front ++ taken) → Located.Whole (front ++ taken) expr)
      (readNamed qualifier name) := by
  rw [readNamed]
  have behind := name.inside inside
  rcases found : readKind? .leftParen name.rest with _ | paren
  · rcases found : readKind? .leftBracket name.rest with _ | bracket
    · intro sorted
      simp only [Reading.taken_give, taken, Reading.value_give, value, ← List.append_assoc]
        at sorted ⊢
      exact Located.Whole.var qualified isName sorted
    · obtain ⟨opening, takenOpening, opens, -⟩ := readKind?_span found
      have behind := bracket.inside behind
      refine (readExpr_meets ordered behind).bind fun index inner => ?_
      refine (readKind_meets (index.inside behind)).bind ?_
      rintro close ⟨closing, takenClosing, closes, spanClosing⟩ sorted
      have whole : front ++ (name.followedBy (bracket.followedBy (index.followedBy close))).taken =
          (front ++ before) ++ token :: opening :: (index.taken ++ [closing]) := by
        simp [taken, takenOpening, takenClosing]
      rw [Reading.taken_give, whole] at sorted ⊢
      rw [Reading.value_give, value, ← spanClosing]
      exact Located.Whole.indexed qualified isName opens inner closes sorted
  · obtain ⟨opening, takenOpening, opens, -⟩ := readKind?_span found
    refine (readArguments_meets ordered (paren.inside behind)).bind ?_
    rintro arguments ⟨within, closing, takenArguments, given, closes, spanClosing⟩ sorted
    have whole : front ++ (name.followedBy (paren.followedBy arguments)).taken =
        (front ++ before) ++ token :: opening :: (within ++ [closing]) := by
      simp [taken, takenOpening, takenArguments]
    rw [Reading.taken_give, whole] at sorted ⊢
    rw [Reading.value_give, value, ← spanClosing]
    exact Located.Whole.call qualified isName opens given closes sorted
termination_by descent name.rest 19
decreasing_by
  · have := bracket.shorter; simp [descent]; omega
  · have := paren.shorter; simp [descent]; omega

theorem readArguments_meets (ordered : Ordered base) {tokens : List Token}
    (inside : tokens <:+ base) :
    Meets base ArgumentsStand (readArguments tokens) := by
  rw [readArguments]
  rcases found : readKind? .rightParen tokens with _ | close
  · exact (readMoreArguments_meets ordered inside).imp fun _ _ => And.left
  · obtain ⟨closing, taken, closes, span⟩ := readKind?_span found
    exact ⟨[], closing, taken, .none, closes, span⟩
termination_by descent tokens 18
decreasing_by simp [descent]

theorem readMoreArguments_meets (ordered : Ordered base) {tokens : List Token}
    (inside : tokens <:+ base) :
    Meets base (fun taken arguments => ArgumentsStand taken arguments ∧ arguments.1 ≠ [])
      (readMoreArguments tokens) := by
  rw [readMoreArguments]
  refine (readExpr_meets ordered inside).bind ?_
  rintro first ⟨ends, argument⟩
  have behind := first.inside inside
  rcases found : readKind? .comma first.rest with _ | comma
  · refine (readKind_meets behind).bind ?_
    rintro close ⟨closing, taken, closes, span⟩
    refine ⟨⟨first.taken, closing, ?_, .one argument, closes, span⟩, List.cons_ne_nil _ _⟩
    rw [Reading.taken_give, Reading.taken_followedBy, taken]
  · obtain ⟨token, taken, separates, -⟩ := readKind?_span found
    refine (readMoreArguments_meets ordered (comma.inside behind)).bind ?_
    rintro more ⟨⟨within, closing, takenMore, given, closes, span⟩, some⟩
    obtain ⟨next, others, values⟩ := List.exists_cons_of_ne_nil some
    refine ⟨⟨first.taken ++ token :: within, closing, ?_, ?_, closes, span⟩, List.cons_ne_nil _ _⟩
    · rw [Reading.taken_give, Reading.taken_followedBy, Reading.taken_followedBy, taken, takenMore]
      simp
    · rw [Reading.value_give, values]
      exact .more argument separates (values ▸ given)
termination_by descent tokens 17
decreasing_by
  · simp [descent]
  · have := first.shorter; have := comma.shorter; simp [descent]; omega

end

end Expressions

end Bantam
