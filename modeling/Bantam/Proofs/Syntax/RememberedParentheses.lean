import Bantam.Proofs.Syntax.ExpressionComplete
import Bantam.Proofs.Syntax.Extent

/-! Remembered parentheses. Whether a variable is enclosed can be told without marking operands: a
parser may remember one span only, that of the parentheses it closed last, never forget it, and
refuse a variable that has just this span. What it remembers of other parentheses never is the span
of a variable that is not enclosed, so it reads every text as the parser with marked operands. -/
namespace Bantam
open Grammar

namespace Remembered

/-- What a parser does that remembers the span of parentheses. -/
abbrev Run (α : Type) (tokens : List Token) : Type :=
  StateT (Option Span) (Except Failure) (Reading α tokens)

/-- The assignment of a value to an expression, unless it has the span that is remembered or is no
variable. -/
def assignment? (remembered : Option Span) : Expr → Option (Expr → Expr)
  | .var info qualifier name index =>
    if remembered = some info.span then none
    else some fun value => .assign ⟨info.span.merge value.span, none⟩ qualifier name index value
  | _ => none

mutual

def readExpr (tokens : List Token) : Run Expr tokens := do
  let left ← readOperators .or tokens
  match readKind? .assign left.rest with
  | none => return left
  | some sign =>
    match assignment? (← get) left.value with
    | none => throw ⟨.invalidTarget left.value.span, left.rest⟩
    | some assign =>
      let right ← readExpr sign.rest
      return (left.followedBy (sign.followedBy right)).give (assign right.value)
termination_by descent tokens 16
decreasing_by
  · simp [descent, Level.height]
  · have := left.shorter; have := sign.shorter; simp [descent]; omega

def readOperators (level : Level) (tokens : List Token) : Run Expr tokens := do
  let first ← readOperand level tokens
  readMoreOperators level first
termination_by descent tokens (2 * level.height + 3)
decreasing_by
  · simp [descent]
  · have := first.shorter; simp [descent]; omega

def readMoreOperators (level : Level) {tokens : List Token} (left : Reading Expr tokens) :
    Run Expr tokens :=
  match readToken? (signed level.operator?) left.rest with
  | some sign => do
    let right ← readOperand level sign.rest
    let span := left.value.span.merge right.value.span
    let expr := .binary ⟨span, none⟩ sign.value.1 left.value right.value
    readMoreOperators level ((left.followedBy (sign.followedBy right)).give expr)
  | none =>
    match readToken? level.typeTest? left.rest with
    | some word => do
      let type ← readType word.rest
      let span := left.value.span.merge type.value.span
      let expr := .instanceOf ⟨span, none⟩ left.value type.value.type
      readMoreOperators level ((left.followedBy (word.followedBy type)).give expr)
    | none => return left
termination_by descent left.rest (2 * level.height + 3)
decreasing_by
  · have := sign.shorter; simp [descent]; omega
  · have := sign.shorter; have := right.shorter
    simp [descent, Reading.followedBy, Reading.give]; omega
  · have := word.shorter; have := type.shorter
    simp [descent, Reading.followedBy, Reading.give]; omega

def readOperand (level : Level) (tokens : List Token) : Run Expr tokens :=
  match _found : level.tighter? with
  | some tighter => readOperators tighter tokens
  | none => readUnary tokens
termination_by descent tokens (2 * level.height + 2)
decreasing_by
  · have := Level.height_of_tighter? _found; simp [descent]; omega
  · have := level.height_pos; simp [descent]; omega

def readUnary (tokens : List Token) : Run Expr tokens :=
  match readToken? (signed UnaryOp.before?) tokens with
  | some sign => do
    let operand ← readUnary sign.rest
    let span := sign.value.2.merge operand.value.span
    return (sign.followedBy operand).give (.unary ⟨span, none⟩ sign.value.1 operand.value)
  | none =>
    match readWord? "new" tokens with
    | some word => do
      let name ← readName word.rest
      match readKind? .leftParen name.rest with
      | some paren =>
        let close ← readKind .rightParen paren.rest
        let span := word.value.merge close.value
        return (word.followedBy (name.followedBy (paren.followedBy close))).give
          (.new ⟨span, none⟩ name.value.text)
      | none =>
        match readKind? .leftBracket name.rest with
        | some bracket =>
          let size ← readExpr bracket.rest
          let close ← readKind .rightBracket size.rest
          let span := word.value.merge close.value
          return (word.followedBy (name.followedBy (bracket.followedBy
            (size.followedBy close)))).give (.newArray ⟨span, none⟩ name.value.text size.value)
        | none => throw ⟨.expected .parenOrBracket, name.rest⟩
    | none =>
      match readWord? "cast" tokens with
      | some word => do
        let paren ← readKind .leftParen word.rest
        let type ← readType paren.rest
        let comma ← readKind .comma type.rest
        let operand ← readExpr comma.rest
        let close ← readKind .rightParen operand.rest
        let span := word.value.merge close.value
        return (word.followedBy (paren.followedBy (type.followedBy (comma.followedBy
          (operand.followedBy close))))).give (.cast ⟨span, none⟩ type.value.type operand.value)
      | none => do
        let operand ← readPrimary tokens
        match readToken? (signed UnaryOp.behind?) operand.rest with
        | some sign =>
          let span := operand.value.span.merge sign.value.2
          return (operand.followedBy sign).give (.unary ⟨span, none⟩ sign.value.1 operand.value)
        | none => return operand
termination_by descent tokens 3
decreasing_by
  · have := sign.shorter; simp [descent]; omega
  · have := word.shorter; have := name.shorter; have := bracket.shorter; simp [descent]; omega
  · have := word.shorter; have := paren.shorter; have := type.shorter; have := comma.shorter
    simp [descent]; omega
  · simp [descent]

/-- The span of parentheses is remembered once it is clear that no dot follows them. -/
def readPrimary (tokens : List Token) : Run Expr tokens :=
  match readKind? .leftParen tokens with
  | some paren => do
    let inner ← readExpr paren.rest
    let close ← readKind .rightParen inner.rest
    let whole := (paren.followedBy (inner.followedBy close)).give
      (inner.value.withSpan (paren.value.merge close.value))
    let selected ← readSelections whole
    if (readKind? .dot whole.rest).isNone then
      set (some selected.value.span)
    return selected
  | none =>
    match readToken? Expr.constant? tokens with
    | some constant => readSelections constant
    | none =>
      match readToken? Name.ofToken? tokens with
      | some name => do
        let expr ← readNamed none name
        readSelections expr
      | none => throw ⟨.expected .expression, tokens⟩
termination_by descent tokens 2
decreasing_by
  · have := paren.shorter; simp [descent]; omega
  · have := paren.shorter; have := inner.shorter; have := close.shorter
    simp [descent, Reading.followedBy, Reading.give]; omega
  · have := constant.shorter; simp [descent]; omega
  · have := name.shorter; simp [descent]; omega
  · have := expr.shorter; simp [descent]; omega

def readSelections {tokens : List Token} (head : Reading Expr tokens) : Run Expr tokens :=
  match readKind? .dot head.rest with
  | some dot => do
    let name ← readName dot.rest
    let expr ← readNamed (some head.value) (dot.followedBy name)
    readSelections (head.followedBy expr)
  | none => return head
termination_by descent head.rest 1
decreasing_by
  · have := dot.shorter; have := name.shorter; simp [descent, Reading.followedBy]; omega
  · have := expr.shorter; simp [descent, Reading.followedBy]; omega

def readNamed (qualifier : Option Expr) {tokens : List Token} (name : Reading Name tokens) :
    Run Expr tokens :=
  let start := (qualifier.map Expr.span).getD name.value.span
  match readKind? .leftParen name.rest with
  | some paren => do
    let arguments ← readArguments paren.rest
    let span := start.merge arguments.value.2
    return (name.followedBy (paren.followedBy arguments)).give
      (.call ⟨span, none⟩ qualifier name.value.text arguments.value.1)
  | none =>
    let span := start.merge name.value.span
    match readKind? .leftBracket name.rest with
    | some bracket => do
      let index ← readExpr bracket.rest
      let close ← readKind .rightBracket index.rest
      return (name.followedBy (bracket.followedBy (index.followedBy close))).give
        (.var ⟨span.merge close.value, none⟩ qualifier name.value.text (some index.value))
    | none => return name.give (.var ⟨span, none⟩ qualifier name.value.text none)
termination_by descent name.rest 19
decreasing_by
  · have := paren.shorter; simp [descent]; omega
  · have := bracket.shorter; simp [descent]; omega

def readArguments (tokens : List Token) : Run (List Expr × Span) tokens :=
  match readKind? .rightParen tokens with
  | some close => return close.give ([], close.value)
  | none => readMoreArguments tokens
termination_by descent tokens 18
decreasing_by simp [descent]

def readMoreArguments (tokens : List Token) : Run (List Expr × Span) tokens := do
  let first ← readExpr tokens
  match readKind? .comma first.rest with
  | some comma =>
    let more ← readMoreArguments comma.rest
    return (first.followedBy (comma.followedBy more)).give
      (first.value :: more.value.1, more.value.2)
  | none =>
    let close ← readKind .rightParen first.rest
    return (first.followedBy close).give ([first.value], close.value)
termination_by descent tokens 17
decreasing_by
  · simp [descent]
  · have := first.shorter; have := comma.shorter; simp [descent]; omega

end

section Agreement
variable {source : String} {marker : Option Span} {tokens others : List Token} {α β γ δ : Type}

/-- The span is that of some parentheses of the source text. -/
def IsParentheses (source : String) (span : Span) : Prop :=
  ∃ opening ∈ meaningful source, ∃ closing ∈ meaningful source, opening.kind = .leftParen ∧
    closing.kind = .rightParen ∧ span = opening.span.merge closing.span

/-- What a parser of the source text can have remembered. -/
def Known (source : String) (remembered : Option Span) : Prop :=
  ∀ span, remembered = some span → IsParentheses source span

/-- A parser that remembers does what another one does: it fails in the same way, or it reads the
same up to a view of it, and what it remembers then is known and related to what was read. -/
def Agrees (source : String) (view : α → β) (related : α → Option Span → Prop)
    (remembered : Option Span) (plain : Outcome α tokens) (run : Run β tokens) : Prop :=
  match plain with
  | .error failure => run remembered = .error failure
  | .ok reading => ∃ later, Known source later ∧ related reading.value later ∧
    run remembered = .ok (reading.give (view reading.value), later)

abbrev Whatever (_ : α) (_ : Option Span) : Prop := True

/-- The span of an enclosed operand is what has been remembered last. -/
def OfGroup (operand : Operand) (remembered : Option Span) : Prop :=
  operand.grouped = true → remembered = some operand.expr.span

/-- What is selected from a head: the head itself if no dot follows, and else nothing enclosed. -/
def Selects (head : Reading Operand tokens) (operand : Operand) (_ : Option Span) : Prop :=
  match readKind? .dot head.rest with
  | none => operand = head.value
  | some _ => operand.grouped = false

namespace Selects
variable {head : Reading Operand tokens} {operand : Operand}

theorem grouped_eq (selects : Selects head operand marker) (plain : head.value.grouped = false) :
    operand.grouped = false := by
  unfold Selects at selects
  split at selects
  · rw [selects, plain]
  · exact selects

theorem eq_head (selects : Selects head operand marker)
    (undotted : readKind? .dot head.rest = none) : operand = head.value := by
  rwa [Selects, undotted] at selects

theorem ofDotted {dot : Reading Span head.rest} (selects : Selects head operand marker)
    (dotted : readKind? .dot head.rest = some dot) : OfGroup operand marker := by
  rw [Selects, dotted] at selects
  intro grouped
  rw [selects] at grouped
  contradiction

theorem ofPlain (selects : Selects head operand marker) (plain : head.value.grouped = false) :
    OfGroup operand marker := by
  intro grouped
  rw [selects.grouped_eq plain] at grouped
  contradiction

end Selects

namespace Agrees
variable {view : α → β} {related : α → Option Span → Prop} {view' : γ → δ}
  {related' : γ → Option Span → Prop}

theorem bind {plain : Outcome α tokens} {run : Run β tokens}
    {next : Reading α tokens → Outcome γ others} {after : Reading β tokens → Run δ others}
    (agrees : Agrees source view related marker plain run)
    (goesOn : ∀ reading later, plain = .ok reading → Known source later →
      related reading.value later → Agrees source view' related' later (next reading)
        (after (reading.give (view reading.value)))) :
    Agrees source view' related' marker (plain >>= next) (run >>= after) := by
  cases plain with
  | error failure =>
    have failed : run marker = .error failure := agrees
    show (run marker >>= fun result => after result.1 result.2) = .error failure
    rw [failed]
    rfl
  | ok reading =>
    obtain ⟨later, known, holds, runs⟩ := agrees
    have same : (run >>= after) marker = after (reading.give (view reading.value)) later := by
      show (run marker >>= fun result => after result.1 result.2) = _
      rw [runs]
      rfl
    have agrees := goesOn reading later rfl known holds
    show Agrees source view' related' marker (next reading) (run >>= after)
    unfold Agrees at agrees ⊢
    rw [same]
    exact agrees

/-- Reading tokens takes no notice of what is remembered. -/
theorem lift {plain : Outcome α tokens} {next : Reading α tokens → Outcome γ others}
    {after : Reading α tokens → Run δ others}
    (goesOn : ∀ reading, plain = .ok reading →
      Agrees source view' related' marker (next reading) (after reading)) :
    Agrees source view' related' marker (plain >>= next) (liftM plain >>= after) := by
  cases plain with
  | error failure => rfl
  | ok reading => exact goesOn reading rfl

theorem give {reading : Reading α tokens} (known : Known source marker)
    (holds : related reading.value marker) :
    Agrees source view related marker (pure reading)
      (pure (reading.give (view reading.value))) :=
  ⟨marker, known, holds, rfl⟩

theorem imp {related' : α → Option Span → Prop} {plain : Outcome α tokens} {run : Run β tokens}
    (agrees : Agrees source view related marker plain run)
    (implies : ∀ value later, related value later → related' value later) :
    Agrees source view related' marker plain run := by
  cases plain with
  | error failure => exact agrees
  | ok reading =>
    obtain ⟨later, known, holds, runs⟩ := agrees
    exact ⟨later, known, implies _ _ holds, runs⟩

theorem consult {plain : Outcome γ others} {after : Option Span → Run δ others}
    (agrees : Agrees source view' related' marker plain (after marker)) :
    Agrees source view' related' marker plain (get >>= after) := by
  cases plain <;> exact agrees

theorem remember {reading : Reading Operand tokens}
    (parentheses : IsParentheses source reading.value.expr.span) :
    Agrees source Operand.expr OfGroup marker (pure reading)
      (set (some reading.value.expr.span) >>= fun _ => pure (reading.give reading.value.expr)) := by
  refine ⟨some reading.value.expr.span, ?_, fun _ => rfl, rfl⟩
  rintro _ ⟨⟩
  exact parentheses

/-- Up to what one of them remembers, both do the same. -/
theorem fst_eq {plain : Outcome α tokens} {run : Run α tokens}
    (agrees : Agrees source id related marker plain run) :
    (run marker).map Prod.fst = plain := by
  cases plain with
  | error failure => exact congrArg (Except.map Prod.fst) agrees
  | ok reading =>
    obtain ⟨later, -, -, reads⟩ := agrees
    exact congrArg (Except.map Prod.fst) reads

theorem fail (failure : Failure) : Agrees source view related marker
    (throw failure : Outcome α tokens) (throw failure) := rfl

end Agrees

theorem assignment?_eq {operand : Operand} (ofGroup : OfGroup operand marker)
    (fresh : operand.expr.isVar = true → marker = some operand.expr.span →
      operand.grouped = true) :
    Remembered.assignment? marker operand.expr = operand.assignment? := by
  obtain ⟨expr, grouped⟩ := operand
  cases expr with
  | var info qualifier name index =>
    rw [Remembered.assignment?]
    cases grouped with
    | true => exact if_pos (ofGroup rfl)
    | false =>
      refine if_neg fun same => ?_
      exact absurd (fresh rfl same) (by simp)
  | _ => cases grouped <;> rfl

end Agreement

section Parsers
variable {source : String}

theorem readOperand_of_tighter? {level tighter : Level} (found : level.tighter? = some tighter)
    (tokens : List Token) : readOperand level tokens = readOperators tighter tokens := by
  rw [readOperand]
  split <;> simp_all

theorem readOperand_of_tightest {level : Level} (found : level.tighter? = none)
    (tokens : List Token) : readOperand level tokens = readUnary tokens := by
  rw [readOperand]
  split <;> simp_all

theorem isParentheses {tokens rest : List Token} {paren : Reading Span tokens}
    {close : Reading Span rest} (inside : tokens <:+ meaningful source)
    (behind : rest <:+ meaningful source) (opens : readKind? .leftParen tokens = some paren)
    (closes : readKind .rightParen rest = .ok close) :
    IsParentheses source (paren.value.merge close.value) := by
  have member {tokens : List Token} (inside : tokens <:+ meaningful source)
      {reading : Reading Span tokens} {token : Token} (taken : reading.taken = [token]) :
      token ∈ meaningful source := by
    apply inside.subset
    rw [← reading.taken_append_rest, taken]
    exact List.mem_cons_self
  obtain ⟨opening, takenOpening, isOpening, spanOpening⟩ := readKind?_span opens
  obtain ⟨closing, takenClosing, isClosing, spanClosing⟩ := readKind_span closes
  refine ⟨opening, member inside takenOpening, closing, member behind takenClosing, isOpening,
    isClosing, ?_⟩
  rw [spanOpening, spanClosing]

mutual

theorem readExpr_agrees {tokens : List Token} (inside : tokens <:+ meaningful source)
    {marker : Option Span} (known : Known source marker) :
    Agrees source id Whatever marker (Bantam.readExpr tokens) (readExpr tokens) := by
  rw [Bantam.readExpr, readExpr]
  refine (readOperators_agrees .or inside known).bind fun left later read known ofGroup => ?_
  have behind := left.isSuffix.trans inside
  dsimp only [Reading.give]
  rcases found : readKind? .assign left.rest with _ | sign
  · exact .give known trivial
  · have same := assignment?_eq ofGroup fun isVar same =>
      (grouped_iff_span inside read isVar).mpr (known _ same)
    refine .consult ?_
    dsimp only
    rw [same]
    rcases left.value.assignment? with _ | assign
    · exact .fail _
    · refine (readExpr_agrees (sign.isSuffix.trans behind) known).bind
        fun right later _ known _ => ?_
      exact .give known trivial
termination_by descent tokens 16
decreasing_by
  · simp [descent, Level.height]
  · have := left.shorter; have := sign.shorter; simp [descent]; omega

theorem readOperators_agrees (level : Level) {tokens : List Token}
    (inside : tokens <:+ meaningful source) {marker : Option Span} (known : Known source marker) :
    Agrees source Operand.expr OfGroup marker (Bantam.readOperators level tokens)
      (readOperators level tokens) := by
  rw [Bantam.readOperators, readOperators]
  refine (readOperand_agrees level inside known).bind fun first later _ known ofGroup => ?_
  exact readMoreOperators_agrees level first inside known ofGroup
termination_by descent tokens (2 * level.height + 3)
decreasing_by
  · simp [descent]
  · have := first.shorter; simp [descent]; omega

theorem readMoreOperators_agrees (level : Level) {tokens : List Token}
    (left : Reading Operand tokens) (inside : tokens <:+ meaningful source) {marker : Option Span}
    (known : Known source marker) (ofGroup : OfGroup left.value marker) :
    Agrees source Operand.expr OfGroup marker (Bantam.readMoreOperators level left)
      (readMoreOperators level (left.give left.value.expr)) := by
  have behind := left.isSuffix.trans inside
  rw [Bantam.readMoreOperators, readMoreOperators]
  dsimp only [Reading.give]
  rcases readToken? (signed level.operator?) left.rest with _ | sign
  · dsimp only
    rcases readToken? level.typeTest? left.rest with _ | word
    · exact .give known ofGroup
    · refine .lift fun type _ => ?_
      exact readMoreOperators_agrees level ((left.followedBy (word.followedBy type)).give
        (.plain (.instanceOf ⟨left.value.expr.span.merge type.value.span, none⟩ left.value.expr
          type.value.type))) inside known (by rintro ⟨⟩)
  · dsimp only
    refine (readOperand_agrees level (sign.isSuffix.trans behind) known).bind
      fun right later _ known _ => ?_
    exact readMoreOperators_agrees level ((left.followedBy (sign.followedBy right)).give
      (.plain (.binary ⟨left.value.expr.span.merge right.value.expr.span, none⟩ sign.value.1
        left.value.expr right.value.expr))) inside known (by rintro ⟨⟩)
termination_by descent left.rest (2 * level.height + 3)
decreasing_by
  · have := word.shorter; have := type.shorter
    simp [descent, Reading.followedBy, Reading.give]; omega
  · have := sign.shorter; simp [descent]; omega
  · have := sign.shorter; have := right.shorter
    simp [descent, Reading.followedBy, Reading.give]; omega

theorem readOperand_agrees (level : Level) {tokens : List Token}
    (inside : tokens <:+ meaningful source) {marker : Option Span} (known : Known source marker) :
    Agrees source Operand.expr OfGroup marker (Bantam.readOperand level tokens)
      (readOperand level tokens) := by
  cases found : level.tighter? with
  | none =>
    rw [Bantam.readOperand_of_tightest found, readOperand_of_tightest found]
    exact readUnary_agrees inside known
  | some tighter =>
    rw [Bantam.readOperand_of_tighter? found, readOperand_of_tighter? found]
    exact readOperators_agrees tighter inside known
termination_by descent tokens (2 * level.height + 2)
decreasing_by
  · have := level.height_pos; simp [descent]; omega
  · have := Level.height_of_tighter? found; simp [descent]; omega

theorem readUnary_agrees {tokens : List Token} (inside : tokens <:+ meaningful source)
    {marker : Option Span} (known : Known source marker) :
    Agrees source Operand.expr OfGroup marker (Bantam.readUnary tokens) (readUnary tokens) := by
  rw [Bantam.readUnary, readUnary]
  rcases readToken? (signed UnaryOp.before?) tokens with _ | sign
  · dsimp only
    rcases readWord? "new" tokens with _ | word
    · dsimp only
      rcases readWord? "cast" tokens with _ | word
      · dsimp only
        refine (readPrimary_agrees inside known).bind fun operand later _ known ofGroup => ?_
        dsimp only [Reading.give]
        rcases readToken? (signed UnaryOp.behind?) operand.rest with _ | sign
        · exact .give known ofGroup
        · exact .give known (by rintro ⟨⟩)
      · dsimp only
        refine .lift fun paren _ => .lift fun type _ => .lift fun comma _ => ?_
        have behind := comma.isSuffix.trans (type.isSuffix.trans (paren.isSuffix.trans
          (word.isSuffix.trans inside)))
        refine (readExpr_agrees behind known).bind fun operand later _ known _ => ?_
        exact .lift fun close _ => .give known (by rintro ⟨⟩)
    · dsimp only
      refine .lift fun name _ => ?_
      rcases readKind? .leftParen name.rest with _ | paren
      · dsimp only
        rcases readKind? .leftBracket name.rest with _ | bracket
        · exact .fail _
        · dsimp only
          have behind := bracket.isSuffix.trans (name.isSuffix.trans (word.isSuffix.trans inside))
          refine (readExpr_agrees behind known).bind fun size later _ known _ => ?_
          exact .lift fun close _ => .give known (by rintro ⟨⟩)
      · exact .lift fun close _ => .give known (by rintro ⟨⟩)
  · dsimp only
    refine (readUnary_agrees (sign.isSuffix.trans inside) known).bind
      fun operand later _ known _ => ?_
    exact .give known (by rintro ⟨⟩)
termination_by descent tokens 3
decreasing_by
  · simp [descent]
  · have := word.shorter; have := paren.shorter; have := type.shorter; have := comma.shorter
    simp [descent]; omega
  · have := word.shorter; have := name.shorter; have := bracket.shorter; simp [descent]; omega
  · have := sign.shorter; simp [descent]; omega

theorem readPrimary_agrees {tokens : List Token} (inside : tokens <:+ meaningful source)
    {marker : Option Span} (known : Known source marker) :
    Agrees source Operand.expr OfGroup marker (Bantam.readPrimary tokens) (readPrimary tokens) := by
  rw [Bantam.readPrimary, readPrimary]
  rcases found : readKind? .leftParen tokens with _ | paren
  · dsimp only
    rcases readToken? Expr.constant? tokens with _ | constant
    · dsimp only
      rcases readToken? Name.ofToken? tokens with _ | name
      · exact .fail _
      · dsimp only
        refine (readNamed_agrees none name inside known).bind fun expr later _ known _ => ?_
        exact (readSelections_agrees (expr.give (.plain expr.value)) inside known).imp
          fun _ _ selects => selects.ofPlain rfl
    · exact (readSelections_agrees (constant.give (.plain constant.value)) inside known).imp
        fun _ _ selects => selects.ofPlain rfl
  · dsimp only
    have behind := paren.isSuffix.trans inside
    refine (readExpr_agrees behind known).bind fun inner later _ known _ => ?_
    refine .lift fun close readClose => ?_
    have parentheses := isParentheses inside (inner.isSuffix.trans behind) found readClose
    -- Only the parser that remembers does something behind the selections.
    rw [← bind_pure (Bantam.readSelections _)]
    refine (readSelections_agrees ((paren.followedBy (inner.followedBy close)).give
      ⟨inner.value.withSpan (paren.value.merge close.value), true⟩) inside known).bind
      fun selected later _ known selects => ?_
    change Agrees source Operand.expr OfGroup later (pure selected)
      (if (readKind? .dot close.rest).isNone then
        set (some selected.value.expr.span) >>= fun _ => pure (selected.give selected.value.expr)
      else pure (selected.give selected.value.expr))
    rcases dotted : readKind? .dot close.rest with _ | dot
    · have isHead := selects.eq_head dotted
      refine .remember ?_
      rw [isHead]
      exact (Expr.span_withSpan _ _).symm ▸ parentheses
    · exact .give known (selects.ofDotted dotted)
termination_by descent tokens 2
decreasing_by
  · have := name.shorter; simp [descent]; omega
  · have := expr.shorter; simp [descent, Reading.give]; omega
  · have := constant.shorter; simp [descent, Reading.give]; omega
  · have := paren.shorter; simp [descent]; omega
  · have := paren.shorter; have := inner.shorter; have := close.shorter
    simp [descent, Reading.followedBy, Reading.give]; omega

theorem readSelections_agrees {tokens : List Token} (head : Reading Operand tokens)
    (inside : tokens <:+ meaningful source) {marker : Option Span} (known : Known source marker) :
    Agrees source Operand.expr (Selects head) marker (Bantam.readSelections head)
      (readSelections (head.give head.value.expr)) := by
  have behind := head.isSuffix.trans inside
  rw [Bantam.readSelections, readSelections]
  dsimp only [Reading.give]
  rcases found : readKind? .dot head.rest with _ | dot
  · exact .give known (by rw [Selects, found])
  · dsimp only
    refine .lift fun name _ => ?_
    refine (readNamed_agrees (some head.value.expr) (dot.followedBy name) behind known).bind
      fun expr later _ known _ => ?_
    refine (readSelections_agrees ((head.followedBy expr).give (.plain expr.value)) inside
      known).imp fun _ _ selects => ?_
    rw [Selects, found]
    exact selects.grouped_eq rfl
termination_by descent head.rest 1
decreasing_by
  · have := dot.shorter; have := name.shorter; simp [descent, Reading.followedBy]; omega
  · have := expr.shorter; simp [descent, Reading.followedBy, Reading.give]; omega

theorem readNamed_agrees (qualifier : Option Expr) {tokens : List Token}
    (name : Reading Name tokens) (inside : tokens <:+ meaningful source) {marker : Option Span}
    (known : Known source marker) :
    Agrees source id Whatever marker (Bantam.readNamed qualifier name)
      (readNamed qualifier name) := by
  have behind := name.isSuffix.trans inside
  rw [Bantam.readNamed, readNamed]
  rcases readKind? .leftParen name.rest with _ | paren
  · dsimp only
    rcases readKind? .leftBracket name.rest with _ | bracket
    · exact .give known trivial
    · dsimp only
      refine (readExpr_agrees (bracket.isSuffix.trans behind) known).bind
        fun index later _ known _ => ?_
      exact .lift fun close _ => .give known trivial
  · dsimp only
    refine (readArguments_agrees (paren.isSuffix.trans behind) known).bind
      fun arguments later _ known _ => ?_
    exact .give known trivial
termination_by descent name.rest 19
decreasing_by
  · have := bracket.shorter; simp [descent]; omega
  · have := paren.shorter; simp [descent]; omega

theorem readArguments_agrees {tokens : List Token} (inside : tokens <:+ meaningful source)
    {marker : Option Span} (known : Known source marker) :
    Agrees source id Whatever marker (Bantam.readArguments tokens) (readArguments tokens) := by
  rw [Bantam.readArguments, readArguments]
  rcases readKind? .rightParen tokens with _ | close
  · exact readMoreArguments_agrees inside known
  · exact .give known trivial
termination_by descent tokens 18
decreasing_by simp [descent]

theorem readMoreArguments_agrees {tokens : List Token} (inside : tokens <:+ meaningful source)
    {marker : Option Span} (known : Known source marker) :
    Agrees source id Whatever marker (Bantam.readMoreArguments tokens)
      (readMoreArguments tokens) := by
  rw [Bantam.readMoreArguments, readMoreArguments]
  refine (readExpr_agrees inside known).bind fun first later _ known _ => ?_
  have behind := first.isSuffix.trans inside
  dsimp only [Reading.give]
  rcases readKind? .comma first.rest with _ | comma
  · exact .lift fun close _ => .give known trivial
  · dsimp only
    refine (readMoreArguments_agrees (comma.isSuffix.trans behind) known).bind
      fun more later _ known _ => ?_
    exact .give known trivial
termination_by descent tokens 17
decreasing_by
  · simp [descent]
  · have := first.shorter; have := comma.shorter; simp [descent]; omega

end

end Parsers

end Remembered

end Bantam
