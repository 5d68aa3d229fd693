import Bantam.Proofs.Syntax.Marks
import Bantam.Proofs.Syntax.Taken
import Bantam.Parsing.Parser

/-! Tokens in another place. What is read from tokens does not depend on where they stand, and what
stands behind them matters only where a reading comes to their end. So a reading is carried over to
the same tokens in another place, with others behind. -/
namespace Bantam

/-- A change of place: what becomes of spans, and the tokens that come to stand behind. -/
structure Relocation where
  move : Span → Span
  merge : ∀ left right, move (left.merge right) = (move left).merge (move right)
  behind : List Token

namespace Relocation

section Images
variable (relocation : Relocation)

def marking : Marking where
  span := relocation.move
  info := fun info => { info with span := relocation.move info.span }

def token (token : Token) : Token := { token with span := relocation.move token.span }

def tokens (tokens : List Token) : List Token := tokens.map relocation.token ++ relocation.behind

def name (name : Name) : Name := { name with span := relocation.move name.span }

def typeName (name : TypeName) : TypeName := { name with span := relocation.move name.span }

def operand (operand : Operand) : Operand :=
  { operand with expr := operand.expr.mark relocation.marking }

def obstacle : Obstacle → Obstacle
  | .expected expectation => .expected expectation
  | .invalidTarget span => .invalidTarget (relocation.move span)

def failure (failure : Failure) : Failure :=
  ⟨relocation.obstacle failure.obstacle, relocation.tokens failure.rest⟩

def reading {α β : Type} {tokens : List Token} (image : α → β) (reading : Reading α tokens) :
    Reading β (relocation.tokens tokens) where
  value := image reading.value
  rest := relocation.tokens reading.rest
  isSuffix := by
    obtain ⟨front, split⟩ := reading.isSuffix
    refine ⟨front.map relocation.token, ?_⟩
    rw [Relocation.tokens, Relocation.tokens, ← List.append_assoc, ← List.map_append, split]
  shorter := by simpa [Relocation.tokens] using reading.shorter

def outcome {α β : Type} {tokens : List Token} (image : α → β) :
    Outcome α tokens → Outcome β (relocation.tokens tokens)
  | .ok reading => .ok (relocation.reading image reading)
  | .error failure => .error (relocation.failure failure)

@[simp] theorem rest_reading {α β : Type} {tokens : List Token} (image : α → β)
    (reading : Reading α tokens) :
    (relocation.reading image reading).rest = relocation.tokens reading.rest := rfl

@[simp] theorem value_reading {α β : Type} {tokens : List Token} (image : α → β)
    (reading : Reading α tokens) :
    (relocation.reading image reading).value = image reading.value := rfl

end Images

section Spans
variable {relocation : Relocation}

@[simp] theorem move_marking (span : Span) : relocation.marking.span span = relocation.move span :=
  rfl

@[simp] theorem info_marking (span : Span) (type : Option Ty) :
    relocation.marking.info ⟨span, type⟩ = ⟨relocation.move span, type⟩ := rfl

@[simp] theorem span_info_marking (info : Info) :
    (relocation.marking.info info).span = relocation.move info.span := rfl

@[simp] theorem span_mark (expr : Expr) :
    (expr.mark relocation.marking).span = relocation.move expr.span := by
  rw [Expr.span, Expr.span, Expr.info_mark]
  rfl

@[simp] theorem withSpan_mark (span : Span) (expr : Expr) :
    (expr.mark relocation.marking).withSpan (relocation.move span) =
      (expr.withSpan span).mark relocation.marking := by
  rw [Expr.withSpan, Expr.withSpan, ← Expr.withInfo_mark, Expr.info_mark]
  rfl

end Spans

variable {relocation : Relocation} {α β γ δ : Type} {base others tokens : List Token}
  {ended middle closed : Prop}

/-- What stands behind these tokens is not the first thing to come. -/
def Hides (relocation : Relocation) (tokens : List Token) : Prop :=
  tokens ≠ [] ∨ relocation.behind = []

/-- The outcome has not come to the end of its tokens, or is of a kind that is closed there. -/
def Settles (relocation : Relocation) (closed : Prop) {tokens : List Token} :
    Outcome α tokens → Prop
  | .ok reading => closed ∨ relocation.Hides reading.rest
  | .error _ => relocation.behind = []

/-- An outcome that is settled is the same in another place; and if what comes before these last
tokens has not ended by itself, they hide what stands behind. -/
def Carries (relocation : Relocation) (ended : Prop) (base : List Token) (closed : Prop)
    {tokens : List Token} (image : α → β) (outcome : Outcome α tokens)
    (moved : Outcome β (relocation.tokens tokens)) : Prop :=
  relocation.Settles closed outcome →
    (ended ∨ relocation.Hides base) ∧ moved = relocation.outcome image outcome

theorem reading_ext {image : α → β} {reading : Reading α tokens}
    {moved : Reading β (relocation.tokens tokens)}
    (rest : moved.rest = relocation.tokens reading.rest)
    (value : moved.value = image reading.value) : moved = relocation.reading image reading := by
  cases moved
  cases rest
  cases value
  rfl

namespace Carries

theorem bind {image : α → β} {imageNext : γ → δ} {first : Outcome α tokens}
    {first' : Outcome β (relocation.tokens tokens)} {next : Reading α tokens → Outcome γ others}
    {next' : Reading β (relocation.tokens tokens) → Outcome δ (relocation.tokens others)}
    (carries : relocation.Carries ended base middle image first first')
    (later : ∀ reading, relocation.Carries middle reading.rest closed imageNext (next reading)
      (next' (relocation.reading image reading))) :
    relocation.Carries ended base closed imageNext (first >>= next) (first' >>= next') := by
  intro settled
  cases first with
  | error failure =>
    obtain ⟨needed, rfl⟩ := carries settled
    exact ⟨needed, rfl⟩
  | ok reading =>
    obtain ⟨kept, same⟩ := later reading settled
    obtain ⟨needed, rfl⟩ := carries kept
    exact ⟨needed, same⟩

theorem give {image : α → β} {reading : Reading α tokens}
    {moved : Reading β (relocation.tokens tokens)} (ends : closed → ended)
    (rest : moved.rest = relocation.tokens reading.rest)
    (value : moved.value = image reading.value) :
    relocation.Carries ended reading.rest closed image (.ok reading) (.ok moved) :=
  fun settled => ⟨settled.imp_left ends, congrArg Except.ok (reading_ext rest value)⟩

theorem along {image : α → β} {outcome : Outcome α tokens}
    {moved other : Outcome β (relocation.tokens tokens)} (same : moved = other)
    (carries : relocation.Carries ended base closed image outcome other) :
    relocation.Carries ended base closed image outcome moved := same ▸ carries

theorem fail {image : α → β} {failure : Failure} {moved : Failure}
    (same : moved = relocation.failure failure) :
    relocation.Carries ended base closed image (.error failure : Outcome α tokens)
      (.error moved) :=
  fun alone => ⟨.inr (.inr alone), congrArg Except.error same⟩

theorem settled {image : α → β} {outcome : Outcome α tokens}
    {moved other : Outcome β (relocation.tokens tokens)}
    (same : relocation.Settles closed outcome → moved = other)
    (carries : relocation.Carries ended base closed image outcome other) :
    relocation.Carries ended base closed image outcome moved := by
  intro settled
  rw [same settled]
  exact carries settled

/-- Once a token has been seen, only what comes behind it matters. -/
theorem seen {choose : Token → Option γ} {sign : Reading γ base} {image : α → β}
    {outcome : Outcome α tokens} {moved : Outcome β (relocation.tokens tokens)}
    (found : readToken? choose base = some sign)
    (carries : relocation.Carries True sign.rest closed image outcome moved) :
    relocation.Carries ended base closed image outcome moved := by
  intro settled
  refine ⟨.inr (.inl ?_), (carries settled).2⟩
  rintro rfl
  contradiction

/-- Where no token has been seen, what stands behind might have been, were it not hidden. -/
theorem unseen {image : α → β} {outcome : Outcome α tokens}
    {moved visible : Outcome β (relocation.tokens tokens)}
    (same : relocation.Hides base → moved = visible)
    (carries : relocation.Carries False base closed image outcome visible) :
    relocation.Carries ended base closed image outcome moved := by
  intro settled
  obtain ⟨impossible | hides, rfl⟩ := carries settled
  · contradiction
  · exact ⟨.inr hides, same hides⟩

end Carries

section Tokens
variable (relocation) {choose : Token → Option α} {choose' : Token → Option β} {image : α → β}
  (chooses : ∀ token, choose' (relocation.token token) = (choose token).map image)
include chooses

theorem token?_cases (tokens : List Token) :
    (∃ reading, readToken? choose tokens = some reading ∧
      readToken? choose' (relocation.tokens tokens) = some (relocation.reading image reading)) ∨
    (readToken? choose tokens = none ∧
      (relocation.Hides tokens → readToken? choose' (relocation.tokens tokens) = none)) := by
  cases tokens with
  | nil =>
    refine .inr ⟨rfl, fun hides => ?_⟩
    rcases hides with some | alone
    · contradiction
    · rw [Relocation.tokens, alone]
      rfl
  | cons token rest =>
    have moved : relocation.tokens (token :: rest) =
      relocation.token token :: relocation.tokens rest := rfl
    rw [readToken?]
    cases chosen : choose token with
    | none =>
      refine .inr ⟨rfl, fun _ => ?_⟩
      rw [moved, readToken?, chooses, chosen]
      rfl
    | some value =>
      refine .inl ⟨_, rfl, ?_⟩
      show (choose' (relocation.token token)).map _ = _
      rw [chooses, chosen]
      rfl

theorem readToken_carries (expectation : Expectation) (tokens : List Token) :
    relocation.Carries ended tokens True image (readToken choose expectation tokens)
      (readToken choose' expectation (relocation.tokens tokens)) := by
  unfold readToken
  rcases relocation.token?_cases chooses tokens with ⟨reading, found, found'⟩ | ⟨found, unseen⟩
  · rw [found, found']
    exact .seen found (.give (fun _ => trivial) rfl rfl)
  · rw [found]
    exact .unseen (fun hides => by rw [unseen hides]; rfl) (.fail rfl)

end Tokens

theorem spanOfKind_token (kind : Kind) (token : Token) :
    spanOfKind kind (relocation.token token) = (spanOfKind kind token).map relocation.move := by
  rw [spanOfKind, spanOfKind, apply_ite (Option.map relocation.move)]
  rfl

theorem spanOfWord_token (word : String) (token : Token) :
    spanOfWord word (relocation.token token) = (spanOfWord word token).map relocation.move := by
  rw [spanOfWord, spanOfWord, apply_ite (Option.map relocation.move)]
  rfl

theorem ofToken?_token (token : Token) :
    Name.ofToken? (relocation.token token) = (Name.ofToken? token).map relocation.name := by
  rw [Name.ofToken?, Name.ofToken?, apply_ite (Option.map relocation.name)]
  rfl

section Choices
variable (relocation)

theorem kind?_cases (kind : Kind) (tokens : List Token) :
    (∃ reading, readKind? kind tokens = some reading ∧
      readKind? kind (relocation.tokens tokens) =
        some (relocation.reading relocation.move reading)) ∨
    (readKind? kind tokens = none ∧
      (relocation.Hides tokens → readKind? kind (relocation.tokens tokens) = none)) :=
  relocation.token?_cases (spanOfKind_token kind) tokens

theorem word?_cases (word : String) (tokens : List Token) :
    (∃ reading, readWord? word tokens = some reading ∧
      readWord? word (relocation.tokens tokens) =
        some (relocation.reading relocation.move reading)) ∨
    (readWord? word tokens = none ∧
      (relocation.Hides tokens → readWord? word (relocation.tokens tokens) = none)) :=
  relocation.token?_cases (spanOfWord_token word) tokens

end Choices

section Readers
variable (tokens)

theorem readKind_carries (kind : Kind) :
    relocation.Carries ended tokens True relocation.move (readKind kind tokens)
      (readKind kind (relocation.tokens tokens)) :=
  relocation.readToken_carries (spanOfKind_token kind) _ tokens

theorem readWord_carries (word : String) :
    relocation.Carries ended tokens True relocation.move (readWord word tokens)
      (readWord word (relocation.tokens tokens)) :=
  relocation.readToken_carries (spanOfWord_token word) _ tokens

theorem readName_carries :
    relocation.Carries ended tokens True relocation.name (readName tokens)
      (readName (relocation.tokens tokens)) :=
  relocation.readToken_carries ofToken?_token _ tokens

theorem readType_carries :
    relocation.Carries ended tokens False relocation.typeName (readType tokens)
      (readType (relocation.tokens tokens)) := by
  rw [readType, readType]
  refine .bind (readName_carries tokens) fun name => ?_
  rcases relocation.kind?_cases .leftBracket name.rest with ⟨bracket, found, found'⟩ | ⟨found, unseen⟩
  · simp only [rest_reading, found, found']
    refine .seen found (.bind (readKind_carries bracket.rest .rightBracket) fun close => ?_)
    exact .give (fun _ => trivial) rfl rfl
  · rw [found]
    refine .unseen (fun hides => by simp only [rest_reading, unseen hides]; rfl) ?_
    exact .give (fun impossible => impossible) rfl rfl

end Readers

end Relocation

end Bantam
