import Bantam.Proofs.Syntax.ExpressionSound
import Mathlib.Computability.Language
import Mathlib.Order.CompletePartialOrder

/-! Readings that fail in time. The tokens of a language that have been read go on to a text of the
language; so if reading stops for want of a token, what stands before that place is the beginning of
some text. A few tokens are enough to go on with from anywhere. -/
namespace Bantam
open Grammar

/-- A name, the word that opens a class, and signs. -/
def fillers : List Token :=
  [("a", .identifier), ("class", .identifier), ("(", .leftParen), (")", .rightParen),
    ("]", .rightBracket), ("\x7b", .leftBrace), ("\x7d", .rightBrace), (";", .semicolon),
    (",", .comma), ("=", .assign)].map fun (spelling, kind) => ⟨kind, spelling, .synthetic⟩

/-- The beginnings of texts of a language that fillers complete. -/
def viable (language : Language Token) : Language Token :=
  {front | ∃ more, (∀ token ∈ more, token ∈ fillers) ∧ front ++ more ∈ language}

/-- There is a text of fillers alone. -/
class Open (language : Language Token) : Prop where
  viable : [] ∈ viable language

/-- Where a token is missed, what stands before it is the beginning of a text. -/
def Completable {α : Type} (language : Language Token) (tokens : List Token)
    (outcome : Except Failure α) : Prop :=
  ∀ expectation rest, outcome = .error ⟨.expected expectation, rest⟩ →
    ∃ front ∈ viable language, front ++ rest = tokens

/-- What is read is a text, and what is not is one up to where it fails. -/
structure ReadsText {α : Type} (language : Language Token) {tokens : List Token}
    (outcome : Outcome α tokens) : Prop where
  text : ∀ reading, outcome = .ok reading → reading.taken ∈ language
  completable : Completable language tokens outcome

section Languages
variable {first second language : Language Token}

theorem viable_of_mem {text : List Token} (isText : text ∈ language) : text ∈ viable language :=
  ⟨[], by simp, by rwa [List.append_nil]⟩

theorem viable_mono {front : List Token} (within : first ≤ second)
    (isFront : front ∈ viable first) : front ∈ viable second := by
  obtain ⟨more, areFillers, isText⟩ := isFront
  exact ⟨more, areFillers, within isText⟩

/-- A beginning of the first of two texts goes on with the second. -/
theorem viable_mul [goesOn : Open second] {front : List Token} (isFront : front ∈ viable first) :
    front ∈ viable (first * second) := by
  obtain ⟨more, areFillers, isText⟩ := isFront
  obtain ⟨others, areOthers, isOther⟩ := goesOn.viable
  refine ⟨more ++ others, List.forall_mem_append.mpr ⟨areFillers, areOthers⟩, ?_⟩
  rw [← List.append_assoc]
  exact Language.append_mem_mul isText isOther

instance [opens : Open first] [Open second] : Open (first * second) :=
  ⟨viable_mul opens.viable⟩

end Languages

namespace Completable
variable {α β : Type} {language first second : Language Token}
  {tokens base before : List Token}

theorem ok (value : α) : Completable language tokens (.ok value) :=
  fun _ _ failed => nomatch failed

theorem invalidTarget (span : Span) (rest : List Token) :
    Completable language tokens (.error ⟨.invalidTarget span, rest⟩ : Except Failure α) :=
  fun _ _ failed => nomatch failed

theorem here (expectation : Expectation) (starts : [] ∈ viable language) :
    Completable language tokens (.error ⟨.expected expectation, tokens⟩ : Except Failure α) := by
  rintro _ _ ⟨⟩
  exact ⟨[], starts, rfl⟩

theorem mono {outcome : Except Failure α} (within : first ≤ second)
    (completable : Completable first tokens outcome) : Completable second tokens outcome := by
  intro expectation rest failed
  obtain ⟨front, isFront, split⟩ := completable expectation rest failed
  exact ⟨front, viable_mono within isFront, split⟩

/-- What is read behind other tokens is completed with them. -/
theorem after {outcome : Except Failure α} (split : before ++ base = tokens)
    (completable : Completable first base outcome)
    (into : ∀ text ∈ first, before ++ text ∈ viable language) :
    Completable language tokens outcome := by
  intro expectation rest failed
  obtain ⟨front, ⟨more, areFillers, isText⟩, rfl⟩ := completable expectation rest failed
  obtain ⟨others, areOthers, isWhole⟩ := into _ isText
  refine ⟨before ++ front, ⟨more ++ others, ?_, ?_⟩, by rw [List.append_assoc, split]⟩
  · exact List.forall_mem_append.mpr ⟨areFillers, areOthers⟩
  · simpa only [List.append_assoc] using isWhole

theorem bind {outcome : Except Failure α} {next : α → Except Failure β}
    (completable : Completable language tokens outcome)
    (later : ∀ value, outcome = .ok value → Completable language tokens (next value)) :
    Completable language tokens (outcome >>= next) := by
  cases outcome with
  | ok value => exact later value rfl
  | error failure =>
    rintro expectation rest ⟨⟩
    exact completable expectation rest rfl

theorem behind {outcome : Except Failure α} (split : before ++ base = tokens)
    (isText : before ∈ first) (completable : Completable second base outcome) :
    Completable (first * second) tokens outcome :=
  after split completable fun _ isOther => viable_of_mem (Language.append_mem_mul isText isOther)

/-- Where the first of two texts fails, the second can still follow. -/
theorem mul [Open second] {outcome : Except Failure α}
    (completable : Completable first base outcome) : Completable (first * second) base outcome :=
  after (List.nil_append base) completable fun _ isText => viable_mul (viable_of_mem isText)

theorem andThen [Open second] {outcome : Outcome α base}
    {next : Reading α base → Except Failure β} (reads : ReadsText first outcome)
    (later : ∀ reading, outcome = .ok reading → Completable second reading.rest (next reading)) :
    Completable (first * second) base (outcome >>= next) :=
  bind (mul reads.completable) fun reading read =>
    behind reading.taken_append_rest (reads.text reading read) (later reading read)

/-- The last reading decides. -/
theorem last {outcome : Except Failure α} {next : α → β}
    (completable : Completable language tokens outcome) :
    Completable language tokens (outcome >>= fun value => .ok (next value)) :=
  bind completable fun _ _ => ok _

end Completable

/-- Texts of one token. -/
def single (fits : Token → Prop) : Language Token := {text | ∃ token, fits token ∧ text = [token]}

def ofKind (kind : Kind) : Language Token := single (·.kind = kind)

def ofWord (word : String) : Language Token := single (·.isWord word)

def ofName : Language Token := single (·.isName)

def ofType : Language Token := {text | ∃ type, Grammar.TypeName text type}

theorem open_single {fits : Token → Prop} (filler : ∃ token ∈ fillers, fits token) :
    Open (single fits) := by
  obtain ⟨token, isFiller, isFit⟩ := filler
  exact ⟨[token], List.forall_mem_singleton.mpr isFiller, token, isFit, rfl⟩

instance : Open (ofKind .leftParen) := open_single (by decide)
instance : Open (ofKind .rightParen) := open_single (by decide)
instance : Open (ofKind .rightBracket) := open_single (by decide)
instance : Open (ofKind .leftBrace) := open_single (by decide)
instance : Open (ofKind .rightBrace) := open_single (by decide)
instance : Open (ofKind .semicolon) := open_single (by decide)
instance : Open (ofKind .comma) := open_single (by decide)
instance : Open (ofKind .assign) := open_single (by decide)
instance : Open (ofWord "class") := open_single (by decide)
instance : Open ofName := open_single (by decide)

theorem named_mem_ofType {name : Token} (isName : name.isName) : [name] ∈ ofType :=
  ⟨_, .named isName⟩

instance : Open ofType := by
  obtain ⟨more, areFillers, name, isName, rfl⟩ := (inferInstance : Open ofName).viable
  exact ⟨[name], areFillers, named_mem_ofType isName⟩

section Tokens
variable {α β : Type} {tokens : List Token} {language : Language Token}

theorem mem_single {fits : Token → Prop} {token : Token} (isFit : fits token) :
    [token] ∈ single fits := ⟨token, isFit, rfl⟩

theorem ReadsText.token {fits : Token → Prop} {choose : Token → Option α}
    {expectation : Expectation} (opens : Open (single fits))
    (chooses : ∀ token value, choose token = some value → fits token) :
    ReadsText (single fits) (readToken choose expectation tokens) := by
  refine ⟨fun reading read => ?_, ?_⟩
  · obtain ⟨token, taken, chosen⟩ := readToken_taken read
    exact ⟨token, chooses token _ chosen, taken⟩
  · rw [readToken]
    split
    · exact .ok _
    · exact .here _ opens.viable

theorem readKind_readsText (kind : Kind) [opens : Open (ofKind kind)] (tokens : List Token) :
    ReadsText (ofKind kind) (readKind kind tokens) :=
  .token opens fun _ _ => kind_of_spanOfKind

theorem readWord_readsText (word : String) [opens : Open (ofWord word)] (tokens : List Token) :
    ReadsText (ofWord word) (readWord word tokens) :=
  .token opens fun _ _ => isWord_of_spanOfWord

theorem readName_readsText (tokens : List Token) : ReadsText ofName (readName tokens) :=
  .token (inferInstanceAs (Open ofName)) fun _ _ chosen => (name_of_ofToken? chosen).1

/-- Once a token has been seen, the rest is read behind it. -/
theorem Completable.seen {fits : Token → Prop} {choose : Token → Option α}
    {sign : Reading α tokens} {outcome : Except Failure β}
    (chooses : ∀ token value, choose token = some value → fits token)
    (found : readToken? choose tokens = some sign)
    (completable : Completable language sign.rest outcome) :
    Completable (single fits * language) tokens outcome := by
  obtain ⟨token, taken, chosen⟩ := readToken?_taken found
  exact .behind sign.taken_append_rest (taken ▸ mem_single (chooses token _ chosen)) completable

theorem Completable.seenKind {kind : Kind} {sign : Reading Span tokens}
    {outcome : Except Failure β} (found : readKind? kind tokens = some sign)
    (completable : Completable language sign.rest outcome) :
    Completable (ofKind kind * language) tokens outcome :=
  .seen (fun _ _ => kind_of_spanOfKind) found completable

theorem Completable.seenWord {word : String} {sign : Reading Span tokens}
    {outcome : Except Failure β} (found : readWord? word tokens = some sign)
    (completable : Completable language sign.rest outcome) :
    Completable (ofWord word * language) tokens outcome :=
  .seen (fun _ _ => isWord_of_spanOfWord) found completable

theorem readType_readsText (tokens : List Token) : ReadsText ofType (readType tokens) := by
  refine ⟨fun reading read => ⟨_, readType_sound read⟩, ?_⟩
  have array : ofName * (ofKind .leftBracket * ofKind .rightBracket) ≤ ofType := by
    rintro _ ⟨_, ⟨name, isName, rfl⟩, _, ⟨_, ⟨opening, opens, rfl⟩, _, ⟨closing, closes, rfl⟩, rfl⟩,
      rfl⟩
    exact ⟨_, .array isName opens closes⟩
  have named : ofName ≤ ofType := by
    rintro _ ⟨name, isName, rfl⟩
    exact named_mem_ofType isName
  rw [readType]
  have name := readName_readsText tokens
  refine .bind (.mono named name.completable) fun reading read => ?_
  dsimp only
  split
  · exact .ok _
  · next bracket found =>
    refine .mono array (.behind reading.taken_append_rest (name.text _ read) (.seenKind found ?_))
    exact .last (readKind_readsText _ _).completable

end Tokens

end Bantam
