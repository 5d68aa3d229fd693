import Bantam.TokenStream
import Bantam.Proofs.Syntax.Continuation

/-! Looking ahead. A stream can be asked for the next token, for a later one, which stays in the
stream, or for the next item. Whatever it is asked, and in whatever order, it hands out the tokens
of its text one after the other: what has been looked at is neither lost nor repeated, and is
reported once. So the items of a stream are the scan of its text, as a session asks for it. -/
namespace Bantam

-- The tokens of a text go on for ever, with copies of the last behind them.
def Cursor.tokenAt (cursor : Cursor) (index : Nat) : Token :=
  cursor.tokens[index]?.getD cursor.endOfInput

namespace Cursor
variable {cursor behind : Cursor} {token : Token}

theorem tokenAt_of_none (done : cursor.next? = none) (index : Nat) :
    cursor.tokenAt index = cursor.endOfInput := by
  rw [tokenAt, tokens_of_none done]
  cases index <;> rfl

theorem tokenAt_zero (read : cursor.next? = some (token, behind)) : cursor.tokenAt 0 = token := by
  rw [tokenAt, tokens_of_some read]
  rfl

theorem tokenAt_succ (read : cursor.next? = some (token, behind)) (index : Nat) :
    cursor.tokenAt (index + 1) = behind.tokenAt index := by
  obtain ⟨blanks, text, step⟩ := step_of_next? read
  rw [tokenAt, tokenAt, tokens_of_some read, endOfInput, endOfInput, finish_of_step step]
  rfl

end Cursor

section Sequence
variable (source : String)

def tokenAt (index : Nat) : Token := (Cursor.ofText source).tokenAt index

theorem tokensAt_eq (count : Nat) : (List.range count).map (tokenAt source) =
    (scan source ++ List.replicate count (Cursor.ofText source).endOfInput).take count := by
  apply List.ext_getElem
  · simp
  · intro index inside bounded
    simp only [List.length_map, List.length_range] at inside
    simp only [List.getElem_map, List.getElem_range, List.getElem_take, tokenAt, Cursor.tokenAt]
    by_cases scanned : index < (scan source).length
    · rw [List.getElem_append_left scanned]
      exact congrArg (Option.getD · _) (List.getElem?_eq_getElem scanned)
    · rw [List.getElem_append_right (by omega), List.getElem_replicate]
      exact congrArg (Option.getD · _) (List.getElem?_eq_none (Nat.le_of_not_lt scanned))

theorem lexicalDiagnostics_tokensAt (file : String) (count : Nat) :
    lexicalDiagnostics file ((List.range count).map (tokenAt source)) =
      lexicalDiagnostics file ((scan source).take count) := by
  rw [tokensAt_eq, List.take_append, lexicalDiagnostics_append]
  conv_rhs => rw [← List.append_nil (lexicalDiagnostics file _)]
  congr 1
  rw [lexicalDiagnostics_eq_nil]
  intro token member
  rw [List.eq_of_mem_replicate (List.mem_of_mem_take member)]
  simp [Cursor.endOfInput]

end Sequence

inductive Request where
  | next
  | peek (offset : Nat)
  | item
  deriving DecidableEq, Repr

structure Exchange where
  request : Request
  answer : Option Token
  deriving DecidableEq, Repr

namespace Exchange

def taken (exchange : Exchange) : List Token :=
  match exchange.request with
  | .peek _ => []
  | .next | .item => exchange.answer.toList

def reach (before : Nat) (exchange : Exchange) : Nat :=
  match exchange.request with
  | .peek offset => before + offset + 1
  | .next | .item => before + exchange.taken.length

def endsItems (exchange : Exchange) : Bool :=
  exchange.request == .item && exchange.answer.any (·.kind == .endOfInput)

/-- The number of tokens up to the furthest that has been taken or looked at, if there were some
before. -/
def furthest (before : Nat) : List Exchange → Nat
  | [] => before
  | exchange :: rest =>
    max (exchange.reach before) (furthest (before + exchange.taken.length) rest)

end Exchange

namespace TokenStream

def answer (stream : TokenStream) : Request → Exchange × TokenStream
  | .next =>
    let (token, served) := stream.next
    (⟨.next, some token⟩, served)
  | .peek offset =>
    let (token, served) := stream.peek offset
    (⟨.peek offset, some token⟩, served)
  | .item =>
    let (token?, served) := stream.nextItem?
    (⟨.item, token?⟩, served)

def answers (stream : TokenStream) : List Request → List Exchange × TokenStream
  | [] => ([], stream)
  | request :: rest =>
    let (exchange, served) := stream.answer request
    let (exchanges, ended) := served.answers rest
    (exchange :: exchanges, ended)

def following (stream : TokenStream) (offset : Nat) : Token :=
  (stream.answers (List.replicate offset .next)).2.next.1

/-- So many tokens of the source text have been read, and the invalid ones reported. -/
structure HasRead (file source : String) (count : Nat) (stream : TokenStream) : Prop where
  sameFile : stream.file = file
  ahead (index : Nat) : stream.cursor.tokenAt index = tokenAt source (count + index)
  reported : stream.reported =
    lexicalDiagnostics file ((List.range count).map (tokenAt source))

/-- So many tokens of the source text have been taken, and the next ones wait in the buffer. -/
structure Stands (file source : String) (taken waiting : Nat) (stream : TokenStream) : Prop where
  hasRead : stream.HasRead file source (taken + waiting)
  buffer : stream.buffer = (List.range' taken waiting).map (tokenAt source)

section Steps
variable {file source : String} {count taken waiting : Nat} {stream : TokenStream}

theorem stands_ofText (file source : String) : (ofText file source).Stands file source 0 0 where
  hasRead := {
    sameFile := rfl
    ahead := fun index => by rw [Nat.zero_add]; rfl
    reported := rfl }
  buffer := rfl

theorem buffer_fetch (stream : TokenStream) : stream.fetch.2.buffer = stream.buffer := by
  unfold fetch
  split <;> rfl

theorem exhausted_fetch (stream : TokenStream) : stream.fetch.2.exhausted = stream.exhausted := by
  unfold fetch
  split <;> rfl

theorem HasRead.fetch (hasRead : stream.HasRead file source count) :
    stream.fetch.1 = tokenAt source count ∧
      stream.fetch.2.HasRead file source (count + 1) := by
  have reported (token : Token) (isNext : token = tokenAt source count) :
      stream.reported ++ lexicalDiagnostics file [token] =
        lexicalDiagnostics file ((List.range (count + 1)).map (tokenAt source)) := by
    rw [hasRead.reported, isNext, List.range_succ, List.map_append, lexicalDiagnostics_append]
    rfl
  unfold TokenStream.fetch
  split
  · next done =>
    -- The end of input has been reached: it comes again, and there is nothing to report.
    have isLast : stream.cursor.endOfInput = tokenAt source count :=
      (Cursor.tokenAt_of_none done 0).symm.trans (hasRead.ahead 0)
    refine ⟨isLast, hasRead.sameFile, fun index => ?_, ?_⟩
    · rw [Nat.add_right_comm, Nat.add_assoc, ← hasRead.ahead, Cursor.tokenAt_of_none done,
        Cursor.tokenAt_of_none done]
    · rw [← reported _ isLast, lexicalDiagnostics_eq_nil.mpr, List.append_nil]
      simp [Cursor.endOfInput]
  · next token behind read =>
    have isNext : token = tokenAt source count :=
      (Cursor.tokenAt_zero read).symm.trans (hasRead.ahead 0)
    refine ⟨isNext, hasRead.sameFile, fun index => ?_, ?_⟩
    · rw [Nat.add_right_comm, Nat.add_assoc, ← hasRead.ahead, Cursor.tokenAt_succ read]
    · rw [← reported _ isNext, hasRead.sameFile]

theorem Stands.next (stands : stream.Stands file source taken waiting) :
    stream.next.1 = tokenAt source taken ∧
      stream.next.2.Stands file source (taken + 1) (waiting - 1) := by
  have buffer := stands.buffer
  unfold TokenStream.next
  cases waiting with
  | zero =>
    rw [List.range'_zero, List.map_nil] at buffer
    obtain ⟨isNext, hasRead⟩ := stands.hasRead.fetch
    rw [buffer]
    exact ⟨isNext, hasRead, by rw [buffer_fetch, buffer]; rfl⟩
  | succ waiting =>
    rw [List.range'_succ, List.map_cons] at buffer
    have total : taken + (waiting + 1) = taken + 1 + waiting := by omega
    have hasRead := stands.hasRead
    rw [total] at hasRead
    rw [buffer]
    exact ⟨rfl, ⟨hasRead.sameFile, hasRead.ahead, hasRead.reported⟩, rfl⟩

theorem exhausted_next (stream : TokenStream) : stream.next.2.exhausted = stream.exhausted := by
  unfold next
  split
  · rfl
  · exact exhausted_fetch stream

theorem fill_succ (stream : TokenStream) (missing : Nat) : stream.fill (missing + 1) =
    ({ stream.fetch.2 with buffer := stream.fetch.2.buffer ++ [stream.fetch.1] } :
      TokenStream).fill missing := rfl

theorem Stands.fill (stands : stream.Stands file source taken waiting) (missing : Nat) :
    (stream.fill missing).Stands file source taken (waiting + missing) := by
  induction missing generalizing stream waiting with
  | zero => exact stands
  | succ missing ih =>
    obtain ⟨isNext, hasRead⟩ := stands.hasRead.fetch
    rw [fill_succ, ← Nat.add_assoc, Nat.add_right_comm]
    refine ih ⟨⟨hasRead.sameFile, hasRead.ahead, hasRead.reported⟩, ?_⟩
    dsimp only
    rw [buffer_fetch, stands.buffer, isNext, List.range'_concat, List.map_append, Nat.one_mul]
    rfl

theorem exhausted_fill (stream : TokenStream) (missing : Nat) :
    (stream.fill missing).exhausted = stream.exhausted := by
  induction missing generalizing stream with
  | zero => rfl
  | succ missing ih => rw [fill_succ, ih]; exact exhausted_fetch stream

theorem Stands.peek (stands : stream.Stands file source taken waiting) (offset : Nat) :
    (stream.peek offset).1 = tokenAt source (taken + offset) ∧
      (stream.peek offset).2.Stands file source taken (max waiting (offset + 1)) := by
  have length : stream.buffer.length = waiting := by
    rw [stands.buffer, List.length_map, List.length_range']
  have filled := stands.fill (offset + 1 - stream.buffer.length)
  have total : waiting + (offset + 1 - stream.buffer.length) = max waiting (offset + 1) := by
    omega
  rw [total] at filled
  refine ⟨?_, filled⟩
  have inside : offset < max waiting (offset + 1) := by omega
  show Option.getD ((stream.fill _).buffer[offset]?) _ = _
  rw [filled.buffer, List.getElem?_map, List.getElem?_range' inside, Nat.one_mul]
  rfl

theorem exhausted_peek (stream : TokenStream) (offset : Nat) :
    (stream.peek offset).2.exhausted = stream.exhausted :=
  exhausted_fill stream _

end Steps

section Runs
variable {file source : String} {taken waiting : Nat} {stream : TokenStream}

theorem answer_item_exhausted (exhausted : stream.exhausted = true) :
    stream.answer .item = (⟨.item, none⟩, stream) := by
  rw [answer, nextItem?, if_pos exhausted]

theorem answer_item (goesOn : stream.exhausted = false) :
    stream.answer .item = (⟨.item, some stream.next.1⟩,
      { stream.next.2 with exhausted := stream.next.1.kind == .endOfInput }) := by
  rw [answer, nextItem?, if_neg (by simp [goesOn])]

/-- A call takes at most the token that comes next, and reads as far as it reaches. -/
theorem Stands.answer (stands : stream.Stands file source taken waiting) (request : Request) :
    let (exchange, served) := stream.answer request
    exchange.taken = (List.range' taken exchange.taken.length).map (tokenAt source) ∧
      ∃ left, taken + exchange.taken.length + left =
          max (taken + waiting) (exchange.reach taken) ∧
        served.Stands file source (taken + exchange.taken.length) left := by
  cases request with
  | next =>
    obtain ⟨isNext, after⟩ := stands.next
    refine ⟨congrArg (fun token => [token]) isNext, waiting - 1, ?_, after⟩
    show taken + 1 + (waiting - 1) = max (taken + waiting) (taken + 1)
    omega
  | peek offset =>
    obtain ⟨-, after⟩ := stands.peek offset
    refine ⟨rfl, max waiting (offset + 1), ?_, after⟩
    show taken + max waiting (offset + 1) = max (taken + waiting) (taken + offset + 1)
    omega
  | item =>
    cases goesOn : stream.exhausted with
    | true =>
      rw [answer_item_exhausted goesOn]
      exact ⟨rfl, waiting, (Nat.max_eq_left (Nat.le_add_right ..)).symm, stands⟩
    | false =>
      rw [answer_item goesOn]
      obtain ⟨isNext, hasRead, buffer⟩ := stands.next
      refine ⟨congrArg (fun token => [token]) isNext, waiting - 1, ?_,
        ⟨hasRead.sameFile, hasRead.ahead, hasRead.reported⟩, buffer⟩
      show taken + 1 + (waiting - 1) = max (taken + waiting) (taken + 1)
      omega

theorem exhausted_answer (stream : TokenStream) (request : Request) :
    (stream.answer request).2.exhausted =
      (stream.exhausted || (stream.answer request).1.endsItems) := by
  cases request with
  | next => exact (exhausted_next stream).trans (Bool.or_false _).symm
  | peek offset => exact (exhausted_peek stream offset).trans (Bool.or_false _).symm
  | item =>
    cases goesOn : stream.exhausted with
    | true =>
      rw [answer_item_exhausted goesOn]
      exact goesOn
    | false =>
      rw [answer_item goesOn]
      rfl

theorem Stands.answers (stands : stream.Stands file source taken waiting)
    (requests : List Request) :
    let (exchanges, ended) := stream.answers requests
    let tokens := exchanges.flatMap Exchange.taken
    tokens = (List.range' taken tokens.length).map (tokenAt source) ∧
      ∃ left, taken + tokens.length + left =
          max (taken + waiting) (Exchange.furthest taken exchanges) ∧
        ended.Stands file source (taken + tokens.length) left := by
  induction requests generalizing stream taken waiting with
  | nil =>
    exact ⟨rfl, waiting, (Nat.max_eq_left (Nat.le_add_right ..)).symm, stands⟩
  | cons request rest ih =>
    have step := stands.answer request
    have exchanges_cons : stream.answers (request :: rest) =
        ((stream.answer request).1 :: ((stream.answer request).2.answers rest).1,
          ((stream.answer request).2.answers rest).2) := rfl
    rw [exchanges_cons]
    generalize stream.answer request = answered at step ⊢
    obtain ⟨exchange, served⟩ := answered
    obtain ⟨isTaken, left, reached, after⟩ := step
    have run := ih after
    generalize served.answers rest = ran at run ⊢
    obtain ⟨exchanges, ended⟩ := ran
    obtain ⟨areTaken, last, furthest, stands⟩ := run
    simp only [List.flatMap_cons, List.length_append, ← Nat.add_assoc]
    refine ⟨?_, last, ?_, stands⟩
    · conv_lhs => rw [isTaken, areTaken]
      rw [← List.map_append, ← List.range'_append, Nat.one_mul]
    · rw [furthest, reached]
      exact Nat.max_assoc ..

theorem exhausted_answers (stream : TokenStream) (requests : List Request) :
    (stream.answers requests).2.exhausted =
      (stream.exhausted || (stream.answers requests).1.any Exchange.endsItems) := by
  induction requests generalizing stream with
  | nil => exact (Bool.or_false _).symm
  | cons request rest ih =>
    show ((stream.answer request).2.answers rest).2.exhausted = _
    rw [ih, exhausted_answer, Bool.or_assoc]
    rfl

theorem nextItem?_eq_none : stream.nextItem?.1 = none ↔ stream.exhausted = true := by
  unfold nextItem?
  split <;> simp_all

theorem Stands.following (stands : stream.Stands file source taken waiting) (offset : Nat) :
    stream.following offset = tokenAt source (taken + offset) := by
  induction offset generalizing stream taken waiting with
  | zero => exact stands.next.1
  | succ offset ih =>
    show stream.next.2.following offset = _
    rw [ih stands.next.2, Nat.add_right_comm, Nat.add_assoc]

/-- Whatever a stream is asked, the tokens that are taken from it are those of the source text, and
then copies of the last; a token that is looked at is the one that comes after so many others; items
come until the end of input has been one of them; and what is reported are the invalid tokens up to
the furthest that has been asked for. -/
theorem answers_in_order (file source : String) (requests : List Request) :
    let exchanges := ((ofText file source).answers requests).1
    let stream := ((ofText file source).answers requests).2
    (∃ copies, exchanges.flatMap Exchange.taken <+:
      scan source ++ List.replicate copies (Cursor.ofText source).endOfInput) ∧
    (∀ offset, (stream.peek offset).1 = stream.following offset ∧
      (stream.peek offset).1 = (stream.peek offset).2.following offset) ∧
    (stream.nextItem?.1 = none ↔
      ∃ token, ⟨.item, some token⟩ ∈ exchanges ∧ token.kind = .endOfInput) ∧
    stream.reported =
      lexicalDiagnostics file ((scan source).take (Exchange.furthest 0 exchanges)) := by
  intro exchanges stream
  obtain ⟨areTaken, left, reached, stands⟩ :=
    (stands_ofText file source).answers requests
  change exchanges.flatMap Exchange.taken = _ at areTaken
  generalize length : (exchanges.flatMap Exchange.taken).length = taken at areTaken reached stands
  rw [Nat.zero_add] at stands
  refine ⟨⟨taken, ?_⟩, fun offset => ?_, ?_, ?_⟩
  · rw [areTaken, ← List.range_eq_range', tokensAt_eq]
    exact List.take_prefix ..
  · obtain ⟨isPeeked, after⟩ := stands.peek offset
    rw [stands.following, after.following]
    exact ⟨isPeeked, isPeeked⟩
  · rw [nextItem?_eq_none, exhausted_answers, Bool.or_eq_true_iff, List.any_eq_true]
    constructor
    · rintro (fresh | ⟨⟨request, answer⟩, member, ends⟩)
      · cases fresh
      · simp only [Exchange.endsItems, Bool.and_eq_true, beq_iff_eq, Option.any_eq_true] at ends
        obtain ⟨rfl, token, rfl, isLast⟩ := ends
        exact ⟨token, member, isLast⟩
    · rintro ⟨token, member, isLast⟩
      exact .inr ⟨_, member, by simp [Exchange.endsItems, isLast]⟩
  · rw [Nat.zero_add, Nat.add_zero, Nat.zero_max] at reached
    rw [stands.hasRead.reported, reached, lexicalDiagnostics_tokensAt]

-- The invalid token is looked at twice and taken once, and reported once.
example : (((ofText "a.btm" "x # y").answers [.peek 2, .next, .peek 0, .next, .item]).2.reported.map
    (·.message)) = ["unsupported character '#'"] := by decide +kernel

end Runs

section Items
variable {file source : String} {taken waiting : Nat} {stream : TokenStream} {token : Token}
  {rest : List Token}

theorem tokenAt_of_drop (left : (scan source).drop taken = token :: rest) :
    tokenAt source taken = token := by
  have first : (scan source)[taken]? = some token := by
    have behind : ((scan source).drop taken)[0]? = (scan source)[taken]? := List.getElem?_drop
    rw [← behind, left]
    rfl
  exact congrArg (Option.getD · _) first

theorem kind_of_drop (left : (scan source).drop taken = token :: rest) :
    token.kind = .endOfInput ↔ rest = [] := by
  obtain ⟨read, split, inside⟩ := (Cursor.ofText source).exists_tokens
  have whole : (scan source).take taken ++ token :: rest =
      read ++ [(Cursor.ofText source).endOfInput] := by
    rw [← left, List.take_append_drop]
    exact split
  rcases rest.eq_nil_or_concat' with rfl | ⟨others, last, rfl⟩
  · obtain ⟨-, same⟩ := List.append_inj' whole rfl
    rw [(List.cons.inj same).1]
    exact iff_of_true rfl rfl
  · rw [← List.cons_append, ← List.append_assoc] at whole
    obtain ⟨front, -⟩ := List.append_inj' whole rfl
    have member : token ∈ read := by
      rw [← front]
      exact List.mem_append_right _ List.mem_cons_self
    exact iff_of_false (inside token member) (by simp)

theorem items_go_exhausted (steps : Nat) (exhausted : stream.exhausted = true) :
    items.go steps stream = ([], stream) := by
  cases steps with
  | zero => rfl
  | succ steps => rw [items.go, nextItem?, if_pos exhausted]

theorem items_go_succ {steps : Nat} {later : TokenStream}
    (item : stream.nextItem? = (some token, later)) :
    items.go (steps + 1) stream =
      (token :: (items.go steps later).1, (items.go steps later).2) := by
  rw [items.go, item]

theorem Stands.item (stands : stream.Stands file source taken waiting)
    (goesOn : stream.exhausted = false) (left : (scan source).drop taken = token :: rest) :
    ∃ later, stream.nextItem? = (some token, later) ∧
      (later.exhausted = true ↔ rest = []) ∧
      later.Stands file source (taken + 1) (waiting - 1) := by
  obtain ⟨isNext, hasRead, buffer⟩ := stands.next
  rw [tokenAt_of_drop left] at isNext
  let later := { stream.next.2 with exhausted := token.kind == Kind.endOfInput }
  have exhausted : later.exhausted = true ↔ rest = [] := beq_iff_eq.trans (kind_of_drop left)
  refine ⟨later, ?_, exhausted, ⟨hasRead.sameFile, hasRead.ahead, hasRead.reported⟩, buffer⟩
  rw [nextItem?, if_neg (by simp [goesOn])]
  dsimp only
  rw [isNext]

/-- A stream hands out as items just what is left of its text, if it is given enough steps. -/
theorem Stands.items_go {steps : Nat} (stands : stream.Stands file source taken waiting)
    (goesOn : stream.exhausted = false) (left : (scan source).drop taken = token :: rest)
    (enough : rest.length < steps) :
    (items.go steps stream).1 = token :: rest ∧ ∃ waiting,
      (items.go steps stream).2.Stands file source (taken + rest.length + 1) waiting := by
  induction rest generalizing steps stream taken waiting token with
  | nil =>
    cases steps with
    | zero => contradiction
    | succ steps =>
      obtain ⟨later, item, ends, stands⟩ := stands.item goesOn left
      rw [items_go_succ item, items_go_exhausted steps (ends.mpr rfl)]
      exact ⟨rfl, _, stands⟩
  | cons other rest ih =>
    cases steps with
    | zero => contradiction
    | succ steps =>
      obtain ⟨later, item, ends, stands⟩ := stands.item goesOn left
      have further : later.exhausted = false := by simpa using ends
      have behind : (scan source).drop (taken + 1) = other :: rest := by
        rw [← List.drop_drop, left]
        rfl
      obtain ⟨others, waiting, last⟩ :=
        ih stands further behind (Nat.lt_of_succ_lt_succ enough)
      rw [Nat.add_right_comm taken 1] at last
      rw [items_go_succ item, others]
      exact ⟨rfl, waiting, last⟩

theorem length_tokens_le (cursor : Cursor) : cursor.tokens.length ≤ cursor.unread.length + 1 := by
  fun_induction Cursor.tokens cursor with
  | case1 cursor done => exact Nat.le_add_left ..
  | case2 cursor token behind read ih =>
    have shorter := Cursor.length_unread_of_next? read
    rw [List.length_cons]
    omega

/-- The items of a text are the tokens of its scan, and its invalid tokens are reported by then. -/
theorem items_ofText (file source : String) :
    (ofText file source).items.1 = scan source ∧
      (ofText file source).items.2.reported = lexicalDiagnostics file (scan source) := by
  cases scanned : scan source with
  | nil =>
    obtain ⟨read, split, -⟩ := (Cursor.ofText source).exists_tokens
    rw [scan, split] at scanned
    simp at scanned
  | cons token rest =>
    have bound := length_tokens_le (Cursor.ofText source)
    rw [← scan, scanned, List.length_cons] at bound
    have enough : rest.length < 0 + (Cursor.ofText source).unread.length + 1 := by omega
    obtain ⟨handed, waiting, last⟩ := (stands_ofText file source).items_go rfl scanned enough
    refine ⟨handed, ?_⟩
    have all : (scan source).length ≤ 0 + rest.length + 1 + waiting := by
      rw [scanned, List.length_cons]
      omega
    have reported := last.hasRead.reported
    rw [lexicalDiagnostics_tokensAt, List.take_of_length_le all, scanned] at reported
    exact reported

end Items

end TokenStream

theorem Session.scan_eq (session : Session) : session.scan =
    (Bantam.scan session.source,
      { session with
        diagnostics := lexicalDiagnostics session.file (Bantam.scan session.source) }) := by
  obtain ⟨tokens, reported⟩ := TokenStream.items_ofText session.file session.source
  rw [← reported, ← tokens]
  rfl

/-- A session's scan gives tokens that tile its source text, and reports the invalid ones, each with
its span and with its spelling as the message. -/
theorem scan_lossless (session : Session) :
    Lossless session.source session.scan.1 ∧
      session.scan.2.diagnostics = (session.scan.1.filter (·.kind = .invalid)).map
        fun token => ⟨.lexical, session.file, token.span, token.spelling⟩ := by
  rw [session.scan_eq]
  constructor
  · exact lossless_scan session.source
  · show (scan session.source).filterMap (Token.diagnostic? session.file) = _
    rw [← List.filterMap_eq_map, List.filterMap_filter]
    congr 1
    funext token
    simp [Token.diagnostic?]

end Bantam
