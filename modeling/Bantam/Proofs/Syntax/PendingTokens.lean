import Bantam.Proofs.Syntax.Lookahead

/-! What a token stream has still to hand out. Up to the end of input these are the tokens in its
buffer and those that are left of its text, whatever state the stream is in. Taking a token takes
the first of them; looking at one of them, or at the end of input behind them, leaves them all. What
has been reported and what is still to be reported stay the same together, and no more tokens wait
in the buffer than were looked at. -/
namespace Bantam

def beforeEnd (tokens : List Token) : List Token := tokens.takeWhile (·.kind != .endOfInput)

theorem beforeEnd_append {front rest : List Token} {last : Token}
    (inside : ∀ token ∈ front, token.kind ≠ .endOfInput) (isLast : last.kind = .endOfInput) :
    beforeEnd (front ++ last :: rest) = front := by
  rw [beforeEnd, List.takeWhile_append_of_pos, List.takeWhile_cons_of_neg, List.append_nil]
  · simp [isLast]
  · intro token member
    simpa using inside token member

theorem kind_of_beforeEnd {token : Token} {tokens : List Token}
    (member : token ∈ beforeEnd tokens) :
    token.kind ≠ .endOfInput := by
  simpa using List.mem_takeWhile_imp member

theorem exists_end {tokens : List Token} {finish : Token} (member : finish ∈ tokens)
    (isEnd : finish.kind = .endOfInput) :
    ∃ last rest, tokens = beforeEnd tokens ++ last :: rest ∧ last.kind = .endOfInput := by
  induction tokens with
  | nil => contradiction
  | cons token others ih =>
    by_cases isLast : token.kind = .endOfInput
    · exact ⟨token, others, by simp [beforeEnd, isLast], isLast⟩
    · have further : finish ∈ others := by
        rcases List.mem_cons.mp member with rfl | further
        · contradiction
        · exact further
      obtain ⟨last, rest, split, ends⟩ := ih further
      refine ⟨last, rest, ?_, ends⟩
      rw [beforeEnd, List.takeWhile_cons_of_pos (by simpa using isLast), List.cons_append]
      exact congrArg _ split

/-- So many tokens, if comments do not count, and nothing behind them. -/
inductive AtMost : Nat → List Token → Prop
  | nil (limit : Nat) : AtMost limit []
  | comment {limit : Nat} {token : Token} {others : List Token} (isComment : token.kind = .comment)
      (rest : AtMost (limit + 1) others) : AtMost (limit + 1) (token :: others)
  | token {limit : Nat} (token : Token) {others : List Token} (rest : AtMost limit others) :
      AtMost (limit + 1) (token :: others)

theorem AtMost.mono {limit more : Nat} {tokens : List Token} (atMost : AtMost limit tokens)
    (fewer : limit ≤ more) : AtMost more tokens := by
  induction atMost generalizing more with
  | nil => exact .nil more
  | comment isComment _ ih =>
    obtain ⟨more, rfl⟩ := Nat.exists_eq_add_of_le' fewer
    exact .comment isComment (ih (Nat.le_add_left ..))
  | token token _ ih =>
    cases more with
    | zero => contradiction
    | succ more => exact .token token (ih (Nat.le_of_succ_le_succ fewer))

theorem AtMost.eq_nil {tokens : List Token} (atMost : AtMost 0 tokens) : tokens = [] := by
  cases atMost
  rfl

namespace TokenStream
variable {stream : TokenStream}

def coming (stream : TokenStream) : List Token := stream.buffer ++ stream.cursor.tokens

def pending (stream : TokenStream) : List Token := beforeEnd stream.coming

def EndsWith (stream : TokenStream) (finish : Token) : Prop :=
  ∀ token ∈ stream.coming, token.kind = .endOfInput → token = finish

/-- An end of input waits only when nothing is left of the text. -/
def Ended (stream : TokenStream) : Prop :=
  ∀ token ∈ stream.buffer, token.kind = .endOfInput → stream.cursor.next? = none

/-- What has been reported, and behind it what the rest of the text gives reason to report. -/
def account (stream : TokenStream) : List Diagnostic :=
  stream.reported ++ lexicalDiagnostics stream.file stream.cursor.tokens

/-- The stream comes to another one, once these tokens are taken from it. -/
structure Leads (stream : TokenStream) (tokens : List Token) (later : TokenStream) : Prop where
  pending : stream.pending = tokens ++ later.pending
  sameFile : later.file = stream.file
  endsWith : ∀ finish, stream.EndsWith finish → later.EndsWith finish
  finished : stream.cursor.next? = none → later.cursor.next? = none
  ended : stream.Ended → later.Ended
  account : later.account = stream.account

theorem Leads.refl (stream : TokenStream) : stream.Leads [] stream :=
  ⟨rfl, rfl, fun _ => id, id, id, rfl⟩

theorem Leads.trans {first second : List Token} {later last : TokenStream}
    (leads : stream.Leads first later) (more : later.Leads second last) :
    stream.Leads (first ++ second) last where
  pending := by rw [leads.pending, more.pending, List.append_assoc]
  sameFile := more.sameFile.trans leads.sameFile
  endsWith := fun finish ends => more.endsWith finish (leads.endsWith finish ends)
  finished := fun done => more.finished (leads.finished done)
  ended := fun ended => more.ended (leads.ended ended)
  account := more.account.trans leads.account

theorem endOfInput_mem_tokens (cursor : Cursor) :
    ∃ finish ∈ cursor.tokens, finish.kind = .endOfInput := by
  fun_induction Cursor.tokens cursor with
  | case1 cursor done => exact ⟨_, List.mem_singleton_self _, rfl⟩
  | case2 cursor token behind read ih =>
    obtain ⟨finish, member, isEnd⟩ := ih
    exact ⟨finish, List.mem_cons_of_mem _ member, isEnd⟩

theorem coming_eq (stream : TokenStream) :
    ∃ last rest, stream.coming = stream.pending ++ last :: rest ∧ last.kind = .endOfInput := by
  obtain ⟨finish, member, isEnd⟩ := endOfInput_mem_tokens stream.cursor
  exact exists_end (List.mem_append_right _ member) isEnd

theorem pending_of_coming {front rest : List Token} {last : Token}
    (coming : stream.coming = front ++ last :: rest)
    (inside : ∀ token ∈ front, token.kind ≠ .endOfInput) (isLast : last.kind = .endOfInput) :
    stream.pending = front := by
  rw [pending, coming, beforeEnd_append inside isLast]

theorem kind_of_pending {token : Token} (member : token ∈ stream.pending) :
    token.kind ≠ .endOfInput :=
  kind_of_beforeEnd member

theorem tokens_fetch (stream : TokenStream) :
    stream.cursor.tokens = stream.fetch.1 :: stream.fetch.2.cursor.tokens ∨
      stream.cursor.tokens = [stream.fetch.1] ∧ stream.fetch.1.kind = .endOfInput ∧
        stream.fetch.2 = stream := by
  unfold fetch
  split
  · next done => exact .inr ⟨Cursor.tokens_of_none done, rfl, rfl⟩
  · next read => exact .inl (Cursor.tokens_of_some read)

theorem file_fetch (stream : TokenStream) : stream.fetch.2.file = stream.file := by
  unfold fetch
  split <;> rfl

/-- A token that is read is reported in the place in which it was to be reported. -/
theorem account_fetch (stream : TokenStream) : stream.fetch.2.account = stream.account := by
  unfold fetch
  split
  · rfl
  · next token behind read =>
    show stream.reported ++ lexicalDiagnostics stream.file [token] ++
      lexicalDiagnostics stream.file behind.tokens = stream.account
    rw [account, Cursor.tokens_of_some read, List.append_assoc, ← lexicalDiagnostics_append,
      List.singleton_append]

theorem finished_fetch (done : stream.cursor.next? = none) :
    stream.fetch.2.cursor.next? = none := by
  unfold fetch
  rw [done]
  exact done

theorem finished_of_fetch (isEnd : stream.fetch.1.kind = .endOfInput) :
    stream.fetch.2.cursor.next? = none := by
  unfold fetch at isEnd ⊢
  split
  · next done => exact done
  · next token behind read =>
    obtain ⟨blanks, text, step⟩ := Cursor.step_of_next? read
    rw [read] at isEnd
    exact absurd isEnd step.covers.kind

theorem file_next (stream : TokenStream) : stream.next.2.file = stream.file := by
  unfold next
  split
  · rfl
  · exact file_fetch stream

theorem account_next (stream : TokenStream) : stream.next.2.account = stream.account := by
  unfold next
  split
  · rfl
  · exact account_fetch stream

theorem finished_next (done : stream.cursor.next? = none) :
    stream.next.2.cursor.next? = none := by
  unfold next
  split
  · exact done
  · exact finished_fetch done

theorem ended_next (ended : stream.Ended) :
    stream.next.2.Ended ∧
      (stream.next.1.kind = .endOfInput → stream.next.2.cursor.next? = none) := by
  unfold next
  split
  · next token buffer waiting =>
    rw [Ended, waiting] at ended
    exact ⟨fun other member => ended other (List.mem_cons_of_mem _ member),
      ended token List.mem_cons_self⟩
  · next empty =>
    refine ⟨?_, finished_of_fetch⟩
    rw [Ended, buffer_fetch, empty]
    simp

theorem coming_next (stream : TokenStream) :
    stream.coming = stream.next.1 :: stream.next.2.coming ∨
      stream.coming = [stream.next.1] ∧ stream.next.1.kind = .endOfInput ∧
        stream.next.2 = stream := by
  unfold next
  split
  · next token buffer waiting =>
    left
    rw [coming, waiting]
    rfl
  · next empty =>
    rw [coming, empty, coming, buffer_fetch, empty]
    exact tokens_fetch stream

theorem endsWith_next {finish : Token} (ends : stream.EndsWith finish) :
    stream.next.2.EndsWith finish ∧
      (stream.next.1.kind = .endOfInput → stream.next.1 = finish) := by
  rcases coming_next stream with taken | ⟨only, -, same⟩
  · rw [EndsWith, taken] at ends
    exact ⟨fun token member => ends token (List.mem_cons_of_mem _ member),
      ends _ List.mem_cons_self⟩
  · refine ⟨by rwa [same], ends _ ?_⟩
    rw [only]
    exact List.mem_singleton_self _

theorem buffer_next (stream : TokenStream) :
    stream.buffer = stream.next.1 :: stream.next.2.buffer ∨
      stream.buffer = [] ∧ stream.next.2.buffer = [] := by
  unfold next
  split
  · next waiting => exact .inl waiting
  · next empty => exact .inr ⟨empty, (buffer_fetch stream).trans empty⟩

theorem atMost_next {limit : Nat} (atMost : AtMost limit stream.buffer) :
    if stream.next.1.kind = .comment then AtMost limit stream.next.2.buffer
    else AtMost (limit - 1) stream.next.2.buffer := by
  rcases buffer_next stream with waiting | ⟨-, empty⟩
  · rw [waiting] at atMost
    cases atMost with
    | comment isComment rest =>
      rw [if_pos isComment]
      exact rest
    | token _ rest =>
      split
      · exact rest.mono (Nat.le_add_right ..)
      · exact rest
  · rw [empty]
    split <;> exact .nil _

theorem leads_next (goesOn : stream.next.1.kind ≠ .endOfInput) :
    stream.Leads [stream.next.1] stream.next.2 where
  pending := by
    rcases coming_next stream with taken | ⟨-, isEnd, -⟩
    · rw [pending, taken, beforeEnd, List.takeWhile_cons_of_pos (by simpa using goesOn)]
      rfl
    · contradiction
  sameFile := file_next stream
  endsWith := fun _ ends => (endsWith_next ends).1
  finished := finished_next
  ended := fun ended => (ended_next ended).1
  account := account_next stream

theorem pending_of_next (ends : stream.next.1.kind = .endOfInput) : stream.pending = [] := by
  have isFirst : stream.coming.head? = some stream.next.1 := by
    rcases coming_next stream with taken | ⟨only, -⟩
    · rw [taken, List.head?_cons]
    · rw [only, List.head?_cons]
  obtain ⟨rest, split⟩ := List.head?_eq_some_iff.mp isFirst
  have only : stream.coming = [] ++ stream.next.1 :: rest := split
  exact pending_of_coming only (by simp) ends

theorem coming_fill (stream : TokenStream) (missing : Nat) :
    ∃ copies, (stream.fill missing).coming = stream.coming ++ copies ∧
      ∀ copy ∈ copies, copy ∈ stream.coming := by
  induction missing generalizing stream with
  | zero => exact ⟨[], (List.append_nil _).symm, by simp⟩
  | succ missing ih =>
    let read : TokenStream :=
      { stream.fetch.2 with buffer := stream.fetch.2.buffer ++ [stream.fetch.1] }
    show ∃ copies, (read.fill missing).coming = _ ∧ _
    have step : ∃ copies, read.coming = stream.coming ++ copies ∧
        ∀ copy ∈ copies, copy ∈ stream.coming := by
      show ∃ copies, stream.fetch.2.buffer ++ [stream.fetch.1] ++ stream.fetch.2.cursor.tokens =
        _ ∧ _
      rw [coming, buffer_fetch, List.append_assoc]
      rcases tokens_fetch stream with taken | ⟨only, -, same⟩
      · exact ⟨[], by rw [taken, List.append_nil]; rfl, by simp⟩
      · exact ⟨[stream.fetch.1], by rw [same, only, List.append_assoc], by simp [only]⟩
    obtain ⟨first, eq, inside⟩ := step
    obtain ⟨more, eq', inside'⟩ := ih read
    refine ⟨first ++ more, by rw [eq', eq, List.append_assoc], ?_⟩
    intro copy member
    rcases List.mem_append.mp member with early | late
    · exact inside copy early
    · have := inside' copy late
      rw [eq] at this
      exact (List.mem_append.mp this).elim id (inside copy)

theorem file_fill (stream : TokenStream) (missing : Nat) :
    (stream.fill missing).file = stream.file := by
  induction missing generalizing stream with
  | zero => rfl
  | succ missing ih => exact (ih _).trans (file_fetch stream)

theorem account_fill (stream : TokenStream) (missing : Nat) :
    (stream.fill missing).account = stream.account := by
  induction missing generalizing stream with
  | zero => rfl
  | succ missing ih => exact (ih _).trans (account_fetch stream)

theorem finished_fill {stream : TokenStream} (done : stream.cursor.next? = none) (missing : Nat) :
    (stream.fill missing).cursor.next? = none := by
  induction missing generalizing stream with
  | zero => exact done
  | succ missing ih => exact ih (finished_fetch done)

theorem ended_fill {stream : TokenStream} (ended : stream.Ended) (missing : Nat) :
    (stream.fill missing).Ended := by
  induction missing generalizing stream with
  | zero => exact ended
  | succ missing ih =>
    apply ih
    intro token member isEnd
    change token ∈ stream.fetch.2.buffer ++ [stream.fetch.1] at member
    rw [buffer_fetch] at member
    rcases List.mem_append.mp member with waiting | last
    · exact finished_fetch (ended token waiting isEnd)
    · rw [List.mem_singleton.mp last] at isEnd
      exact finished_of_fetch isEnd

theorem length_buffer_fill (stream : TokenStream) (missing : Nat) :
    (stream.fill missing).buffer.length = stream.buffer.length + missing := by
  induction missing generalizing stream with
  | zero => rfl
  | succ missing ih =>
    rw [fill, ih]
    simp only [buffer_fetch, List.length_append, List.length_singleton]
    omega

theorem leads_fill (stream : TokenStream) (missing : Nat) :
    stream.Leads [] (stream.fill missing) := by
  obtain ⟨copies, filled, known⟩ := coming_fill stream missing
  obtain ⟨last, rest, split, isEnd⟩ := coming_eq stream
  constructor
  case pending =>
    have onward : (stream.fill missing).coming = stream.pending ++ last :: (rest ++ copies) := by
      rw [filled, split, List.append_assoc, List.cons_append]
    exact (pending_of_coming onward (fun _ => kind_of_pending) isEnd).symm
  case sameFile => exact file_fill stream missing
  case endsWith =>
    intro finish ends token member
    rw [filled] at member
    exact ends token ((List.mem_append.mp member).elim id (known token))
  case finished => exact fun done => finished_fill done missing
  case ended => exact fun ended => ended_fill ended missing
  case account => exact account_fill stream missing

theorem leads_peek (stream : TokenStream) (offset : Nat) : stream.Leads [] (stream.peek offset).2 :=
  leads_fill stream _

/-- Up to the end of input, one looks at what comes. -/
theorem getElem?_peek {offset : Nat} (inside : offset ≤ stream.pending.length) :
    stream.coming[offset]? = some (stream.peek offset).1 := by
  obtain ⟨copies, filled, -⟩ := coming_fill stream (offset + 1 - stream.buffer.length)
  obtain ⟨last, rest, split, -⟩ := coming_eq stream
  have bound : offset < stream.coming.length := by
    rw [split, List.length_append, List.length_cons]
    omega
  have waits : offset < (stream.fill (offset + 1 - stream.buffer.length)).buffer.length := by
    rw [length_buffer_fill]
    omega
  have same : (stream.fill (offset + 1 - stream.buffer.length)).coming[offset]? =
      stream.coming[offset]? := by
    rw [filled, List.getElem?_append_left bound]
  rw [← same, coming, List.getElem?_append_left waits, peek, List.getElem?_eq_getElem waits]
  rfl

theorem peek_of_lt {offset : Nat} (inside : offset < stream.pending.length) :
    (stream.peek offset).1 = stream.pending[offset] := by
  obtain ⟨last, rest, split, -⟩ := coming_eq stream
  have looks := getElem?_peek inside.le
  rw [split, List.getElem?_append_left inside, List.getElem?_eq_getElem inside] at looks
  exact (Option.some.inj looks).symm

theorem kind_peek_length : (stream.peek stream.pending.length).1.kind = .endOfInput := by
  obtain ⟨last, rest, split, isEnd⟩ := coming_eq stream
  have looks := getElem?_peek (le_refl stream.pending.length)
  rw [split, List.getElem?_append_right le_rfl, Nat.sub_self, List.getElem?_cons_zero] at looks
  rw [← Option.some.inj looks]
  exact isEnd

theorem buffer_peek {offset : Nat} (inside : offset ≤ stream.pending.length) :
    (stream.peek offset).2.buffer = stream.buffer ∨
      (stream.peek offset).2.buffer.dropLast <+: stream.pending := by
  show (stream.fill _).buffer = _ ∨ (stream.fill _).buffer.dropLast <+: _
  by_cases waits : offset < stream.buffer.length
  · left
    rw [Nat.sub_eq_zero_of_le waits]
    rfl
  · right
    obtain ⟨copies, filled, -⟩ := coming_fill stream (offset + 1 - stream.buffer.length)
    obtain ⟨last, rest, split, -⟩ := coming_eq stream
    have length := length_buffer_fill stream (offset + 1 - stream.buffer.length)
    have waiting : (stream.fill (offset + 1 - stream.buffer.length)).buffer.dropLast <+:
        (stream.fill (offset + 1 - stream.buffer.length)).coming :=
      (List.dropLast_prefix _).trans (List.prefix_append _ _)
    have ahead : stream.pending <+: (stream.fill (offset + 1 - stream.buffer.length)).coming := by
      rw [filled, split, List.append_assoc]
      exact List.prefix_append _ _
    apply List.prefix_of_prefix_length_le waiting ahead
    rw [List.length_dropLast, length]
    omega

/-- A token at which one looks waits in the buffer then, and it is the only one that is put there.
-/
theorem exists_buffer_peek {front back : List Token} (split : stream.buffer = front ++ back) :
    ∃ rest, (stream.peek front.length).2.buffer =
        front ++ (stream.peek front.length).1 :: rest ∧
      (back = (stream.peek front.length).1 :: rest ∨ back = [] ∧ rest = []) := by
  cases back with
  | nil =>
    rw [List.append_nil] at split
    have missing : front.length + 1 - stream.buffer.length = 1 := by
      rw [split]
      omega
    have filled : (stream.fill 1).buffer = front ++ [stream.fetch.1] := by
      rw [fill_succ, fill, buffer_fetch, split]
    refine ⟨[], ?_, .inr ⟨rfl, rfl⟩⟩
    rw [peek, missing, filled, List.getElem?_concat_length]
    rfl
  | cons token rest =>
    have nothing : front.length + 1 - stream.buffer.length = 0 := by
      rw [split, List.length_append, List.length_cons]
      omega
    have isNext : (stream.peek front.length).1 = token := by
      rw [peek, nothing, fill, split, List.getElem?_append_right le_rfl, Nat.sub_self]
      rfl
    refine ⟨rest, ?_, .inl (by rw [isNext])⟩
    rw [isNext, peek, nothing]
    exact split

/-- If at most so many tokens wait behind some others, no more wait there later on. -/
def Keeps (stream : TokenStream) (limit offset : Nat) (later : TokenStream) : Prop :=
  ∀ front back, stream.buffer = front ++ back → front.length = offset → AtMost limit back →
    ∃ rest, later.buffer = front ++ rest ∧ AtMost limit rest

theorem keeps_peek (stream : TokenStream) (limit offset : Nat) :
    stream.Keeps (limit + 1) offset (stream.peek offset).2 := by
  intro front back split length atMost
  subst length
  obtain ⟨rest, later, waited | ⟨-, rfl⟩⟩ := exists_buffer_peek split
  · exact ⟨_, later, waited ▸ atMost⟩
  · exact ⟨_, later, .token _ (.nil limit)⟩

theorem Keeps.behindComment {limit offset : Nat} {later : TokenStream}
    (isComment : (stream.peek offset).1.kind = .comment)
    (keeps : (stream.peek offset).2.Keeps (limit + 1) (offset + 1) later) :
    stream.Keeps (limit + 1) offset later := by
  intro front back split length atMost
  subst length
  obtain ⟨rest, looked, known⟩ := exists_buffer_peek split
  have others : AtMost (limit + 1) rest := by
    rcases known with rfl | ⟨-, rfl⟩
    · cases atMost with
      | comment _ others => exact others
      | token _ others => exact others.mono (Nat.le_add_right ..)
    · exact .nil _
  rw [List.append_cons] at looked
  obtain ⟨more, last, atMost⟩ := keeps _ rest looked List.length_append others
  refine ⟨_, last.trans (List.append_cons ..).symm, .comment isComment atMost⟩

theorem Keeps.behindToken {limit offset : Nat} {later : TokenStream}
    (isReal : (stream.peek offset).1.kind ≠ .comment)
    (keeps : (stream.peek offset).2.Keeps limit (offset + 1) later) :
    stream.Keeps (limit + 1) offset later := by
  intro front back split length atMost
  subst length
  obtain ⟨rest, looked, known⟩ := exists_buffer_peek split
  have others : AtMost limit rest := by
    rcases known with rfl | ⟨-, rfl⟩
    · cases atMost with
      | comment isComment _ => exact absurd isComment isReal
      | token _ others => exact others
    · exact .nil _
  rw [List.append_cons] at looked
  obtain ⟨more, last, atMost⟩ := keeps _ rest looked List.length_append others
  refine ⟨_, last.trans (List.append_cons ..).symm, .token _ atMost⟩

/-- The stream was looked into, but not behind the end of input. -/
structure Looked (stream later : TokenStream) : Prop where
  leads : stream.Leads [] later
  buffer : later.buffer = stream.buffer ∨ later.buffer.dropLast <+: stream.pending

theorem looked_peek {offset : Nat} (inside : offset ≤ stream.pending.length) :
    stream.Looked (stream.peek offset).2 :=
  ⟨leads_peek stream offset, buffer_peek inside⟩

theorem Looked.refl (stream : TokenStream) : stream.Looked stream := ⟨.refl stream, .inl rfl⟩

theorem Looked.trans {later last : TokenStream} (looked : stream.Looked later)
    (more : later.Looked last) : stream.Looked last where
  leads := looked.leads.trans more.leads
  buffer := by
    rcases more.buffer with same | ahead
    · rw [same]
      exact looked.buffer
    · right
      rwa [looked.leads.pending]

end TokenStream

end Bantam
